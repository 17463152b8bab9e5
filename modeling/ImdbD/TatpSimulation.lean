import ImdbD.TatpPopulated

/-!
# The transactions of TATP over two storage managers

The transactions and the populator make few kinds of calls. When the calls on
one storage manager follow those on another, possibly with other partitions, so
do the procedures and whole runs.
-/
namespace ImdbD.Benchmark.TATP
open ByteMemory StorageEngine AtomicProgram
open Program (Follows)

/-- A table up to its partition. -/
inductive TableKind where
  | subscriber
  | accessInfo
  | specialFacility
  | callForwarding

/-- The table to which a subscriber is routed. -/
abbrev Constants.route (K : Constants) : TableKind → Int32 → TableId
  | .subscriber, _ => .subscriber
  | .accessInfo, sId => .accessInfo (K.offset sId)
  | .specialFacility, sId => .specialFacility (K.offset sId)
  | .callForwarding, sId => .callForwarding (K.offset sId)

/-- The selections that the transactions make. -/
inductive Selection : TableKind → Int32 → List (ℕ × Bytes) → Prop
  | subNbr (sId : Int32) (subNbr : CString) : Selection .subscriber sId [(1, subNbr.read 15)]
  | subscriber (sId : Int32) : Selection .subscriber sId [(0, int32Bytes sId)]
  | accessInfo (sId : Int32) (aiType : Int8) :
      Selection .accessInfo sId [(0, int32Bytes sId), (1, int8Bytes aiType)]
  | facilities (sId : Int32) : Selection .specialFacility sId [(0, int32Bytes sId)]
  | specialFacility (sId : Int32) (sfType : Int8) :
      Selection .specialFacility sId [(0, int32Bytes sId), (1, int8Bytes sfType)]
  | callForwarding (sId : Int32) (sfType startTime : Int8) :
      Selection .callForwarding sId
        [(0, int32Bytes sId), (1, int8Bytes sfType), (2, int8Bytes startTime)]

/-- The columns that the transactions overwrite. -/
inductive Overwrite : TableKind → List (ℕ × Bytes) → Prop
  | vlrLocation (vlrLocation : Int32) : Overwrite .subscriber [(33, int32Bytes vlrLocation)]
  | bit1 (bit1 : Int8) : Overwrite .subscriber [(2, int8Bytes bit1)]
  | dataA (dataA : Int16) : Overwrite .specialFacility [(4, int16Bytes dataA)]

variable {σ τ : Type}

/-- The calls on `M` follow the calls on `N`, with `R` between the states. -/
structure Simulation (A : Answer → Answer → Prop) (M : StorageManager layout σ) (K : Constants)
    (N : StorageManager layout τ) (K' : Constants) (R : σ → τ → Prop) where
  /-- Two references to one row. -/
  Same : ∀ kind sId, σ → τ → M.Found (K.route kind sId) → N.Found (K'.route kind sId) → Prop
  selectRecord : ∀ {kind sId params s t}, Selection kind sId params → R s t →
    Follows A (M.selectRecord (K.route kind sId) params) s
      (N.selectRecord (K'.route kind sId) params) t
      (fun r s' r' t' => s' = s ∧ t' = t ∧ Option.Rel (Same kind sId s t) r r')
  getColumn : ∀ {kind sId s t a b}, R s t → Same kind sId s t a b → ∀ column,
    Follows A (M.getColumn a column) s (N.getColumn b column) t
      (fun x s' y t' => x = y ∧ s' = s ∧ t' = t)
  updateRecord : ∀ {kind sId params s t a b}, R s t → Same kind sId s t a b →
    Overwrite kind params →
    Follows A (M.updateRecord a params) s (N.updateRecord b params) t (fun _ s _ t => R s t)
  deleteRecord : ∀ {sId s t a b}, R s t → Same .callForwarding sId s t a b →
    Follows A (M.deleteRecord a) s (N.deleteRecord b) t (fun _ s _ t => R s t)
  insertRecord : ∀ (n : RowName) (e e' : Σ id, Record (layout id).schema) {s t}, R s t →
    e.1 = n.table K → e'.1 = n.table K' → e.2.data = e'.2.data → e.2.primaryKey = some n.key →
    Follows A (M.insertRecord e.1 e.2) s (N.insertRecord e'.1 e'.2) t (fun _ s _ t => R s t)

namespace Simulation
variable {A : Answer → Answer → Prop} {M : StorageManager layout σ} {K : Constants}
  {N : StorageManager layout τ} {K' : Constants} {R : σ → τ → Prop}
  (sim : Simulation A M K N K' R) {s : σ} {t : τ}
include sim

theorem getSubscriberId (h : R s t) (subNbr : CString) :
    Follows A (TATP.getSubscriberId M subNbr) s (TATP.getSubscriberId N subNbr) t
      (fun x s' y t' => x = y ∧ s' = s ∧ t' = t) := by
  refine .bind (sim.selectRecord (.subNbr 0 subNbr) h) ?_
  rintro r _ r' _ ⟨rfl, rfl, hr⟩
  cases hr with
  | none => exact .pure ⟨rfl, rfl, rfl⟩
  | some hsame =>
    refine .bind (sim.getColumn h hsame 0) ?_
    rintro _ _ _ _ ⟨rfl, rfl, rfl⟩
    exact .pure ⟨rfl, rfl, rfl⟩

theorem deleteCallForwardingRecord (h : R s t) (sId : Int32) (sfType startTime : Int8) :
    Follows A (TATP.deleteCallForwardingRecord M K sId sfType startTime) s
      (TATP.deleteCallForwardingRecord N K' sId sfType startTime) t (fun _ s _ t => R s t) := by
  refine .bind (sim.selectRecord (.callForwarding sId sfType startTime) h) ?_
  rintro r _ r' _ ⟨rfl, rfl, hr⟩
  cases hr with
  | none => exact .pure h
  | some hsame => exact sim.deleteRecord h hsame

/-- A selection whose result is not used. -/
theorem selectOnly {kind : TableKind} {sId : Int32} {params : List (ℕ × Bytes)}
    (hsel : Selection kind sId params) (h : R s t) :
    Follows A (do let _ ← M.selectRecord (K.route kind sId) params) s
      (do let _ ← N.selectRecord (K'.route kind sId) params) t (fun _ s _ t => R s t) := by
  refine .bind (sim.selectRecord hsel h) ?_
  rintro r _ r' _ ⟨rfl, rfl, -⟩
  exact .pure h

theorem insertCallForwardingRecord (h : R s t) (memory : Memory) (sId : Int32)
    (sfType startTime endTime : Int8) (numberx : CString) :
    Follows A (TATP.insertCallForwardingRecord M K memory sId sfType startTime endTime numberx) s
      (TATP.insertCallForwardingRecord N K' memory sId sfType startTime endTime numberx) t
      (fun _ s _ t => R s t) := by
  refine .bind (sim.selectRecord (.callForwarding sId sfType startTime) h) ?_
  rintro r _ r' _ ⟨rfl, rfl, hr⟩
  cases hr with
  | some _ => exact .pure h
  | none =>
    have hkey : ((Record.fresh TatpSchema.getCallForwardingSchema memory).setColumns
        (callForwardingColumns sId sfType startTime endTime numberx)).primaryKey =
        some (callForwardingKey sId sfType startTime) := by
      rw [setColumns_fresh]
      exact primaryKey_callForwardingRecord
    exact sim.insertRecord (.callForwarding sId sfType startTime)
      ⟨.callForwarding (K.offset sId), _⟩ ⟨.callForwarding (K'.offset sId), _⟩ h rfl rfl rfl hkey

theorem updateSubscriberVLRLocation (h : R s t) (sId vlrLocation : Int32) :
    Follows A (TATP.updateSubscriberVLRLocation M sId vlrLocation) s
      (TATP.updateSubscriberVLRLocation N sId vlrLocation) t (fun _ s _ t => R s t) := by
  refine .bind (sim.selectRecord (.subscriber sId) h) ?_
  rintro r s' r' t' ⟨rfl, rfl, hr⟩
  refine .bind (R := fun a s₁ b t₁ => R s₁ t₁ ∧ sim.Same .subscriber sId s₁ t₁ a b)
    (.fetch (fun b hb => ?_)) (fun a s₁ b t₁ hrec => ?_)
  · subst hb
    cases hr with
    | some hsame => exact ⟨_, rfl, h, hsame⟩
  · exact sim.updateRecord hrec.1 hrec.2 (.vlrLocation vlrLocation)

theorem updateSubscriberBit1 (h : R s t) (sId : Int32) (bit1 : Int8) :
    Follows A (TATP.updateSubscriberBit1 M sId bit1) s (TATP.updateSubscriberBit1 N sId bit1) t
      (fun _ s _ t => R s t) := by
  refine .bind (sim.selectRecord (.subscriber sId) h) ?_
  rintro r _ r' _ ⟨rfl, rfl, hr⟩
  cases hr with
  | none => exact .pure h
  | some hsame => exact sim.updateRecord h hsame (.bit1 bit1)

theorem updateSpecialFacilityDataA (h : R s t) (sId : Int32) (sfType : Int8) (dataA : Int16) :
    Follows A (TATP.updateSpecialFacilityDataA M K sId sfType dataA) s
      (TATP.updateSpecialFacilityDataA N K' sId sfType dataA) t (fun _ s _ t => R s t) := by
  refine .bind (sim.selectRecord (.specialFacility sId sfType) h) ?_
  rintro r _ r' _ ⟨rfl, rfl, hr⟩
  cases hr with
  | none => exact .pure h
  | some hsame => exact sim.updateRecord h hsame (.dataA dataA)

theorem process (h : R s t) (memory : Memory) (tuple : EventTuple) :
    Follows A (TatpSerialProcessor.process M K memory tuple) s
      (TatpSerialProcessor.process N K' memory tuple) t (fun _ s _ t => R s t) := by
  cases tuple with
  | deleteCallForwarding param =>
    refine .bind (sim.getSubscriberId h param.subNbr) ?_
    rintro sId _ _ _ ⟨rfl, rfl, rfl⟩
    exact sim.deleteCallForwardingRecord h sId param.sfType param.startTime
  | getAccessData param => exact sim.selectOnly (.accessInfo param.sId param.aiType) h
  | getNewDestination param => exact .pure h
  | getSubscriberData param => exact sim.selectOnly (.subscriber param.sId) h
  | insertCallForwarding param =>
    refine .bind (sim.getSubscriberId h param.subNbr) ?_
    rintro sId _ _ _ ⟨rfl, rfl, rfl⟩
    refine .bind (sim.selectOnly (.facilities sId) h) (fun _ s₁ _ t₁ h₁ => ?_)
    exact sim.insertCallForwardingRecord h₁ memory sId param.sfType param.startTime param.endTime
      param.numberx
  | updateLocation param =>
    refine .bind (sim.getSubscriberId h param.subNbr) ?_
    rintro sId _ _ _ ⟨rfl, rfl, rfl⟩
    exact sim.updateSubscriberVLRLocation h sId param.vlrLocation
  | updateSubscriberData param =>
    refine .bind (sim.updateSubscriberBit1 h param.sId param.bit1) (fun _ s₁ _ t₁ h₁ => ?_)
    exact sim.updateSpecialFacilityDataA h₁ param.sId param.sfType param.dataA
  | endExecution => exact .pure h

/-- A whole run of the serial processor. -/
theorem start (h : R s t) (memories : ℕ → Memory) (txnCnt : ℕ) (queue : List EventTuple) :
    Follows A (TatpSerialProcessor.start M K memories txnCnt queue) s
      (TatpSerialProcessor.start N K' memories txnCnt queue) t (fun _ s _ t => R s t) := by
  induction queue generalizing s t txnCnt with
  | nil => exact .of_none (by simp [TatpSerialProcessor.start])
  | cons tuple queue ih =>
    have hround := sim.process h (memories txnCnt) tuple
    cases tuple with
    | endExecution => exact .pure h
    | _ => exact .bind hround (fun _ s₁ _ t₁ h₁ => ih h₁ (txnCnt + 1))

theorem startPopulate (h : R s t) (draws : Draws) :
    Follows A (TatpPopulator.startPopulate M K draws) s (TatpPopulator.startPopulate N K' draws) t
      (fun _ s _ t => R s t) := by
  refine .bind (.each (fun sId _ s t h => ?_) h) (fun _ s₁ _ t₁ h₁ =>
    .bind (.each (fun sId _ s t h => .each (fun ai _ s t h => ?_) h) h₁) (fun _ s₂ _ t₂ h₂ =>
      .each (fun sId _ s t h => .each (fun sf _ s t h => .bind ?_ (fun _ s₃ _ t₃ h₃ =>
        .each (fun start _ s t h => ?_) h₃)) h) h₂))
  · exact sim.insertRecord (.subscriber sId) ⟨_, _⟩ ⟨_, _⟩ h rfl rfl rfl
      (primaryKey_subscriberRow _)
  · exact sim.insertRecord (.accessInfo sId ai.1.toInt8) ⟨_, _⟩ ⟨_, _⟩ h rfl rfl rfl
      (primaryKey_accessInfoRow _)
  · exact sim.insertRecord (.specialFacility sId sf.1.toInt8) ⟨_, _⟩ ⟨_, _⟩ h rfl rfl rfl
      (primaryKey_specialFacilityRow _)
  · exact sim.insertRecord (.callForwarding sId sf.1.toInt8 start.1.toInt8) ⟨_, _⟩ ⟨_, _⟩ h
      rfl rfl rfl (primaryKey_callForwardingRow _)

end Simulation
end ImdbD.Benchmark.TATP
