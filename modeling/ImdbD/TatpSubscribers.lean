import ImdbD.TatpPopulationShape
import ImdbD.FrozenColumns

/-!
# Subscriber numbers under any run of TATP

No procedure inserts or deletes a subscriber or writes its numbers. So a number
leads to the same subscriber in every state, whatever transactions are run, one
after another or as the procedures of batches on many threads.
-/
namespace ImdbD.Benchmark.TATP
open ByteMemory StorageEngine AtomicProgram TatpPopulator
open SchemaTables (HoldsFrozen manager)

variable {K : Constants} {draws : Draws} {t t' : SchemaTables TableId} {live : List Ptr}
  {rows : Ptr → Bytes}

/-- What threads run: a transaction of the serial processor, or one of the procedures of which the
threads of a batch are made. -/
inductive Procedure (K : Constants) : Program (SchemaTables TableId) Unit → Prop
  | process (memory : Memory) (tuple : EventTuple) :
    Procedure K (TatpSerialProcessor.process (manager layout) K memory tuple)
  | getSubscriberId (subNbr : CString) :
    Procedure K (do let _ ← TATP.getSubscriberId (manager layout) subNbr)
  | deleteCallForwardingRecord (sId : Int32) (sfType startTime : Int8) :
    Procedure K (TATP.deleteCallForwardingRecord (manager layout) K sId sfType startTime)
  | getAccessInfo (sId : Int32) (aiType : Int8) :
    Procedure K (TATP.getAccessInfo (manager layout) K sId aiType)
  | getNewDestination (sId : Int32) (sfType startTime endTime : Int8) :
    Procedure K (TATP.getNewDestination sId sfType startTime endTime)
  | getSubscriberData (sId : Int32) : Procedure K (TATP.getSubscriberData (manager layout) sId)
  | getSpecialFacilitySFType (sId : Int32) :
    Procedure K (TATP.getSpecialFacilitySFType (manager layout) K sId)
  | insertCallForwardingRecord (memory : Memory) (sId : Int32) (sfType startTime endTime : Int8)
      (numberx : CString) : Procedure K (TATP.insertCallForwardingRecord (manager layout) K memory sId
        sfType startTime endTime numberx)
  | updateSubscriberVLRLocation (sId vlrLocation : Int32) :
    Procedure K (TATP.updateSubscriberVLRLocation (manager layout) sId vlrLocation)
  | updateSubscriberBit1 (sId : Int32) (bit1 : Int8) :
    Procedure K (TATP.updateSubscriberBit1 (manager layout) sId bit1)
  | updateSpecialFacilityDataA (sId : Int32) (sfType : Int8) (dataA : Int16) :
    Procedure K (TATP.updateSpecialFacilityDataA (manager layout) K sId sfType dataA)

/-- The subscribers, with the columns of their numbers. -/
abbrev Subscribers (live : List Ptr) (rows : Ptr → Bytes) : SchemaTables TableId → Prop :=
  HoldsFrozen (layout .subscriber) [0, 1] live rows .subscriber

private theorem subscriber_covered : (layout .subscriber).Covered [0, 1] where
  valid := by decide
  primary := by decide
  secondary index h := by
    cases h
    decide

section Keeps

theorem valid_subscriber {c : ℕ} {value : Bytes}
    (hc : c < TatpSchema.getSubscriberSchema.schema.columnCount)
    (hsize : TatpSchema.getSubscriberSchema.schema.getColumnSize c ≤ value.length) :
    (ColumnPredicates.mk [(c, value)]).Valid (layout .subscriber).schema.schema := by
  intro e he
  rw [List.mem_singleton.mp he]
  exact ⟨hc, hsize⟩

theorem keeps_otherTable {id : TableId} (hne : .subscriber ≠ id)
    (f : SchemaTable → Option SchemaTable) :
    (Program.atomic (SchemaTables.change id f)).Keeps (Subscribers live rows) (fun _ => True) :=
  SchemaTables.keeps_change_other hne f

private theorem keeps_selectSubscriber (sId : Int32) :
    ((manager layout).selectRecord .subscriber [(0, int32Bytes sId)]).Keeps (Subscribers live rows)
      (Answers (layout .subscriber) live rows [(0, int32Bytes sId)]) :=
  SchemaTables.keeps_selectRecord (layout_keyed .subscriber)
    (valid_subscriber (by decide) (length_int32Bytes sId).ge) (by simp) (by simp) (.inl rfl)

private theorem keeps_selectNumber (subNbr : CString) :
    ((manager layout).selectRecord .subscriber [(1, subNbr.read 15)]).Keeps (Subscribers live rows)
      (Answers (layout .subscriber) live rows [(1, subNbr.read 15)]) :=
  SchemaTables.keeps_selectRecord (layout_keyed .subscriber)
    (valid_subscriber (by decide) (subNbr.length_read 15).ge) (by simp) (by simp) (.inr rfl)

theorem keeps_getSubscriberId (subNbr : CString) :
    (getSubscriberId (manager layout) subNbr).Keeps (Subscribers live rows) (fun _ => True) := by
  refine (keeps_selectNumber subNbr).bind (fun r _ => ?_)
  cases r with
  | none => exact .pure trivial
  | some record => exact (SchemaTables.keeps_look _ _).bind (fun _ _ => .pure trivial)

theorem keeps_deleteCallForwardingRecord (sId : Int32) (sfType startTime : Int8) :
    (deleteCallForwardingRecord (manager layout) K sId sfType startTime).Keeps
      (Subscribers live rows) (fun _ => True) := by
  refine (SchemaTables.keeps_look _ _).bind (fun r _ => ?_)
  cases r with
  | none => exact .pure trivial
  | some record =>
    refine keeps_otherTable ?_ _
    nofun

theorem keeps_insertCallForwardingRecord (memory : Memory) (sId : Int32)
    (sfType startTime endTime : Int8) (numberx : CString) :
    (insertCallForwardingRecord (manager layout) K memory sId sfType startTime endTime numberx).Keeps
      (Subscribers live rows) (fun _ => True) := by
  refine (SchemaTables.keeps_look _ _).bind (fun r _ => ?_)
  cases r with
  | none =>
    refine keeps_otherTable ?_ _
    nofun
  | some record => exact .pure trivial

private theorem keeps_updateSubscriber {sId : Int32} {record : Ptr} {params : List (ℕ × Bytes)}
    (hanswers : Answers (layout .subscriber) live rows [(0, int32Bytes sId)] (some record))
    (hover : Overwrite .subscriber params) :
    ((manager layout).updateRecord (show (manager layout).Found TableId.subscriber from record)
      params).Keeps (Subscribers live rows) (fun _ => True) := by
  obtain ⟨p, hp, rfl, -⟩ := hanswers
  cases hover with
  | vlrLocation vlrLocation =>
    exact SchemaTables.keeps_updateRecord (layout_keyed .subscriber) subscriber_covered hp
      (valid_subscriber (by decide) (length_int32Bytes vlrLocation).ge) (by simp)
  | bit1 bit1 =>
    exact SchemaTables.keeps_updateRecord (layout_keyed .subscriber) subscriber_covered hp
      (valid_subscriber (by decide) (length_int8Bytes bit1).ge) (by simp)

private theorem keeps_updateSubscriberVLRLocation (sId vlrLocation : Int32) :
    (updateSubscriberVLRLocation (manager layout) sId vlrLocation).Keeps (Subscribers live rows)
      (fun _ => True) := by
  refine (keeps_selectSubscriber sId).bind (fun r hanswers => ?_)
  have hfetch : (Program.fetch r : Program (SchemaTables TableId) Ptr).Keeps (Subscribers live rows)
      (fun record => Answers (layout .subscriber) live rows [(0, int32Bytes sId)] (some record)) :=
    .fetch (fun record he => he ▸ hanswers)
  exact hfetch.bind (fun record hrecord =>
    keeps_updateSubscriber hrecord (.vlrLocation vlrLocation))

private theorem keeps_updateSubscriberBit1 (sId : Int32) (bit1 : Int8) :
    (updateSubscriberBit1 (manager layout) sId bit1).Keeps (Subscribers live rows)
      (fun _ => True) := by
  refine (keeps_selectSubscriber sId).bind (fun r hanswers => ?_)
  cases r with
  | none => exact .pure trivial
  | some record => exact keeps_updateSubscriber hanswers (.bit1 bit1)

theorem keeps_updateSpecialFacilityDataA (sId : Int32) (sfType : Int8) (dataA : Int16) :
    (updateSpecialFacilityDataA (manager layout) K sId sfType dataA).Keeps (Subscribers live rows)
      (fun _ => True) := by
  refine (SchemaTables.keeps_look _ _).bind (fun r _ => ?_)
  cases r with
  | none => exact .pure trivial
  | some record =>
    refine keeps_otherTable ?_ _
    nofun

private theorem keeps_process (memory : Memory) (tuple : EventTuple) :
    (TatpSerialProcessor.process (manager layout) K memory tuple).Keeps (Subscribers live rows)
      (fun _ => True) := by
  cases tuple with
  | deleteCallForwarding param =>
    exact (keeps_getSubscriberId param.subNbr).bind
      (fun sId _ => keeps_deleteCallForwardingRecord sId param.sfType param.startTime)
  | getAccessData param => exact (SchemaTables.keeps_look _ _).discard
  | getNewDestination param => exact .pure trivial
  | getSubscriberData param => exact (SchemaTables.keeps_look _ _).discard
  | insertCallForwarding param =>
    refine (keeps_getSubscriberId param.subNbr).bind (fun sId _ => ?_)
    refine (SchemaTables.keeps_look _ _).discard.bind (fun _ _ => ?_)
    exact keeps_insertCallForwardingRecord memory sId param.sfType param.startTime param.endTime
      param.numberx
  | updateLocation param =>
    exact (keeps_getSubscriberId param.subNbr).bind
      (fun sId _ => keeps_updateSubscriberVLRLocation sId param.vlrLocation)
  | updateSubscriberData param =>
    exact (keeps_updateSubscriberBit1 param.sId param.bit1).bind
      (fun _ _ => keeps_updateSpecialFacilityDataA param.sId param.sfType param.dataA)
  | endExecution => exact .pure trivial

theorem Procedure.keeps {p : Program (SchemaTables TableId) Unit} (h : Procedure K p) :
    p.Keeps (Subscribers live rows) (fun _ => True) := by
  cases h with
  | process memory tuple => exact keeps_process memory tuple
  | getSubscriberId subNbr => exact (keeps_getSubscriberId subNbr).discard
  | deleteCallForwardingRecord sId sfType startTime =>
    exact keeps_deleteCallForwardingRecord sId sfType startTime
  | getAccessInfo | getSubscriberData | getSpecialFacilitySFType =>
    exact (SchemaTables.keeps_look _ _).discard
  | getNewDestination => exact .pure trivial
  | insertCallForwardingRecord memory sId sfType startTime endTime numberx =>
    exact keeps_insertCallForwardingRecord memory sId sfType startTime endTime numberx
  | updateSubscriberVLRLocation sId vlrLocation =>
    exact keeps_updateSubscriberVLRLocation sId vlrLocation
  | updateSubscriberBit1 sId bit1 => exact keeps_updateSubscriberBit1 sId bit1
  | updateSpecialFacilityDataA sId sfType dataA =>
    exact keeps_updateSpecialFacilityDataA sId sfType dataA

end Keeps

theorem CString.read_of_length {text : CString} {n : ℕ} (h : text.chars.length = n) :
    text.read n = text.chars := by
  rw [CString.read, ← h, List.take_left']
  rfl

/-- The rows are those of the subscribers, each with its number. -/
structure CarryNumbers (draws : Draws) (live : List Ptr) (rows : Ptr → Bytes) : Prop where
  row : ∀ p ∈ live, ∃ sId ∈ sIds draws,
    TatpSchema.getSubscriberSchema.schema.getColumn (rows p) 0 = int32Bytes sId ∧
    TatpSchema.getSubscriberSchema.schema.getColumn (rows p) 1 = TatpUtil.padWithZero (toSize sId)
  subscriber : ∀ sId ∈ sIds draws, ∃ p ∈ live,
    TatpSchema.getSubscriberSchema.schema.getColumn (rows p) 1 = TatpUtil.padWithZero (toSize sId)

private theorem Populated.carryNumbers (h : Populated K draws t) :
    ∃ live rows, Subscribers live rows t ∧ CarryNumbers draws live rows := by
  obtain ⟨s, htable, hgrew⟩ := h .subscriber (K.route_registered .subscriber 0)
  have hrow : ∀ p ∈ s.live, ∃ r : Record TatpSchema.getSubscriberSchema,
      (⟨.subscriber, r⟩ : Σ id, Record (layout id).schema) ∈ entries K draws ∧ r.data = s.bytes p := by
    intro p hp
    have hmem := List.mem_map_of_mem (f := s.bytes) hp
    rw [hgrew.rows] at hmem
    exact mem_rowsOf.mp hmem
  refine ⟨s.live, s.bytes, ⟨s, htable, .of_grew hgrew [0, 1]⟩, fun p hp => ?_, fun sId hsId => ?_⟩
  · obtain ⟨r, hr, hdata⟩ := hrow p hp
    obtain ⟨sId, hsId, hid, hnumber, -⟩ := subscriber_entry hr
    rw [← hdata]
    exact ⟨sId, hsId, hid, hnumber⟩
  · have hentry : subscriberEntry draws sId ∈ entries K draws :=
      List.mem_append_left _ (List.mem_map_of_mem hsId)
    have hmem := mem_rowsOf.mpr ⟨_, hentry, rfl⟩
    rw [← hgrew.rows] at hmem
    obtain ⟨p, hp, hbytes⟩ := List.mem_map.mp hmem
    refine ⟨p, hp, ?_⟩
    rw [hbytes]
    exact getColumn_subscriberRow hsId

variable {subNbr : CString}

private theorem run_selectNumber (ht : Subscribers live rows t) (subNbr : CString) : ∃ r,
    ((manager layout).selectRecord .subscriber [(1, subNbr.read 15)]).run t = some (r, t) ∧
      Answers (layout .subscriber) live rows [(1, subNbr.read 15)] r :=
  SchemaTables.run_selectRecord ht (layout_keyed .subscriber)
    (valid_subscriber (by decide) (subNbr.length_read 15).ge) (by simp) (by simp) (.inr rfl)

theorem matches_number {p : Ptr} :
    (ColumnPredicates.mk [(1, subNbr.read 15)]).Matches (layout .subscriber).schema.schema (rows p) ↔
      subNbr.read 15 = TatpSchema.getSubscriberSchema.schema.getColumn (rows p) 1 := by
  have hsize : TatpSchema.getSubscriberSchema.schema.getColumnSize 1 = 15 := rfl
  rw [ColumnPredicates.Matches, List.forall_mem_singleton]
  change (subNbr.read 15).take (TatpSchema.getSubscriberSchema.schema.getColumnSize 1) = _ ↔ _
  rw [hsize, List.take_of_length_le (subNbr.length_read 15).le]

private theorem run_getSubscriberId_known (ht : Subscribers live rows t)
    (hnumbers : CarryNumbers draws live rows) {sId : Int32} (hsId : sId ∈ sIds draws)
    (hsub : subNbr.read 15 = TatpUtil.padWithZero (toSize sId)) :
    (getSubscriberId (manager layout) subNbr).run t = some (sId, t) := by
  obtain ⟨r, hr, hanswers⟩ := run_selectNumber ht subNbr
  rw [getSubscriberId, Program.run_bind, hr, Option.bind_some]
  cases r with
  | none =>
    obtain ⟨p, hp, hnumber⟩ := hnumbers.subscriber sId hsId
    exact absurd (matches_number.mpr (hsub.trans hnumber.symm)) (hanswers p hp)
  | some record =>
    obtain ⟨p, hp, rfl, hm⟩ := hanswers
    obtain ⟨sId', -, hid, hnumber⟩ := hnumbers.row p hp
    have he : TatpUtil.padWithZero (toSize sId) = TatpUtil.padWithZero (toSize sId') :=
      hsub.symm.trans ((matches_number.mp hm).trans hnumber)
    obtain rfl := toSize_injective (TatpUtil.padWithZero_injective he)
    have hcolumn := SchemaTables.run_getColumn ht hp (List.mem_cons_self : 0 ∈ [0, 1])
    dsimp only
    rw [Program.run_bind, hcolumn, Option.bind_some, hid]
    exact congrArg (fun n => some (n, t)) (readInt32_int32Bytes sId)

private theorem run_getSubscriberId_unknown (ht : Subscribers live rows t)
    (hnumbers : CarryNumbers draws live rows)
    (hsub : ∀ sId ∈ sIds draws, subNbr.read 15 ≠ TatpUtil.padWithZero (toSize sId)) :
    (getSubscriberId (manager layout) subNbr).run t = some (-1, t) := by
  obtain ⟨r, hr, hanswers⟩ := run_selectNumber ht subNbr
  rw [getSubscriberId, Program.run_bind, hr, Option.bind_some]
  cases r with
  | none => rfl
  | some record =>
    obtain ⟨p, hp, -, hm⟩ := hanswers
    obtain ⟨sId, hsId, -, hnumber⟩ := hnumbers.row p hp
    exact absurd ((matches_number.mp hm).trans hnumber) (hsub sId hsId)

/-- The serial processor is one way for the transactions to run. -/
theorem reaches_start {t₀ : SchemaTables TableId} (h : Pool.Reaches (Procedure K) t₀ t)
    (memories : ℕ → Memory) (txnCnt : ℕ) (queue : List EventTuple)
    (hrun : (TatpSerialProcessor.start (manager layout) K memories txnCnt queue).run t =
      some ((), t')) : Pool.Reaches (Procedure K) t₀ t' := by
  induction queue generalizing t txnCnt with
  | nil =>
    rw [TatpSerialProcessor.start, Program.run_fault] at hrun
    cases hrun
  | cons tuple queue ih =>
    cases tuple with
    | endExecution =>
      cases hrun
      exact h
    | _ =>
      obtain ⟨⟨⟩, t₁, hround, hrest⟩ := Program.run_bind_eq_some.mp hrun
      exact ih (h.run (.process _ _) hround) (txnCnt + 1) hrest

private theorem padWithZero_spec {subscriberSize : ℕ} (h : subscriberSize < 10 ^ SUB_NBR_PADDING_SIZE) :
    Set.InjOn TatpUtil.padWithZero (Set.Icc 1 subscriberSize) ∧
      ∀ n ∈ Set.Icc 1 subscriberSize, (TatpUtil.padWithZero n).length = SUB_NBR_PADDING_SIZE :=
  ⟨TatpUtil.padWithZero_injective.injOn,
    fun _ hn => TatpUtil.length_padWithZero (lt_of_le_of_lt hn.2 h)⟩

/-- The number of a subscriber leads to it, and a string of that length that is no subscriber's number
leads to nobody, in every state that any threads reach from the populated tables. -/
theorem subscriberNumbers_decode (K : Constants) (draws : Draws) :
    (∀ subscriberSize < 10 ^ SUB_NBR_PADDING_SIZE,
      Set.InjOn TatpUtil.padWithZero (Set.Icc 1 subscriberSize) ∧
      ∀ n ∈ Set.Icc 1 subscriberSize, (TatpUtil.padWithZero n).length = SUB_NBR_PADDING_SIZE) ∧
    ∃ t₀, (startPopulate (manager layout) K draws).run (init K) = some ((), t₀) ∧
      ∀ t, Pool.Reaches (Procedure K) t₀ t → ∀ subNbr : CString,
        (∀ sId ∈ sIds draws, subNbr.chars = TatpUtil.padWithZero (toSize sId) →
          (getSubscriberId (manager layout) subNbr).run t = some (sId, t)) ∧
        (subNbr.chars.length = SUB_NBR_PADDING_SIZE →
          (∀ sId ∈ sIds draws, subNbr.chars ≠ TatpUtil.padWithZero (toSize sId)) →
          (getSubscriberId (manager layout) subNbr).run t = some (-1, t)) := by
  refine ⟨fun size h => padWithZero_spec h, ?_⟩
  obtain ⟨t₀, hrun, hpopulated⟩ := run_startPopulate_filled K draws
  obtain ⟨live, rows, hsubscribers, hnumbers⟩ := hpopulated.carryNumbers
  refine ⟨t₀, hrun, fun t hreaches subNbr => ?_⟩
  have ht : Subscribers live rows t := hreaches.invariant (fun p hp => hp.keeps) hsubscribers
  constructor
  · intro sId hsId hchars
    have hlt := toSize_lt_of_mem hsId
    have hlength : subNbr.chars.length = 15 := by
      rw [hchars]
      exact TatpUtil.length_padWithZero (by change _ < 10 ^ 15; omega)
    exact run_getSubscriberId_known ht hnumbers hsId ((CString.read_of_length hlength).trans hchars)
  · intro hlength hother
    refine run_getSubscriberId_unknown ht hnumbers (fun sId hsId => ?_)
    rw [CString.read_of_length (show subNbr.chars.length = 15 from hlength)]
    exact hother sId hsId

end ImdbD.Benchmark.TATP
