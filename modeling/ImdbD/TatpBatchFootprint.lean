import ImdbD.TatpBatchProcessor
import ImdbD.RecordFootprint

/-!
# What the threads of a TATP batch touch

Every thread of the second round works on the rows of the subscribers in its
bucket and on its own tables. The lookups of the first round only read tables.
-/
namespace ImdbD.Benchmark.TATP
open ByteMemory StorageEngine AtomicProgram RecordStore KeyedStore

section Procedures
variable {K : Constants} {f : Footprint (RecordPlace layout)} {sId : Int32}
  {sfType startTime endTime : Int8}

private theorem getSubscriberId_within {subNbr : CString} (hrow : ∀ k, .row .subscriber k () ∈ f.touches)
    (hgroup : ∀ g, .group .subscriber g ∈ f.touches) :
    (getSubscriberId (manager layout) subNbr).Within (places layout) f := by
  have hcols : [1] ≠ TatpSchema.getSubscriberSchema.schema.primaryCols := by decide
  refine .bind (selectRecord_group_within hcols (hgroup _)) (fun record => ?_)
  cases record with
  | none => exact .pure _
  | some k => exact .bind (getColumn_within (hrow k)) (fun _ => .pure _)

theorem deleteCallForwardingRecord_within
    (h : .row (.callForwarding (K.offset sId)) (callForwardingKey sId sfType startTime) () ∈ f.writes) :
    (deleteCallForwardingRecord (manager layout) K sId sfType startTime).Within (places layout) f := by
  rw [← predicateKey_callForwarding] at h
  exact selectRecord_bind_within rfl (Or.inr h) (.pure ()) (deleteRecord_within h rfl)

private theorem getAccessInfo_within {aiType : Int8}
    (h : .row (.accessInfo (K.offset sId)) (typeKey sId aiType) () ∈ f.touches) :
    (getAccessInfo (manager layout) K sId aiType).Within (places layout) f := by
  rw [← predicateKey_accessInfo] at h
  exact .bind (selectRecord_within rfl h) (fun _ => .pure ())

theorem getSubscriberData_within (h : .row .subscriber (subscriberKey sId) () ∈ f.touches) :
    (getSubscriberData (manager layout) sId).Within (places layout) f := by
  rw [← predicateKey_subscriber] at h
  exact .bind (selectRecord_within rfl h) (fun _ => .pure ())

theorem getSpecialFacilitySFType_within
    (h : .group (.specialFacility (K.offset sId)) (int32Bytes sId) ∈ f.touches) :
    (getSpecialFacilitySFType (manager layout) K sId).Within (places layout) f := by
  have hcols : [0] ≠ TatpSchema.getSpecialFacilitySchema.schema.primaryCols := by decide
  rw [← predicateKey_specialFacility_sId] at h
  exact .bind (selectRecord_group_within hcols h) (fun _ => .pure ())

theorem insertCallForwardingRecord_within {memory : Memory} {numberx : CString}
    (h : .row (.callForwarding (K.offset sId)) (callForwardingKey sId sfType startTime) () ∈ f.writes) :
    (insertCallForwardingRecord (manager layout) K memory sId sfType startTime endTime numberx).Within
      (places layout) f := by
  have hkey := h
  rw [← predicateKey_callForwarding] at hkey
  refine selectRecord_bind_within rfl (Or.inr hkey) ?_ (.pure ())
  simp only [setColumns_fresh]
  exact insertRecord_within primaryKey_callForwardingRecord h (fun _ h => (nomatch h))

theorem updateSubscriberVLRLocation_within {vlrLocation : Int32}
    (h : .row .subscriber (subscriberKey sId) () ∈ f.writes) :
    (updateSubscriberVLRLocation (manager layout) sId vlrLocation).Within (places layout) f := by
  rw [← predicateKey_subscriber] at h
  exact selectRecord_bind_within rfl (Or.inr h) (.fetch_bind (fun _ h => (nomatch h)))
    (.fetch_bind (fun k hk => Option.some.inj hk ▸ updateRecord_within h))

theorem updateSubscriberBit1_within {bit1 : Int8}
    (h : .row .subscriber (subscriberKey sId) () ∈ f.writes) :
    (updateSubscriberBit1 (manager layout) sId bit1).Within (places layout) f := by
  rw [← predicateKey_subscriber] at h
  exact selectRecord_bind_within rfl (Or.inr h) (.pure ()) (updateRecord_within h)

theorem updateSpecialFacilityDataA_within {dataA : Int16}
    (h : .row (.specialFacility (K.offset sId)) (typeKey sId sfType) () ∈ f.writes) :
    (updateSpecialFacilityDataA (manager layout) K sId sfType dataA).Within (places layout) f := by
  rw [← predicateKey_specialFacility] at h
  exact selectRecord_bind_within rfl (Or.inr h) (.pure ()) (updateRecord_within h)

end Procedures

namespace TatpBatchProcessor

abbrev WorkPlace := (RecordPlace layout ⊕ (Lookup × ℕ)) ⊕ Call

abbrev workPlaces : Places Work WorkPlace :=
  ((places layout).prod (.vectors (fun _ : Lookup => Int32))).prod
    (.cells (fun call : Call => Option call.reading.Finding))

/-- The crew that makes a call. -/
def role : Reading → Role
  | .subscriberData => .gsdUlUsd
  | .specialFacility => .icfUsd
  | .deletedForwarding | .insertedForwarding => .dcfIcf

inductive Reads : Role × ℕ → WorkPlace → Prop
  | number {lookup t} (k : Bytes) : Reads (.sid lookup, t) (.inl (.inl (.row .subscriber k ())))
  | numbers {lookup t} (g : Bytes) : Reads (.sid lookup, t) (.inl (.inl (.group .subscriber g)))
  | sId {t} (lookup : Lookup) (i : ℕ) : Reads (.main, t) (.inl (.inr (lookup, i)))
  | accessInfo {t} (off : ℕ) (k : Bytes) :
      Reads (.gad, t) (.inl (.inl (.row (.accessInfo off) k ())))
  | specialFacilities {t} (off : ℕ) (g : Bytes) :
      Reads (.icfUsd, t) (.inl (.inl (.group (.specialFacility off) g)))

inductive Writes (K : Constants) : Role × ℕ → WorkPlace → Prop
  | resize {t} (lookup : Lookup) (i : ℕ) : Writes K (.main, t) (.inl (.inr (lookup, i)))
  | sId {t i} (lookup : Lookup) (h : i % K.kParallelism = t) :
      Writes K (.sid lookup, t) (.inl (.inr (lookup, i)))
  | callForwarding {t k sId sfType startTime} (off : ℕ) (h : bucket K sId = t)
      (hk : k = callForwardingKey sId sfType startTime) :
      Writes K (.dcfIcf, t) (.inl (.inl (.row (.callForwarding off) k ())))
  | subscriber {t k sId} (h : bucket K sId = t) (hk : k = subscriberKey sId) :
      Writes K (.gsdUlUsd, t) (.inl (.inl (.row .subscriber k ())))
  | specialFacility {t k sId sfType} (off : ℕ) (h : bucket K sId = t) (hk : k = typeKey sId sfType) :
      Writes K (.icfUsd, t) (.inl (.inl (.row (.specialFacility off) k ())))
  | note {r t} (call : Call) (hr : r = role call.reading) (h : bucket K call.sId = t) :
      Writes K (r, t) (.inr call)

def foot (K : Constants) (id : Role × ℕ) : Footprint WorkPlace :=
  ⟨{l | Reads id l}, {l | Writes K id l}⟩

variable {K : Constants} {id id' : Role × ℕ} {l : WorkPlace}

/-- Apart from the main thread, every place has one writer. -/
theorem Writes.unique (h : Writes K id l) (h' : Writes K id' l) (hid : id.1 ≠ .main)
    (hid' : id'.1 ≠ .main) : id = id' := by
  cases h with
  | resize => exact absurd rfl hid
  | sId lookup h =>
    cases h' with
    | resize => exact absurd rfl hid'
    | sId _ h' => rw [← h, h']
  | callForwarding off h hk =>
    cases h' with
    | callForwarding _ h' hk' =>
      obtain ⟨rfl, -⟩ := callForwardingKey_inj.mp (hk.symm.trans hk')
      rw [← h, h']
  | subscriber h hk =>
    cases h' with
    | subscriber h' hk' =>
      obtain rfl := subscriberKey_injective (hk.symm.trans hk')
      rw [← h, h']
  | specialFacility off h hk =>
    cases h' with
    | specialFacility _ h' hk' =>
      obtain ⟨rfl, -⟩ := typeKey_inj.mp (hk.symm.trans hk')
      rw [← h, h']
  | note call hr h =>
    cases h' with
    | note _ hr' h' => rw [hr, hr', ← h, h']

/-- The crews of the second round. -/
inductive Second : Role → Prop
  | dcfIcf : Second .dcfIcf
  | gsdUlUsd : Second .gsdUlUsd
  | icfUsd : Second .icfUsd

private theorem role_second (reading : Reading) : Second (role reading) := by
  cases reading <;> constructor

private theorem not_writes_gad {t : ℕ} : ¬ Writes K (.gad, t) l := by
  intro h
  cases h with
  | note call hr h =>
    have hsecond := role_second call.reading
    rw [← hr] at hsecond
    cases hsecond

/-- Threads that do not read what others write. -/
theorem independent (hne : id ≠ id') (hid : id.1 ≠ .main) (hid' : id'.1 ≠ .main)
    (hr : ∀ l, Writes K id l → ¬ Reads id' l) (hr' : ∀ l, Writes K id' l → ¬ Reads id l) :
    (foot K id).Independent (foot K id') := by
  refine ⟨Set.disjoint_left.mpr fun l h h' => ?_, Set.disjoint_left.mpr fun l h h' => ?_⟩
  · exact h'.elim (hr l h) (fun h' => hne (h.unique h' hid hid'))
  · exact h'.elim (hr' l h) (fun h' => hne (h'.unique h hid hid'))

theorem beside_gad (K : Constants) (r : Role) : Beside (foot K) r .gad := by
  refine fun t t' _ => ⟨Set.disjoint_left.mpr fun l h h' => ?_, Set.disjoint_left.mpr fun l h _ => ?_⟩
  · rcases h' with h' | h'
    · cases h'
      cases h
    · exact not_writes_gad h'
  · exact not_writes_gad h

/-- The lookups write different elements. -/
theorem beside_sid (K : Constants) (lookup lookup' : Lookup) :
    Beside (foot K) (.sid lookup) (.sid lookup') := by
  have hreads : ∀ {t t' lookup lookup' l}, Writes K (.sid lookup, t) l →
      ¬ Reads (.sid lookup', t') l := by
    intro t t' lookup lookup' l h h'
    cases h' <;> cases h
  exact fun t t' hne => independent hne nofun nofun (fun _ => hreads) (fun _ => hreads)

theorem beside_second (K : Constants) {r r' : Role} (h : Second r) (h' : Second r') :
    Beside (foot K) r r' := by
  have hreads : ∀ {t t' r r' l}, Second r' → Writes K (r, t) l → ¬ Reads (r', t') l := by
    intro t t' r r' l hr' hw hr
    cases hr' <;> cases hr
    cases hw
  have hmain : ∀ {r}, Second r → r ≠ .main := fun h => by cases h <;> nofun
  exact fun t t' hne => independent hne (hmain h) (hmain h') (fun _ => hreads h') (fun _ => hreads h)

/-- The tables in the footprint of a thread. -/
def tableFoot (K : Constants) (id : Role × ℕ) : Footprint (RecordPlace layout) :=
  ⟨{l | Reads id (.inl (.inl l))}, {l | Writes K id (.inl (.inl l))}⟩

theorem onTables_within {p : Program Tables Unit} (h : p.Within (places layout) (tableFoot K id)) :
    (onTables p).Within workPlaces (foot K id) := by
  have hfst : p.onFst.Within ((places layout).prod (.vectors (fun _ : Lookup => Int32)))
      ⟨{l | Reads id (.inl l)}, {l | Writes K id (.inl l)}⟩ := h.onFst (fun _ h => h) (fun _ h => h)
  exact hfst.onFst (fun _ h => h) (fun _ h => h)

theorem noted_within {call : Call} {look : Tables → call.reading.Finding}
    {p : Program Tables Unit} (h : p.Within (places layout) (tableFoot K id))
    (hlook : ∀ s t, (∀ l ∈ (tableFoot K id).touches, (places layout).Agree l s t) → look s = look t)
    (hcall : Writes K id (.inr call)) : (noted call look p).Within workPlaces (foot K id) := by
  have hfst : p.onFst.Within ((places layout).prod (.vectors (fun _ : Lookup => Int32)))
      ⟨{l | Reads id (.inl l)}, {l | Writes K id (.inl l)}⟩ := h.onFst (fun _ h => h) (fun _ h => h)
  exact hfst.noting (fun hagree => hlook _ _ (fun l hl => hagree (.inl l) hl)) (fun _ h => h)
    (fun _ h => h) hcall

theorem resize_within (batch : List EventTuple) :
    (resize batch).Within workPlaces (foot K (.main, 0)) := by
  refine ⟨fun {w a w'} hrun l hl => ?_, fun {w v a w'} hagree hrun => ?_⟩
  · cases hrun
    rcases l with (l | ⟨lookup, i⟩) | call
    · exact (places layout).refl
    · exact absurd (.resize lookup i) hl
    · exact rfl
  · cases hrun
    refine ⟨_, rfl, fun l hl => ?_⟩
    cases hl with
    | resize lookup i => rfl
    | note call hr h => exact hagree (.inr call) (Or.inr (.note call hr h))

theorem sidThread_within (batch : List EventTuple) (lookup : Lookup) {t : ℕ}
    (ht : t < K.kParallelism) :
    (sidThread K batch lookup t).Within workPlaces (foot K (.sid lookup, t)) := by
  have hbody : (Program.each (fun i => do
      let subNbr ← Program.fetch (subNbrs batch lookup)[i]?
      let sId ← Program.onFst (getSubscriberId (manager layout) subNbr)
      Program.onSnd (Program.writeAt (V := fun _ => Int32) lookup i sId))
      (stripe t K.kParallelism (subNbrs batch lookup).length)).Within
      ((places layout).prod (.vectors (fun _ : Lookup => Int32)))
      ⟨{l | Reads (.sid lookup, t) (.inl l)}, {l | Writes K (.sid lookup, t) (.inl l)}⟩ := by
    refine .each (fun i hi => .bind (.fetch _) (fun subNbr => .bind ?_ (fun sId => ?_)))
    · have hlookup : (getSubscriberId (manager layout) subNbr).Within (places layout)
          (tableFoot K (.sid lookup, t)) :=
        getSubscriberId_within (fun k => Or.inl (.number k)) (fun g => Or.inl (.numbers g))
      exact hlookup.onFst (fun _ h => h) (fun _ h => h)
    · have hi' : i % K.kParallelism = t := by
        obtain ⟨j, -, rfl⟩ := List.mem_range'.mp hi
        rw [Nat.add_mul_mod_self_left, Nat.mod_eq_of_lt ht]
      have hwrite : (Program.writeAt (V := fun _ : Lookup => Int32) lookup i sId).Within
          (.vectors (fun _ : Lookup => Int32)) ⟨∅, {(lookup, i)}⟩ :=
        Program.writeAt_within (Set.mem_singleton _)
      refine hwrite.onSnd (fun _ h => h.elim) (fun l hl => ?_)
      rw [Set.mem_singleton_iff.mp hl]
      exact .sId lookup hi'
  exact hbody.onFst (fun _ h => h) (fun _ h => h)

theorem gadThread_within (batch : List EventTuple) (t : ℕ) :
    (gadThread K batch t).Within workPlaces (foot K (.gad, t)) :=
  .each (fun _ _ => .bind (.fetch _) (fun _ =>
    onTables_within (getAccessInfo_within (Or.inl (.accessInfo _ _)))))

end TatpBatchProcessor
end ImdbD.Benchmark.TATP
