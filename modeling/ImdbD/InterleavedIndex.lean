import ImdbD.SecondaryIndexSearch
import ImdbD.Lists

/-!
# Interleaved insertions and deletions of one table

An insertion first stores its record and then enters its key; a deletion first
gives its slot back and then reads the key to erase from that slot. The steps of
any number of insertions and deletions are run in any order. The primary index
is exact whenever nothing is pending, as long as no insertion takes a slot whose
deletion has not yet erased its key.
-/
namespace ImdbD.StorageEngine
open ByteMemory GuardedRun

/-- Records are kept with their slots: those stored but not yet indexed, the live ones, and those
whose slot is given back but whose key is not yet erased. -/
structure IndexRace where
  table : SchemaTable
  inserting : List (Ptr × Bytes)
  live : List (Ptr × Bytes)
  deleting : List (Ptr × Bytes)

/-- The steps; a number stands for the operation or record at that place of its list. -/
inductive IndexStep where
  | beginInsert (data : Bytes)
  | endInsert (i : ℕ)
  | beginDelete (i : ℕ)
  | endDelete (i : ℕ)

namespace IndexRace

def new (schema : Schema) (indexes : List (List ℕ)) : IndexRace :=
  ⟨SchemaTable.new schema indexes, [], [], []⟩

def step (s : IndexRace) : IndexStep → Option IndexRace
  | .beginInsert data => (s.table.base.insertRecord data).map (fun r =>
    ⟨{ s.table with base := r.1 }, (r.2.sub kRecordHeaderSize, data) :: s.inserting, s.live,
      s.deleting⟩)
  | .endInsert i => s.inserting[i]?.bind (fun r =>
    (s.table.insertIndexes r.2 (r.1.add kRecordHeaderSize)).map (fun t =>
      ⟨t, s.inserting.eraseIdx i, r :: s.live, s.deleting⟩))
  | .beginDelete i => s.live[i]?.bind (fun r =>
    (s.table.base.deleteRecord (r.1.add kRecordHeaderSize)).map (fun base =>
      ⟨{ s.table with base := base }, s.inserting, s.live.eraseIdx i, r :: s.deleting⟩))
  | .endDelete i => s.deleting[i]?.bind (fun r =>
    (s.table.deleteIndexes (r.1.add kRecordHeaderSize)).map (fun t =>
      ⟨t, s.inserting, s.live, s.deleting.eraseIdx i⟩))

/-- All records that the table or a pending operation knows. -/
def all (s : IndexRace) : List (Ptr × Bytes) := s.inserting ++ s.live ++ s.deleting

def key (s : IndexRace) (r : Ptr × Bytes) : Bytes := s.table.schema.getPrimaryKeySymbol r.2

/-- Inserted keys are those of no live or pending record; every other step belongs to a pending
operation, or begins the deletion of a live record. -/
def Client (s : IndexRace) : IndexStep → Prop
  | .beginInsert data => data.length = s.table.schema.getSchemaSize ∧
    ∀ r ∈ s.all, s.key r ≠ s.table.schema.getPrimaryKeySymbol data
  | .endInsert i => i < s.inserting.length
  | .beginDelete i => i < s.live.length
  | .endDelete i => i < s.deleting.length

instance (s : IndexRace) (op : IndexStep) : Decidable (s.Client op) :=
  match op with
  | .beginInsert _ => inferInstanceAs (Decidable (_ ∧ _))
  | .endInsert _ => inferInstanceAs (Decidable (_ < _))
  | .beginDelete _ => inferInstanceAs (Decidable (_ < _))
  | .endDelete _ => inferInstanceAs (Decidable (_ < _))

/-- The primary index maps exactly the keys of the live records, each to the slot that holds it. -/
structure IndexExact (s : IndexRace) : Prop where
  entries : ∀ index, s.table.primaryIndex = some index → ∀ key address,
    index.searchRecord key = some address ↔
      ∃ r ∈ s.live, s.key r = key ∧ r.1.add kRecordHeaderSize = address
  stored : ∀ r ∈ s.live, s.table.base.recordAt (r.1.add kRecordHeaderSize) = r.2

def QuiescentExact (s : IndexRace) : Prop := s.inserting = [] → s.deleting = [] → s.IndexExact

/-- An insertion fits a block, and the free slot that it is about to take, if any, is not one whose
deletion is still pending. -/
def TakesSettledSlot (s : IndexRace) : IndexStep → Prop
  | .beginInsert _ => s.table.base.recordFullSize ≤ kBlockSize ∧
    (s.table.base.allocatedRecordCount ≠ s.table.base.occupiedRecordCount →
      ∀ p ∈ s.table.base.freeList.head?, ∀ r ∈ s.deleting, r.1 ≠ p)
  | _ => True

instance (s : IndexRace) (op : IndexStep) : Decidable (s.TakesSettledSlot op) :=
  match op with
  | .beginInsert _ => inferInstanceAs (Decidable (_ ∧ (_ → _)))
  | .endInsert _ => isTrue trivial
  | .beginDelete _ => isTrue trivial
  | .endDelete _ => isTrue trivial

/-- What holds at every interleaving point. -/
private structure Inv (s : IndexRace) : Prop where
  sound : Session.Sound s.table
  heap : s.table.base.Heap ((s.inserting ++ s.live).map Prod.fst)
  stored : ∀ r ∈ s.all, s.table.base.recordAt (r.1.add kRecordHeaderSize) = r.2
  parked : ∀ r ∈ s.deleting, r.1 ∈ s.table.base.freeList
  keys : (s.all.map s.key).Nodup
  index : ∀ index, s.table.primaryIndex = some index → ∀ key address,
    index.searchRecord key = some address ↔
      ∃ r ∈ s.live ++ s.deleting, s.key r = key ∧ r.1.add kRecordHeaderSize = address

variable {s s' : IndexRace} {i : ℕ} {data : Bytes} {r : Ptr × Bytes}

private theorem Inv.quiescentExact (h : Inv s) : s.QuiescentExact := by
  intro hi hd
  refine ⟨?_, fun r hr => h.stored r (by simp [all, hr])⟩
  intro index hindex key address
  rw [h.index index hindex, hd, List.append_nil]

private theorem Inv.beginInsert (h : Inv s) (hv : s.Client (.beginInsert data))
    (hc : s.TakesSettledSlot (.beginInsert data)) :
    ∃ s', s.step (.beginInsert data) = some s' ∧ Inv s' := by
  obtain ⟨hd, hkey⟩ := hv
  have hlen : s.table.base.recordSize ≤ data.length := by rw [hd, h.sound.recordSize]
  obtain ⟨base, p, hi⟩ := h.heap.insertRecord hlen
  have hframe : Session.Frame s.table { s.table with base := base } := ⟨rfl, rfl, rfl, rfl⟩
  -- the slot taken is neither held nor one of a pending deletion
  have hold : ∀ r ∈ s.all, r.1 ≠ p ∧
      base.recordAt (r.1.add kRecordHeaderSize) = r.2 := by
    intro r hr
    have hslot : r.1 ∈ (s.inserting ++ s.live).map Prod.fst ∨ r.1 ∈ s.table.base.freeList := by
      rcases List.mem_append.mp hr with hm | hm
      · exact Or.inl (List.mem_map_of_mem hm)
      · exact Or.inr (h.parked r hm)
    have hne : r.1 ≠ p := by
      rintro rfl
      rcases List.mem_append.mp hr with hm | hm
      · exact hi.fresh (List.mem_map_of_mem hm)
      · obtain ⟨hcount, hhead⟩ := hi.recycled (h.parked r hm)
        exact hc.2 hcount _ hhead r hm rfl
    exact ⟨hne, (hi.kept hslot hne).trans (h.stored r hr)⟩
  refine ⟨⟨{ s.table with base := base }, (p, data) :: s.inserting, s.live, s.deleting⟩, ?_, ?_⟩
  · simp [step, hi.run]
  refine ⟨h.sound.of_frame hframe hi.recordSize, hi.heap, ?_, ?_, ?_, h.index⟩
  · intro r hr
    rcases List.mem_cons.mp hr with rfl | hr'
    · rw [hi.stored, List.take_of_length_le]
      rw [hd, h.sound.recordSize]
    · exact (hold r hr').2
  · intro r hr
    exact hi.parked _ (h.parked r hr) (hold r (List.mem_append_right _ hr)).1
  · refine List.nodup_cons.mpr ⟨?_, h.keys⟩
    intro hm
    obtain ⟨r, hr, he⟩ := List.mem_map.mp hm
    exact hkey r hr he

/-- Taking one record out of its list. -/
private theorem Inv.endInsert (h : Inv s) (hr : s.inserting[i]? = some r) :
    ∃ s', s.step (.endInsert i) = some s' ∧ Inv s' := by
  have hins := Lists.perm_cons_eraseIdx hr
  have hmove : (s.inserting.eraseIdx i ++ r :: s.live).Perm (s.inserting ++ s.live) :=
    List.perm_middle.trans (hins.symm.append_right _)
  have hall : (s.inserting.eraseIdx i ++ (r :: s.live) ++ s.deleting).Perm s.all :=
    hmove.append_right _
  have hrun := h.sound.insertIndexes s.table.base r.2 (r.1.add kRecordHeaderSize)
  have hframe : Session.Frame s.table { s.table with
      primaryIndex := s.table.primaryIndex.map (fun index => index.insertRecord
        (s.table.schema.getPrimaryKeySymbol r.2) (r.1.add kRecordHeaderSize))
      secondaryIndexes := s.table.secondaryIndexes.map (fun e => (e.1, e.2.insertRecord
        (s.table.schema.getKeySymbol r.2 (SchemaTable.indexCols e.1))
          (r.1.add kRecordHeaderSize))) } :=
    ⟨rfl, rfl, by simp, by simp [Function.comp_def]⟩
  refine ⟨_, by rw [step, hr, Option.bind_some, hrun, Option.map_some], ?_⟩
  refine ⟨h.sound.of_frame hframe rfl, h.heap.perm (hmove.symm.map _),
    fun q hq => h.stored q (hall.mem_iff.mp hq), h.parked,
    (hall.map s.key).nodup_iff.mpr h.keys, ?_⟩
  intro index' hindex' key address
  obtain ⟨index, hindex, rfl⟩ := Option.map_eq_some_iff.mp hindex'
  have hold := h.index index hindex
  have hr_all : r ∈ s.all := by simp [all, List.mem_of_getElem? hr]
  have hne : ∀ q ∈ s.live ++ s.deleting, s.key q ≠ s.key r := by
    have hnodup : ((r :: s.inserting.eraseIdx i ++ s.live ++ s.deleting).map s.key).Nodup :=
      (((hins.append_right _).append_right _).map s.key).nodup_iff.mp h.keys
    rw [List.cons_append, List.cons_append] at hnodup
    intro q hq he
    apply (List.nodup_cons.mp hnodup).1
    rw [List.append_assoc, List.map_append]
    exact List.mem_append_right _ (he ▸ List.mem_map_of_mem hq)
  have habsent : index.map (s.key r) = none := by
    rw [Option.eq_none_iff_forall_ne_some]
    intro a ha
    obtain ⟨q, hq, hk, -⟩ := (hold _ a).mp ha
    exact hne q hq hk
  simp only [TBBUniqueIndex.searchRecord] at hold ⊢
  change (index.insertRecord (s.key r) _).map key = some address ↔
    ∃ q ∈ r :: (s.live ++ s.deleting), s.key q = key ∧ _
  simp only [TBBUniqueIndex.insertRecord, List.exists_mem_cons_iff]
  by_cases hk : key = s.key r
  · subst hk
    simp only [if_pos, habsent, Option.getD_none, Option.some.injEq, true_and]
    refine ⟨Or.inl, fun ho => ho.resolve_right (fun hother => ?_)⟩
    obtain ⟨q, hq, he, -⟩ := hother
    exact hne q hq he
  · simp only [if_neg hk, hold]
    exact ⟨Or.inr, fun ho => ho.resolve_left (fun he => hk he.1.symm)⟩

private theorem Inv.beginDelete (h : Inv s) (hr : s.live[i]? = some r) :
    ∃ s', s.step (.beginDelete i) = some s' ∧ Inv s' := by
  have hlive := Lists.perm_cons_eraseIdx hr
  have hheld : r.1 ∈ (s.inserting ++ s.live).map Prod.fst :=
    List.mem_map_of_mem (List.mem_append_right _ (List.mem_of_getElem? hr))
  obtain ⟨base, hb, hsize, -, hfree, hheap, hkept⟩ := h.heap.deleteRecord hheld
  have hframe : Session.Frame s.table { s.table with base := base } := ⟨rfl, rfl, rfl, rfl⟩
  have hmove : (s.live.eraseIdx i ++ r :: s.deleting).Perm (s.live ++ s.deleting) :=
    List.perm_middle.trans (hlive.symm.append_right _)
  have hall : (s.inserting ++ s.live.eraseIdx i ++ (r :: s.deleting)).Perm s.all := by
    rw [all, List.append_assoc, List.append_assoc]
    exact hmove.append_left _
  refine ⟨⟨{ s.table with base := base }, s.inserting, s.live.eraseIdx i, r :: s.deleting⟩,
    by rw [step, hr, Option.bind_some, hb, Option.map_some], ?_⟩
  refine ⟨h.sound.of_frame hframe hsize, ?_, ?_, ?_, (hall.map s.key).nodup_iff.mpr h.keys, ?_⟩
  · apply hheap.perm
    have hcons : ((s.inserting ++ s.live).map Prod.fst).Perm
        (r.1 :: (s.inserting ++ s.live.eraseIdx i).map Prod.fst) :=
      ((hlive.append_left _).trans List.perm_middle).map Prod.fst
    have he := hcons.erase r.1
    rwa [List.erase_cons_head] at he
  · intro q hq
    have hq' := hall.mem_iff.mp hq
    have hslot : q.1 ∈ (s.inserting ++ s.live).map Prod.fst ∨ q.1 ∈ s.table.base.freeList := by
      rcases List.mem_append.mp hq' with hm | hm
      · exact Or.inl (List.mem_map_of_mem hm)
      · exact Or.inr (h.parked q hm)
    exact (hkept _ hslot).trans (h.stored q hq')
  · intro q hq
    change q.1 ∈ base.freeList
    rw [hfree]
    rcases List.mem_cons.mp hq with rfl | hq'
    · simp
    · exact List.mem_append_left _ (h.parked q hq')
  · intro index hindex key address
    rw [h.index index hindex]
    constructor
    · rintro ⟨q, hq, he⟩
      exact ⟨q, hmove.mem_iff.mpr hq, he⟩
    · rintro ⟨q, hq, he⟩
      exact ⟨q, hmove.mem_iff.mp hq, he⟩

private theorem Inv.endDelete (h : Inv s) (hr : s.deleting[i]? = some r) :
    ∃ s', s.step (.endDelete i) = some s' ∧ Inv s' := by
  have hdel := Lists.perm_cons_eraseIdx hr
  have hr_mem : r ∈ s.all := List.mem_append_right _ (List.mem_of_getElem? hr)
  have hread := h.stored r hr_mem
  have hall : s.all.Perm (r :: (s.inserting ++ s.live ++ s.deleting.eraseIdx i)) :=
    (hdel.append_left _).trans List.perm_middle
  have hsub : ∀ q ∈ s.inserting ++ s.live ++ s.deleting.eraseIdx i, q ∈ s.all :=
    fun q hq => hall.mem_iff.mpr (List.mem_cons_of_mem r hq)
  have hnodup := (hall.map s.key).nodup_iff.mp h.keys
  have hrun := h.sound.deleteIndexes s.table.base (r.1.add kRecordHeaderSize)
  rw [hread] at hrun
  have hframe : Session.Frame s.table { s.table with
      primaryIndex := s.table.primaryIndex.map (fun index => index.deleteRecord
        (s.table.schema.getPrimaryKeySymbol r.2))
      secondaryIndexes := s.table.secondaryIndexes.map (fun e => (e.1, e.2.deleteRecord
        (s.table.schema.getKeySymbol r.2 (SchemaTable.indexCols e.1)))) } :=
    ⟨rfl, rfl, by simp, by simp [Function.comp_def]⟩
  refine ⟨_, by rw [step, hr, Option.bind_some, hrun, Option.map_some], ?_⟩
  refine ⟨h.sound.of_frame hframe rfl, h.heap, fun q hq => h.stored q (hsub q hq),
    fun q hq => h.parked q (List.mem_of_mem_eraseIdx hq), (List.nodup_cons.mp hnodup).2, ?_⟩
  intro index' hindex' key address
  obtain ⟨index, hindex, rfl⟩ := Option.map_eq_some_iff.mp hindex'
  have hold := h.index index hindex
  have hmove : (s.live ++ s.deleting).Perm (r :: (s.live ++ s.deleting.eraseIdx i)) :=
    (hdel.append_left _).trans List.perm_middle
  have hne : ∀ q ∈ s.live ++ s.deleting.eraseIdx i, s.key q ≠ s.key r := by
    intro q hq he
    apply (List.nodup_cons.mp hnodup).1
    rw [List.append_assoc, List.map_append]
    exact List.mem_append_right _ (he ▸ List.mem_map_of_mem hq)
  simp only [TBBUniqueIndex.searchRecord] at hold ⊢
  change (index.deleteRecord (s.key r)).map key = some address ↔
    ∃ q ∈ s.live ++ s.deleting.eraseIdx i, s.key q = key ∧ _
  by_cases hk : key = s.key r
  · simp only [TBBUniqueIndex.deleteRecord, if_pos hk, reduceCtorEq, false_iff]
    rintro ⟨q, hq, he, -⟩
    exact hne q hq (he.trans hk)
  · simp only [TBBUniqueIndex.deleteRecord, if_neg hk, hold]
    constructor
    · rintro ⟨q, hq, he, ha⟩
      rcases List.mem_cons.mp (hmove.mem_iff.mp hq) with rfl | hq'
      · exact absurd he.symm hk
      · exact ⟨q, hq', he, ha⟩
    · rintro ⟨q, hq, he⟩
      exact ⟨q, hmove.mem_iff.mpr (List.mem_cons_of_mem r hq), he⟩

private theorem Inv.step (h : Inv s) {op : IndexStep} (hv : s.Client op)
    (hc : s.TakesSettledSlot op) : ∃ s', s.step op = some s' ∧ s'.QuiescentExact ∧ Inv s' := by
  have hnext : ∃ s', s.step op = some s' ∧ Inv s' := by
    cases op with
    | beginInsert data => exact h.beginInsert hv hc
    | endInsert i => exact h.endInsert (List.getElem?_eq_getElem hv)
    | beginDelete i => exact h.beginDelete (List.getElem?_eq_getElem hv)
    | endDelete i => exact h.endDelete (List.getElem?_eq_getElem hv)
  obtain ⟨s', hstep, hs'⟩ := hnext
  exact ⟨s', hstep, hs'.quiescentExact, hs'⟩

private theorem Inv.new {schema : Schema} (hs : schema.Layout) {indexes : List (List ℕ)}
    (hi : ∀ cols ∈ indexes, schema.ValidColumns cols)
    (hfit : schema.getSchemaSize + kRecordHeaderSize ≤ kBlockSize) :
    Inv (IndexRace.new schema indexes) where
  sound := Session.Sound.new hs hi
  heap := BaseTable.Heap.new _ hfit
  stored r hr := by cases hr
  parked r hr := by cases hr
  keys := List.nodup_nil
  index index hindex key address := by
    rw [Session.primaryExact_new schema indexes index hindex]
    simp [Session.new, IndexRace.new]

/-- In every interleaving whose insertions take no slot of a pending deletion, every step succeeds
and the primary index is exact whenever nothing is pending. -/
theorem quiescentExact_of_settled {schema : Schema} (hs : schema.Built) {indexes : List (List ℕ)}
    (hi : ∀ cols ∈ indexes, schema.ValidColumns cols) {ops : List IndexStep}
    (hv : Meets IndexRace.step Client (IndexRace.new schema indexes) ops)
    (hc : Meets IndexRace.step TakesSettledSlot (IndexRace.new schema indexes) ops) :
    Holds IndexRace.step (fun _ _ s' => s'.QuiescentExact) (IndexRace.new schema indexes) ops := by
  by_cases hfit : schema.getSchemaSize + kRecordHeaderSize ≤ kBlockSize
  · exact (hv.and hc).holds (fun s op hinv h => Inv.step hinv h.1 h.2) (Inv.new hs.layout hi hfit)
  · cases ops with
    | nil => trivial
    | cons op ops =>
      cases op with
      | beginInsert data => exact absurd hc.1.1 hfit
      | endInsert i => exact absurd hv.1 (Nat.not_lt_zero i)
      | beginDelete i => exact absurd hv.1 (Nat.not_lt_zero i)
      | endDelete i => exact absurd hv.1 (Nat.not_lt_zero i)

/-- A deletion runs between the two steps of one insertion and overlaps another. -/
theorem quiescentExact_overlap : Holds IndexRace.step (fun _ _ s' => s'.QuiescentExact)
    (IndexRace.new Session.groupSchema [])
    [.beginInsert [1, 7], .beginInsert [2, 7], .endInsert 1, .beginDelete 0, .endInsert 0,
      .endDelete 0, .beginInsert [3, 7], .endInsert 0] :=
  quiescentExact_of_settled Session.groupSchema_built (by decide) (by decide) (by decide)

/-- The second record is stored in the slot of the first before the key of the first is erased. -/
def reuseBeforeErase : List IndexStep :=
  [.beginInsert [1, 7], .endInsert 0, .beginDelete 0, .beginInsert [2, 7], .endDelete 0, .endInsert 0]

/-- The deletion reads the key of the second record from the slot, and the entry of the first record
stays. -/
theorem reuseBeforeErase_stale :
    Meets IndexRace.step Client (IndexRace.new Session.groupSchema []) reuseBeforeErase ∧
      ¬ Holds IndexRace.step (fun _ _ s' => s'.QuiescentExact)
        (IndexRace.new Session.groupSchema []) reuseBeforeErase := by
  refine ⟨by decide, fun h => ?_⟩
  obtain ⟨-, s', -, hrun, hexact⟩ := Holds.last (show Holds _ _ _
    ([IndexStep.beginInsert [1, 7], .endInsert 0, .beginDelete 0, .beginInsert [2, 7],
      .endDelete 0] ++ [IndexStep.endInsert 0]) from h)
  have hquiet : (run IndexRace.step (IndexRace.new Session.groupSchema []) reuseBeforeErase).map
      (fun s => (s.inserting, s.deleting)) = some ([], []) := by decide
  have hindexed : (run IndexRace.step (IndexRace.new Session.groupSchema []) reuseBeforeErase).map
      (fun s => (s.table.primaryIndex.map (fun index => index.searchRecord [1]),
        s.live.map s.key)) = some (some (some ⟨0, 8⟩), [[2]]) := by decide
  rw [show run IndexRace.step (IndexRace.new Session.groupSchema []) reuseBeforeErase = some s'
    from hrun] at hquiet hindexed
  simp only [Option.map_some, Option.some_inj, Prod.mk.injEq] at hquiet hindexed
  obtain ⟨hsearch, hkeys⟩ := hindexed
  obtain ⟨index, hindex, hstale⟩ := Option.map_eq_some_iff.mp hsearch
  obtain ⟨r, hr, hkey, -⟩ :=
    ((hexact hquiet.1 hquiet.2).entries index hindex [1] ⟨0, 8⟩).mp hstale
  have hmem : s'.key r ∈ s'.live.map s'.key := List.mem_map_of_mem hr
  rw [hkeys, hkey] at hmem
  exact absurd hmem (by decide)

end IndexRace
end ImdbD.StorageEngine
