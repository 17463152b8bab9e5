import ImdbD.IndexContents
import Mathlib.Data.List.Forall2

/-!
# The order of equal keys

A `concurrent_unordered_multimap` leaves open in which order a traversal meets its
entries, those of one key included. Two tables have the same entries when they
differ in that order only. No operation tells such tables apart, so that a run in
which the order changes at will keeps the entries of the run in which it does not.
-/
namespace ImdbD.StorageEngine
open ByteMemory GuardedRun

namespace TBBMultiIndex
variable {i j : TBBMultiIndex} {key : Bytes}

/-- The same entries, whatever order they are met in. -/
def SameEntries (i j : TBBMultiIndex) : Prop := i.map.Perm j.map

theorem SameEntries.insertRecord (h : i.SameEntries j) (key : Bytes) (ptr : Ptr) :
    (i.insertRecord key ptr).SameEntries (j.insertRecord key ptr) :=
  h.cons _

theorem SameEntries.deleteRecord (h : i.SameEntries j) (key : Bytes) :
    (i.deleteRecord key).SameEntries (j.deleteRecord key) :=
  h.filter _

/-- The entries of one address first. -/
def foremost (i : TBBMultiIndex) (ptr : Ptr) : TBBMultiIndex :=
  ⟨i.map.filter (fun e => e.2 = ptr) ++ i.map.filter (fun e => ¬ e.2 = ptr)⟩

theorem sameEntries_foremost (i : TBBMultiIndex) (ptr : Ptr) : i.SameEntries (i.foremost ptr) := by
  have h := List.filter_append_perm (fun e : Bytes × Ptr => decide (e.2 = ptr)) i.map
  simpa [SameEntries, foremost] using h.symm

/-- Met first, a record of the key is the one that a search returns. -/
theorem searchRecord_foremost {ptr : Ptr} (h : (key, ptr) ∈ i.map) :
    (i.foremost ptr).searchRecord key = some ptr := by
  have hmem : (key, ptr) ∈ i.map.filter (fun e => e.2 = ptr) :=
    List.mem_filter.mpr ⟨h, by simp⟩
  rw [searchRecord, foremost, List.find?_append]
  cases hf : (i.map.filter (fun e => e.2 = ptr)).find? (fun e => e.1 = key) with
  | none =>
    have hnone := List.find?_eq_none.mp hf _ hmem
    simp at hnone
  | some e =>
    have he := (List.mem_filter.mp (List.mem_of_find?_eq_some hf)).2
    simpa using he

end TBBMultiIndex

namespace SchemaTable
variable {t u v : SchemaTable}

/-- The same table but for the order of the entries in its multi-indexes. -/
def SameEntries (t u : SchemaTable) : Prop :=
  ∃ indexes, List.Forall₂ (fun e e' => e.1 = e'.1 ∧ e.2.SameEntries e'.2) t.secondaryIndexes indexes ∧
    u = { t with secondaryIndexes := indexes }

theorem SameEntries.refl (t : SchemaTable) : t.SameEntries t :=
  ⟨_, List.forall₂_same.mpr (fun _ _ => ⟨rfl, List.Perm.refl _⟩), rfl⟩

theorem SameEntries.trans (h : t.SameEntries u) (h' : u.SameEntries v) : t.SameEntries v := by
  obtain ⟨l, hl, rfl⟩ := h
  obtain ⟨l', hl', rfl⟩ := h'
  refine ⟨l', ?_, rfl⟩
  rw [List.forall₂_iff_get] at hl hl' ⊢
  refine ⟨hl.1.trans hl'.1, fun n hn hn' => ?_⟩
  have hm := hl.2 n hn (hl.1 ▸ hn)
  have hm' := hl'.2 n (hl.1 ▸ hn) hn'
  exact ⟨hm.1.trans hm'.1, hm.2.trans hm'.2⟩

/-- The entries of one address first, in every multi-index. -/
def foremost (t : SchemaTable) (ptr : Ptr) : SchemaTable :=
  { t with secondaryIndexes := t.secondaryIndexes.map (fun e => (e.1, e.2.foremost ptr)) }

theorem sameEntries_foremost (t : SchemaTable) (ptr : Ptr) : t.SameEntries (t.foremost ptr) := by
  refine ⟨_, ?_, rfl⟩
  rw [List.forall₂_map_right_iff, List.forall₂_same]
  exact fun e _ => ⟨rfl, e.2.sameEntries_foremost ptr⟩

theorem secondaryIndex_foremost (t : SchemaTable) (ptr : Ptr) (symbol : Bytes) :
    (t.foremost ptr).secondaryIndex symbol =
      (t.secondaryIndex symbol).map (fun index => index.foremost ptr) := by
  simp only [secondaryIndex, foremost]
  induction t.secondaryIndexes with
  | nil => rfl
  | cons e es ih =>
    rw [List.map_cons, List.lookup_cons, List.lookup_cons, ih]
    split <;> rfl

private theorem SameEntries.forall₂ (h : t.SameEntries u) : List.Forall₂
    (fun e e' => e.1 = e'.1 ∧ e.2.SameEntries e'.2) t.secondaryIndexes u.secondaryIndexes := by
  obtain ⟨l, hl, rfl⟩ := h
  exact hl

private theorem SameEntries.symbols (h : t.SameEntries u) :
    u.secondaryIndexes.map Prod.fst = t.secondaryIndexes.map Prod.fst := by
  have hfst := h.forall₂.imp (fun _ _ he => he.1)
  rw [← List.forall₂_map_right_iff, ← List.forall₂_map_left_iff, List.forall₂_eq_eq_eq] at hfst
  exact hfst.symm

/-- An index of one table is, up to the order, an index of the other. -/
theorem SameEntries.of_mem (h : t.SameEntries u) {e : Bytes × TBBMultiIndex}
    (he : e ∈ u.secondaryIndexes) : ∃ e' ∈ t.secondaryIndexes, e'.1 = e.1 ∧ e'.2.SameEntries e.2 := by
  obtain ⟨n, hn, rfl⟩ := List.mem_iff_get.mp he
  obtain ⟨hlen, hget⟩ := List.forall₂_iff_get.mp h.forall₂
  have hn' : n.1 < t.secondaryIndexes.length := by
    rw [hlen]
    exact n.2
  exact ⟨_, List.get_mem _ ⟨n.1, hn'⟩, hget n.1 hn' n.2⟩

/-- Whatever index maintenance does to each index in the same way keeps the entries the same. -/
private theorem sameEntries_mapSecondary {f : TBBMultiIndex → Bytes → TBBMultiIndex}
    (hf : ∀ {i j : TBBMultiIndex}, i.SameEntries j → ∀ key, (f i key).SameEntries (f j key))
    {indexes : List (Bytes × TBBMultiIndex)} (h : List.Forall₂
      (fun e e' => e.1 = e'.1 ∧ e.2.SameEntries e'.2) t.secondaryIndexes indexes) (data : Bytes) :
    Option.Rel (List.Forall₂ (fun e e' => e.1 = e'.1 ∧ e.2.SameEntries e'.2))
      (t.mapSecondary data f) ({ t with secondaryIndexes := indexes }.mapSecondary data f) := by
  have hsymbols : indexes.map Prod.fst = t.secondaryIndexes.map Prod.fst :=
    SameEntries.symbols ⟨indexes, h, rfl⟩
  have hvalid : ∀ l : List (Bytes × TBBMultiIndex),
      (∀ e ∈ l, t.schema.ValidColumns (indexCols e.1)) ↔
        ∀ symbol ∈ l.map Prod.fst, t.schema.ValidColumns (indexCols symbol) :=
    fun l => (List.forall_mem_map
      (P := fun symbol => t.schema.ValidColumns (indexCols symbol))).symm
  simp only [mapSecondary, hvalid, hsymbols]
  split
  · refine .some ?_
    rw [List.forall₂_map_left_iff, List.forall₂_map_right_iff]
    refine h.imp (fun e e' he => ⟨he.1, ?_⟩)
    rw [he.1]
    exact hf he.2 _
  · exact .none

private theorem sameEntries_insertIndexes (h : t.SameEntries u) (data : Bytes) (address : Ptr) :
    Option.Rel SameEntries (t.insertIndexes data address) (u.insertIndexes data address) := by
  obtain ⟨l, hl, rfl⟩ := h
  have hm := sameEntries_mapSecondary (fun h key => h.insertRecord key address) hl data
  simp only [insertIndexes]
  generalize t.mapSecondary data (fun index key => index.insertRecord key address) = a at hm ⊢
  generalize { t with secondaryIndexes := l }.mapSecondary data
    (fun index key => index.insertRecord key address) = b at hm ⊢
  cases hm with
  | some hab => exact .some ⟨_, hab, rfl⟩
  | none => exact .none

private theorem sameEntries_deleteIndexes (h : t.SameEntries u) (record : Ptr) :
    Option.Rel SameEntries (t.deleteIndexes record) (u.deleteIndexes record) := by
  obtain ⟨l, hl, rfl⟩ := h
  have hm := sameEntries_mapSecondary (fun h key => h.deleteRecord key) hl (t.base.recordAt record)
  simp only [deleteIndexes]
  generalize t.mapSecondary (t.base.recordAt record) TBBMultiIndex.deleteRecord = a at hm ⊢
  generalize { t with secondaryIndexes := l }.mapSecondary (t.base.recordAt record)
    TBBMultiIndex.deleteRecord = b at hm ⊢
  cases hm with
  | some hab => exact .some ⟨_, hab, rfl⟩
  | none => exact .none

/-- The same table but for the base table, which is replaced in both. -/
private theorem SameEntries.withBase (h : t.SameEntries u) (base : BaseTable) :
    { t with base := base }.SameEntries { u with base := base } := by
  obtain ⟨l, hl, rfl⟩ := h
  exact ⟨l, hl, rfl⟩

theorem SameEntries.base_eq (h : t.SameEntries u) : u.base = t.base := by
  obtain ⟨l, hl, rfl⟩ := h
  rfl

theorem SameEntries.schema_eq (h : t.SameEntries u) : u.schema = t.schema := by
  obtain ⟨l, hl, rfl⟩ := h
  rfl

theorem SameEntries.primaryIndex_eq (h : t.SameEntries u) : u.primaryIndex = t.primaryIndex := by
  obtain ⟨l, hl, rfl⟩ := h
  rfl

theorem SameEntries.insertRecord (h : t.SameEntries u) (data : Bytes) :
    Option.Rel SameEntries (t.insertRecord data) (u.insertRecord data) := by
  rw [SchemaTable.insertRecord, SchemaTable.insertRecord, h.base_eq]
  cases t.base.insertRecord data with
  | none => exact .none
  | some r => exact sameEntries_insertIndexes (h.withBase r.1) data r.2

theorem SameEntries.insertRecordOf (h : t.SameEntries u) (recordSchema : Schema) (data : Bytes) :
    Option.Rel SameEntries (t.insertRecordOf recordSchema data)
      (u.insertRecordOf recordSchema data) := by
  rw [SchemaTable.insertRecordOf, SchemaTable.insertRecordOf, h.schema_eq]
  split
  · exact h.insertRecord data
  · exact .none

theorem SameEntries.deleteRecord (h : t.SameEntries u) (record : Ptr) :
    Option.Rel SameEntries (t.deleteRecord record) (u.deleteRecord record) := by
  rw [SchemaTable.deleteRecord, SchemaTable.deleteRecord, h.base_eq]
  cases t.base.deleteRecord record with
  | none => exact .none
  | some base => exact sameEntries_deleteIndexes (h.withBase base) record

theorem SameEntries.updateRecordColumn (h : t.SameEntries u) (record : Ptr)
    (param : ColumnPredicate) : Option.Rel SameEntries (t.updateRecordColumn record param)
      (u.updateRecordColumn record param) := by
  obtain ⟨l, hl, rfl⟩ := h
  simp only [SchemaTable.updateRecordColumn]
  split
  · cases t.base.store _ _ with
    | none => exact .none
    | some base => exact .some ⟨l, hl, rfl⟩
  · exact .none

theorem SameEntries.updateRecordColumns (h : t.SameEntries u) (record : Ptr)
    (params : ColumnPredicates) : Option.Rel SameEntries (t.updateRecordColumns record params)
      (u.updateRecordColumns record params) := by
  obtain ⟨es⟩ := params
  induction es generalizing t u with
  | nil => exact .some h
  | cons e es ih =>
    have hstep := h.updateRecordColumn record ⟨e.1, e.2⟩
    simp only [SchemaTable.updateRecordColumns, List.foldlM_cons, Option.bind_eq_bind]
    generalize t.updateRecordColumn record ⟨e.1, e.2⟩ = a at hstep ⊢
    generalize u.updateRecordColumn record ⟨e.1, e.2⟩ = b at hstep ⊢
    cases hstep with
    | some hab => exact ih hab
    | none => exact .none

theorem SameEntries.scanRecord_eq (h : t.SameEntries u) (params : ColumnPredicates) :
    u.scanRecord params = t.scanRecord params := by
  obtain ⟨l, hl, rfl⟩ := h
  rfl

theorem SameEntries.scanRecords_eq (h : t.SameEntries u) (params : ColumnPredicates) :
    u.scanRecords params = t.scanRecords params := by
  obtain ⟨l, hl, rfl⟩ := h
  rfl

end SchemaTable

namespace Session
variable {s s' t u : Session}

/-- The same session but for the order of the entries in the multi-indexes. -/
def SameEntries (s t : Session) : Prop := s.table.SameEntries t.table ∧ t.live = s.live

theorem SameEntries.refl (s : Session) : s.SameEntries s := ⟨.refl _, rfl⟩

theorem SameEntries.trans (h : s.SameEntries t) (h' : t.SameEntries u) : s.SameEntries u :=
  ⟨h.1.trans h'.1, h'.2.trans h.2⟩

theorem SameEntries.good (h : s.SameEntries t) (hs : Good s) : Good t := by
  obtain ⟨t, live⟩ := t
  obtain ⟨htable, rfl⟩ := h
  have hmem := fun e he => htable.of_mem (e := e) he
  obtain ⟨indexes, hindexes, rfl⟩ := htable
  refine ⟨⟨hs.sound.layout, hs.sound.recordSize, hs.sound.primary, hs.sound.primaryIndex,
    fun e he => ?_⟩, hs.heap⟩
  obtain ⟨e', he', hfst, -⟩ := hmem e he
  exact hfst ▸ hs.sound.secondary e' he'

theorem SameEntries.primaryExact (h : s.SameEntries t) (hx : s.PrimaryExact) : t.PrimaryExact := by
  obtain ⟨t, live⟩ := t
  obtain ⟨⟨indexes, hindexes, rfl⟩, rfl⟩ := h
  exact hx

theorem SameEntries.primaryAnswers (h : s.SameEntries t) (hx : s.PrimaryAnswers) :
    t.PrimaryAnswers := by
  obtain ⟨t, live⟩ := t
  obtain ⟨⟨indexes, hindexes, rfl⟩, rfl⟩ := h
  exact hx

theorem SameEntries.secondaryExact (h : s.SameEntries t) (hx : s.SecondaryExact) :
    t.SecondaryExact := by
  intro e he
  obtain ⟨e', he', hfst, hperm⟩ := h.1.of_mem he
  have hexact := hperm.symm.trans (hx e' he')
  obtain ⟨t, live⟩ := t
  obtain ⟨⟨indexes, hindexes, rfl⟩, rfl⟩ := h
  rw [hfst] at hexact
  exact hexact

theorem SameEntries.map_bytes (h : s.SameEntries t) : t.live.map t.bytes = s.live.map s.bytes := by
  obtain ⟨t, live⟩ := t
  obtain ⟨⟨indexes, hindexes, rfl⟩, rfl⟩ := h
  rfl

private theorem rel_map_live {a b : Option SchemaTable}
    (h : Option.Rel SchemaTable.SameEntries a b) (live : List Ptr) :
    Option.Rel SameEntries (a.map (fun t => ⟨t, live⟩)) (b.map (fun t => ⟨t, live⟩)) := by
  cases h with
  | some hab => exact .some ⟨hab, rfl⟩
  | none => exact .none

/-- No operation tells the orders apart. -/
theorem SameEntries.step (h : s.SameEntries t) (op : Op) :
    Option.Rel SameEntries (s.step op) (t.step op) := by
  obtain ⟨ht, hlive⟩ := h
  cases op with
  | insertRecord data =>
    simp only [Session.step, ht.base_eq, hlive]
    cases s.table.base.insertRecord data with
    | none => exact .none
    | some r => exact rel_map_live (ht.insertRecord data) _
  | insertRecordOf recordSchema data =>
    simp only [Session.step, ht.base_eq, hlive]
    cases s.table.base.insertRecord data with
    | none => exact .none
    | some r => exact rel_map_live (ht.insertRecordOf recordSchema data) _
  | deleteRecord i =>
    simp only [Session.step, hlive]
    cases s.live[i]? with
    | none => exact .none
    | some p => exact rel_map_live (ht.deleteRecord _) _
  | updateRecordColumn i param =>
    simp only [Session.step, hlive]
    cases s.live[i]? with
    | none => exact .none
    | some p => exact rel_map_live (ht.updateRecordColumn _ param) _
  | updateRecordColumns i params =>
    simp only [Session.step, hlive]
    cases s.live[i]? with
    | none => exact .none
    | some p => exact rel_map_live (ht.updateRecordColumns _ params) _
  | updateRecordsColumn is recordId param =>
    simp only [Session.step, slots, hlive]
    cases is.mapM (fun i => s.live[i]?) with
    | none => exact .none
    | some ps =>
      refine rel_map_live ?_ _
      simp only [SchemaTable.updateRecordsColumn]
      cases (ps.map (fun p => p.add kRecordHeaderSize))[recordId]? with
      | none => exact .none
      | some p => exact ht.updateRecordColumn p param
  | updateRecordsColumns is recordId params =>
    simp only [Session.step, slots, hlive]
    cases is.mapM (fun i => s.live[i]?) with
    | none => exact .none
    | some ps =>
      refine rel_map_live ?_ _
      simp only [SchemaTable.updateRecordsColumns]
      cases (ps.map (fun p => p.add kRecordHeaderSize))[recordId]? with
      | none => exact .none
      | some p => exact ht.updateRecordColumns p params

/-- A run after each of whose steps the entries may be met in another order. -/
inductive RunsReordered : Session → List Op → Session → Prop
  | nil (s : Session) : RunsReordered s [] s
  | cons {s s' t u : Session} {op : Op} {ops : List Op} (step : s.step op = some s')
      (order : s'.SameEntries t) (rest : RunsReordered t ops u) : RunsReordered s (op :: ops) u

/-- Whatever orders such a run goes through, it ends with the entries of the run of `step`. -/
theorem RunsReordered.run {ops : List Op} (h : RunsReordered t ops u) (hs : s.SameEntries t) :
    ∃ s', GuardedRun.run Session.step s ops = some s' ∧ s'.SameEntries u := by
  induction h generalizing s with
  | nil t => exact ⟨s, rfl, hs⟩
  | cons hstep order rest ih =>
    rename_i t t' _ _ op ops
    have hrel := hs.step op
    rw [hstep] at hrel
    generalize ha : s.step op = a at hrel
    cases hrel with
    | some hab =>
      obtain ⟨s', hrun, hsame⟩ := ih (hab.trans order)
      exact ⟨s', by rw [GuardedRun.run, ha]; exact hrun, hsame⟩

end Session
end ImdbD.StorageEngine
