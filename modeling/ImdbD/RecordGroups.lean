import ImdbD.TableStorage
import ImdbD.TableLoad

/-!
# Groups of records and tables without keys

Some transactions select all records that a secondary index lists under one key,
and some tables have no primary columns, so that their records lie in the slots
and no index leads to them. Tables of slots follow a store of records in these
calls too, and an address that a selection has returned stays good while other
records are updated or deleted.
-/
namespace ImdbD.StorageEngine
open ByteMemory AtomicProgram KeyedStore

/-- The calls of a storage manager, with the selection of all records of a group. -/
structure RecordsManager {ι : Type} (L : ι → TableLayout) (σ : Type) extends
    StorageManager L σ where
  selectRecords : ∀ id, List (ℕ × Bytes) → Program σ (List (Found id))

/-- The schema has no primary columns. -/
def TableLayout.Keyless (L : TableLayout) : Prop := L.schema.schema.primaryColNum = 0

/-- A table without any index. -/
structure TableLayout.Plain (L : TableLayout) : Prop where
  keyless : L.Keyless
  index : L.indexCols = none
  fits : L.schema.schema.getSchemaSize + kRecordHeaderSize ≤ kBlockSize

namespace RecordStore
variable {ι : Type} {L : ι → TableLayout} {id : ι} {params : List (ℕ × Bytes)}

/-- The keys of the records of a group. A selection that would scan is not made. -/
def searchAll (s : RecordStore L) (id : ι) (params : List (ℕ × Bytes)) : Option (List Bytes) :=
  if (L id).indexCols = some (params.map Prod.fst) then
    some (s.groups id (predicateKey (L id).schema params))
  else none

variable [DecidableEq ι]

abbrev recordsManager (L : ι → TableLayout) : RecordsManager L (RecordStore L) where
  toStorageManager := manager L
  selectRecords id params := .atomic (fun s => (s.searchAll id params).map (fun rs => (rs, s)))

variable {s s' : RecordStore L}

theorem run_selectRecords (hi : (L id).indexCols = some (params.map Prod.fst)) :
    ((recordsManager L).selectRecords id params).run s =
      some (s.groups id (predicateKey (L id).schema params), s) := by
  refine (Program.run_atomic _ s).trans ?_
  rw [searchAll, if_pos hi, Option.map_some]

/-- A record without a key is appended. -/
theorem run_insertRecord_append {r : Record (L id).schema} (hk : r.primaryKey = none) :
    ((manager L).insertRecord id r).run s = some ((), s.append id r) :=
  KeyedStore.run_insertRecord_heap (C := recordCatalog L) hk

private theorem heap_of_insertRecord {r : Record (L id).schema} {k : Bytes} (hk : r.primaryKey = some k)
    (h : ((manager L).insertRecord id r).run s = some ((), s')) : s'.heap = s.heap := by
  obtain ⟨-, rfl⟩ := run_insertRecord_enter hk h
  rw [Store.heap_enter, Store.heap_setRow]

private theorem heap_of_updateRecord {k : (manager L).Found id}
    (h : ((manager L).updateRecord k params).run s = some ((), s')) : s'.heap = s.heap := by
  have hupdate := (Program.run_atomic _ s).symm.trans h
  simp only [if_true] at hupdate
  obtain ⟨r, -, he⟩ := Option.map_eq_some_iff.mp hupdate
  cases he
  rfl

private theorem heap_of_deleteRecord {k : (manager L).Found id}
    (h : ((manager L).deleteRecord k).run s = some ((), s')) : s'.heap = s.heap := by
  have hdelete := (Program.run_atomic _ s).symm.trans h
  simp only [if_true] at hdelete
  obtain ⟨r, -, he⟩ := Option.map_eq_some_iff.mp hdelete
  cases he
  rw [Store.heap_leave, Store.heap_eraseRow]

end RecordStore

namespace Holds
variable {L : TableLayout} {s : Session} {row : Bytes → Option (Record L.schema)}
  {groups : Bytes → List Bytes} {params : ColumnPredicates}

theorem selectRecords (h : Holds L s row groups) (hv : params.Valid L.schema.schema)
    (hi : L.indexCols = some params.columnIds) :
    ∃ records, s.table.selectRecordsColumns params = some records ∧
      List.Forall₂ s.table.Located records.dataPtrs
        (groups (params.getPredicateDataSymbol L.schema.schema)) := by
  have hsecondary := h.secondary
  rw [SecondaryHolds, hi] at hsecondary
  obtain ⟨index, hindex, hgroups⟩ := hsecondary
  rw [← h.schema] at hv ⊢
  have hlookup : s.table.secondaryIndex params.getPredicateColumnSymbol = some index := by
    rw [SchemaTable.secondaryIndex, hindex, ColumnPredicates.getPredicateColumnSymbol]
    simp
  refine ⟨⟨index.searchRecords (params.getPredicateDataSymbol s.table.schema),
    (index.searchRecords (params.getPredicateDataSymbol s.table.schema)).length⟩, ?_, hgroups _⟩
  rw [SchemaTable.selectRecordsColumns, hlookup]
  exact if_pos hv

end Holds

private theorem Grew.new_plain {L : TableLayout} (hL : L.Plain) :
    Grew L (Session.new L.schema.schema L.indexCols.toList) [] where
  grown := .new L.schema.built.layout (fun cols hcols => by rw [hL.index] at hcols; cases hcols)
    hL.fits
  frame := ⟨rfl, rfl, rfl, rfl⟩
  rows := rfl

private theorem SchemaTable.primaryIndex_updateRecordColumns {table table' : SchemaTable} {a : Ptr}
    {params : ColumnPredicates} (h : table.updateRecordColumns a params = some table') :
    table'.primaryIndex = table.primaryIndex := by
  obtain ⟨entries⟩ := params
  induction entries generalizing table with
  | nil =>
    cases h
    rfl
  | cons e entries ih =>
    obtain ⟨next, hnext, hrest⟩ := Option.bind_eq_some_iff.mp h
    refine (ih hrest).trans ?_
    simp only [SchemaTable.updateRecordColumn] at hnext
    split at hnext
    · obtain ⟨base, -, rfl⟩ := Option.map_eq_some_iff.mp hnext
      rfl
    · cases hnext

namespace SchemaTables
variable {ι : Type} [DecidableEq ι] {L : ι → TableLayout} {used : ι → Prop} {t t' : SchemaTables ι}
  {s : RecordStore L} {id id' : ι} {params : List (ℕ × Bytes)}

abbrev recordsManager (L : ι → TableLayout) : RecordsManager L (SchemaTables ι) where
  toStorageManager := manager L
  selectRecords id params := .atomic (look id (fun table =>
    (table.selectRecordsColumns ⟨params⟩).map Records.dataPtrs))

variable {a : (manager L).Found id} {k : (RecordStore.manager L).Found id}

theorem selectRecords_follows (h : Represents L used t s) (hused : used id)
    (hv : (ColumnPredicates.mk params).Valid (L id).schema.schema) :
    Program.Follows anyAnswers ((recordsManager L).selectRecords id params) t
      ((RecordStore.recordsManager L).selectRecords id params) s
      (fun r t' r' s' => t' = t ∧ s' = s ∧ List.Forall₂ (t.Located id) r r') := by
  obtain ⟨session, htable, hholds⟩ := h id hused
  refine .atomic (fun r' s' hrun => ?_)
  obtain ⟨found, hsearch, he⟩ := Option.map_eq_some_iff.mp hrun
  cases he
  unfold RecordStore.searchAll at hsearch
  split at hsearch
  · rename_i hi
    cases hsearch
    obtain ⟨records, hselect, hlocated⟩ := hholds.selectRecords hv hi
    refine ⟨records.dataPtrs, t, by simp [look, htable, hselect], ⟨rfl, rfl, ?_⟩, trivial⟩
    exact hlocated.imp (fun _ _ ha => ⟨_, htable, ha⟩)
  · cases hsearch

private theorem change_eq_some {f : SchemaTable → Option SchemaTable} {u : Unit}
    (h : change id f t = some (u, t')) : ∃ table table', t id = some table ∧ f table = some table' ∧
      t' = Function.update t id (some table') := by
  obtain ⟨table', hf, he⟩ := Option.map_eq_some_iff.mp h
  obtain ⟨table, htable, hf⟩ := Option.bind_eq_some_iff.mp hf
  cases he
  exact ⟨table, table', htable, hf, rfl⟩

theorem change_other {f : SchemaTable → Option SchemaTable} {u : Unit}
    (h : change id f t = some (u, t')) (hne : id' ≠ id) : t' id' = t id' := by
  obtain ⟨table, table', -, -, rfl⟩ := change_eq_some h
  exact Function.update_of_ne hne _ _

private theorem Located.of_updateRecord {b : Ptr} {key : Bytes} {u : Unit} (hb : t.Located id' b key)
    (h : ((manager L).updateRecord a params).run t = some (u, t')) : t'.Located id' b key := by
  obtain ⟨table, htable, hlocated⟩ := hb
  have hchange := (Program.run_atomic _ t).symm.trans h
  by_cases he : id' = id
  · subst he
    obtain ⟨old, table', hold, hupdate, rfl⟩ := change_eq_some hchange
    obtain rfl : table = old := Option.some.inj (htable.symm.trans hold)
    refine ⟨table', Function.update_self .., ?_⟩
    rw [SchemaTable.Located, SchemaTable.primaryIndex_updateRecordColumns hupdate]
    exact hlocated
  · exact ⟨table, (change_other hchange he).trans htable, hlocated⟩

private theorem Located.of_deleteRecord {b : Ptr} {key : Bytes} {u : Unit} (hb : t.Located id' b key)
    (hne : id' ≠ id) (h : ((manager L).deleteRecord a).run t = some (u, t')) :
    t'.Located id' b key := by
  obtain ⟨table, htable, hlocated⟩ := hb
  have hchange := (Program.run_atomic _ t).symm.trans h
  exact ⟨table, (change_other hchange hne).trans htable, hlocated⟩

/-- The tables in use hold all rows of the store, those without a key in the order of their
insertion. -/
structure RepresentsAll (L : ι → TableLayout) (used : ι → Prop) (t : SchemaTables ι)
    (s : RecordStore L) : Prop where
  keyed : Represents L (fun id => used id ∧ ¬(L id).Keyless) t s
  heaps : ∀ id, used id → (L id).Keyless → ∃ session : Session, t id = some session.table ∧
    Grew (L id) session ((s.heap id).map Record.data).reverse

/-- A newly registered table, while there are no rows yet. -/
theorem RepresentsAll.registerTable (h : RepresentsAll L used t .empty)
    (hL : (L id).Keyed ∨ (L id).Plain) :
    RepresentsAll L (fun id' => used id' ∨ id' = id) (SchemaTables.registerTable (L id) t id) .empty where
  keyed id' hused := by
    by_cases he : id' = id
    · subst he
      have hkeyed : (L id').Keyed := hL.resolve_right (fun hplain => hused.2 hplain.keyless)
      exact ⟨Session.new (L id').schema.schema (L id').indexCols.toList, Function.update_self .., .new hkeyed⟩
    · rw [SchemaTables.registerTable, Function.update_of_ne he]
      exact h.keyed id' ⟨hused.1.resolve_right he, hused.2⟩
  heaps id' hused hkeyless := by
    by_cases he : id' = id
    · subst he
      have hplain : (L id').Plain := hL.resolve_left (fun hkeyed => hkeyed.primary hkeyless)
      exact ⟨Session.new (L id').schema.schema (L id').indexCols.toList, Function.update_self ..,
        .new_plain hplain⟩
    · rw [SchemaTables.registerTable, Function.update_of_ne he]
      exact h.heaps id' (hused.resolve_right he) hkeyless

/-- Tables that are registered one after another. -/
theorem RepresentsAll.registerTables (hL : ∀ id, (L id).Keyed ∨ (L id).Plain) (ids : List ι) :
    RepresentsAll L (· ∈ ids) (ids.foldl (fun t id => SchemaTables.registerTable (L id) t id)
      (fun _ => none)) .empty :=
  registerTables_induct (R := fun used t => RepresentsAll L used t .empty)
    ⟨fun _ hused => hused.1.elim, fun _ hused => hused.elim⟩
    (fun _ _ id h => h.registerTable (hL id)) ids

omit [DecidableEq ι] in
/-- What a call on a table with a key leaves of the tables without. -/
theorem RepresentsAll.of_keyed (h : RepresentsAll L used t s) {s' : RecordStore L}
    (hkeyed : Represents L (fun id => used id ∧ ¬(L id).Keyless) t' s') (hkey : ¬(L id).Keyless)
    (hother : ∀ id', id' ≠ id → t' id' = t id') (hheap : s'.heap = s.heap) :
    RepresentsAll L used t' s' := by
  refine ⟨hkeyed, fun id' hused hkeyless => ?_⟩
  rw [hother id' (fun he => hkey (he ▸ hkeyless)), hheap]
  exact h.heaps id' hused hkeyless

namespace RepresentsAll
variable (h : RepresentsAll L used t s)
include h

theorem updateRecord (hL : (L id).Keyed) (hused : used id) (ha : t.Located id a k)
    (hv : (ColumnPredicates.mk params).Valid (L id).schema.schema)
    (hprimary : ∀ c ∈ params.map Prod.fst, c ∉ (L id).schema.schema.primaryCols) :
    Program.Follows anyAnswers ((manager L).updateRecord a params) t
      ((RecordStore.manager L).updateRecord k params) s (fun _ t' _ s' => RepresentsAll L used t' s' ∧
        ∀ id' b key, t.Located id' b key → t'.Located id' b key) := by
  have hkeyed := updateRecord_follows h.keyed hL ⟨hused, hL.primary⟩ ha hv hprimary
  have hboth := (hkeyed.and_left (P := fun _ t' => (∀ id', id' ≠ id → t' id' = t id') ∧
      ∀ id' b key, t.Located id' b key → t'.Located id' b key) (fun _ t' hrun => ?_)).and_right
    (P := fun _ s' => s'.heap = s.heap) (fun _ _ hrun => RecordStore.heap_of_updateRecord hrun)
  · refine hboth.mono (fun _ t' _ s' hq => ?_)
    obtain ⟨⟨hrep, hother, hlocated⟩, hheap⟩ := hq
    exact ⟨h.of_keyed hrep hL.primary hother hheap, hlocated⟩
  · exact ⟨fun id' => change_other ((Program.run_atomic _ t).symm.trans hrun),
      fun id' b key hb => hb.of_updateRecord hrun⟩

theorem deleteRecord (hL : (L id).Keyed) (hused : used id) (ha : t.Located id a k)
    (hi : (L id).indexCols = none) :
    Program.Follows anyAnswers ((manager L).deleteRecord a) t
      ((RecordStore.manager L).deleteRecord k) s (fun _ t' _ s' => RepresentsAll L used t' s' ∧
        ∀ id' b key, id' ≠ id → t.Located id' b key → t'.Located id' b key) := by
  have hkeyed := deleteRecord_follows h.keyed ⟨hused, hL.primary⟩ ha hi
  have hboth := (hkeyed.and_left (P := fun _ t' => (∀ id', id' ≠ id → t' id' = t id') ∧
      ∀ id' b key, id' ≠ id → t.Located id' b key → t'.Located id' b key) (fun _ t' hrun => ?_)).and_right
    (P := fun _ s' => s'.heap = s.heap) (fun _ _ hrun => RecordStore.heap_of_deleteRecord hrun)
  · refine hboth.mono (fun _ t' _ s' hq => ?_)
    obtain ⟨⟨hrep, hother, hlocated⟩, hheap⟩ := hq
    exact ⟨h.of_keyed hrep hL.primary hother hheap, hlocated⟩
  · exact ⟨fun id' => change_other ((Program.run_atomic _ t).symm.trans hrun),
      fun id' b key hne hb => hb.of_deleteRecord hne hrun⟩

theorem insertRecord (hL : (L id).Keyed) (hused : used id) (r : Record (L id).schema) :
    Program.Follows anyAnswers ((manager L).insertRecord id r) t
      ((RecordStore.manager L).insertRecord id r) s
      (fun _ t' _ s' => RepresentsAll L used t' s') := by
  have hkeyed := insertRecord_follows h.keyed hL ⟨hused, hL.primary⟩ r
  have hboth := (hkeyed.and_left (P := fun _ t' => ∀ id', id' ≠ id → t' id' = t id')
      (fun _ t' hrun => ?_)).and_right (P := fun _ s' => s'.heap = s.heap)
    (fun _ _ hrun => RecordStore.heap_of_insertRecord (r.primaryKey_eq_symbol hL.primary) hrun)
  · refine hboth.mono (fun _ t' _ s' hq => ?_)
    obtain ⟨⟨hrep, hother⟩, hheap⟩ := hq
    exact h.of_keyed hrep hL.primary hother hheap
  · have hchange := (Program.run_atomic _ t).symm.trans hrun
    exact fun id' hne => change_other hchange hne

theorem insertRecord_keyless (hk : (L id).Keyless) (hused : used id) (r : Record (L id).schema) :
    Program.Follows anyAnswers ((manager L).insertRecord id r) t
      ((RecordStore.manager L).insertRecord id r) s
      (fun _ t' _ s' => RepresentsAll L used t' s') := by
  obtain ⟨session, htable, hgrew⟩ := h.heaps id hused hk
  obtain ⟨session', hinsert, hgrew'⟩ := hgrew.insertRecord r
  refine .atomic (fun _ s' hrun => ?_)
  have happend : ((RecordStore.manager L).insertRecord id r).run s = some ((), s.append id r) :=
    RecordStore.run_insertRecord_append (if_pos hk)
  obtain rfl : s.append id r = s' := by
    have hstore := (Program.run_atomic _ s).symm.trans happend
    rw [hrun] at hstore
    cases hstore
    rfl
  refine ⟨(), Function.update t id (some session'.table),
    by rw [change, htable, Option.bind_some, hinsert]; rfl, ⟨fun id' hid' => ?_, fun id' hused' hk' => ?_⟩,
    trivial⟩
  · have hne : id' ≠ id := by
      rintro rfl
      exact hid'.2 hk
    rw [Function.update_of_ne hne]
    exact h.keyed id' hid'
  · by_cases he : id' = id
    · subst he
      refine ⟨session', Function.update_self .., ?_⟩
      rw [Store.heap_append_self, List.map_append, List.reverse_append]
      exact hgrew'
    · rw [Function.update_of_ne he, Store.heap_append_other s r he]
      exact h.heaps id' hused' hk'

end RepresentsAll
end SchemaTables
end ImdbD.StorageEngine
