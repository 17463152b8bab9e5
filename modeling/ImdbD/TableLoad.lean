import ImdbD.SelectPaths
import ImdbD.RecordLoad

/-!
# Tables into which rows were only inserted

A client that only inserts never fails, whatever the keys of its rows are. Its
tables hold the inserted rows, repeated or not, and a scan comes by each of them.
-/
namespace ImdbD.StorageEngine
open ByteMemory AtomicProgram

/-- A table made for a layout, with the rows that were inserted, the last one first. -/
structure Grew (L : TableLayout) (s : Session) (rows : List Bytes) : Prop where
  grown : s.Grown
  frame : Session.Frame (SchemaTable.new L.schema.schema L.indexCols.toList) s.table
  rows : s.live.map s.bytes = rows

namespace Grew
variable {L : TableLayout} {s : Session} {rows : List Bytes}

theorem schema (h : Grew L s rows) : s.table.schema = L.schema.schema := h.frame.schema

theorem new (hL : L.Keyed) : Grew L (Session.new L.schema.schema L.indexCols.toList) [] where
  grown := .new L.schema.built.layout (fun cols hcols => hL.columns cols (by simpa using hcols))
    hL.fits
  frame := ⟨rfl, rfl, rfl, rfl⟩
  rows := rfl

/-- A scan comes by the inserted rows. -/
theorem records (h : Grew L s rows) : s.table.records.Perm rows := by
  have hscan := h.grown.good.heap.recordPtrs.map s.table.base.recordAt
  rw [List.map_map] at hscan
  exact hscan.trans (.of_eq h.rows)

theorem insertRecord (h : Grew L s rows) (r : Record L.schema) :
    ∃ s', s.table.insertRecordOf L.schema.schema r.data = some s'.table ∧
      Grew L s' (r.data :: rows) := by
  obtain ⟨p, s', hstep, hins⟩ := Session.step_insertRecord h.grown.good
    (r.size.trans (congrArg Schema.getSchemaSize h.schema).symm)
  have htable : s.table.insertRecord r.data = some s'.table := by
    simp only [Session.step, Option.bind_eq_some_iff, Option.map_eq_some_iff] at hstep
    obtain ⟨-, -, table, htable, rfl⟩ := hstep
    exact htable
  have hkept : s.live.map s'.bytes = s.live.map s.bytes := List.map_congr_left hins.kept
  refine ⟨s', by rw [SchemaTable.insertRecordOf, if_pos h.schema, htable], h.grown.inserted hins,
    ⟨?_, ?_, ?_, ?_⟩, ?_⟩
  · exact hins.frame.schema.trans h.frame.schema
  · exact hins.frame.primarySymbol.trans h.frame.primarySymbol
  · exact hins.frame.primaryIndex.trans h.frame.primaryIndex
  · exact hins.frame.secondary.trans h.frame.secondary
  · rw [hins.live, List.map_cons, hins.bytes, hkept, h.rows]

end Grew

variable {ι : Type} [DecidableEq ι] {L : ι → TableLayout} {used : ι → Prop}

/-- The rows among the records that belong to one table, the last one first. -/
def rowsOf (records : List (Σ id, Record (L id).schema)) (id : ι) : List Bytes :=
  (records.filterMap (fun e => if e.1 = id then some e.2.data else none)).reverse

theorem mem_rowsOf {records : List (Σ id, Record (L id).schema)} {id : ι} {data : Bytes} :
    data ∈ rowsOf records id ↔ ∃ r : Record (L id).schema, ⟨id, r⟩ ∈ records ∧ r.data = data := by
  rw [rowsOf, List.mem_reverse, List.mem_filterMap]
  constructor
  · rintro ⟨⟨id', r⟩, hr, hdata⟩
    obtain ⟨rfl, hsome⟩ := Option.ite_none_right_eq_some.mp hdata
    exact ⟨r, hr, Option.some.inj hsome⟩
  · rintro ⟨r, hr, rfl⟩
    exact ⟨⟨id, r⟩, hr, if_pos rfl⟩

namespace SchemaTables
variable {t : SchemaTables ι} {records more : List (Σ id, Record (L id).schema)}

/-- The tables in use hold the records that were inserted. -/
def Filled (L : ι → TableLayout) (used : ι → Prop) (records : List (Σ id, Record (L id).schema))
    (t : SchemaTables ι) : Prop :=
  ∀ id, used id → ∃ s : Session, t id = some s.table ∧ Grew (L id) s (rowsOf records id)

theorem Filled.registerTable {id : ι} (h : Filled L used [] t) (hL : (L id).Keyed) :
    Filled L (fun id' => used id' ∨ id' = id) [] (registerTable (L id) t id) := by
  intro id' hused
  by_cases he : id' = id
  · subst he
    exact ⟨Session.new (L id').schema.schema (L id').indexCols.toList, Function.update_self ..,
      .new hL⟩
  · obtain ⟨s, htable, hgrew⟩ := h id' (hused.resolve_right he)
    exact ⟨s, by rw [SchemaTables.registerTable, Function.update_of_ne he, htable], hgrew⟩

theorem Filled.registerTables (hL : ∀ id, (L id).Keyed) (ids : List ι) :
    Filled L (· ∈ ids) [] (ids.foldl (fun t id => SchemaTables.registerTable (L id) t id)
      (fun _ => none)) :=
  registerTables_induct (R := fun used t => Filled L used [] t) (fun _ hused => hused.elim)
    (fun _ _ id h => h.registerTable (hL id)) ids

theorem Filled.insertRecord {id : ι} (h : Filled L used records t) (hused : used id)
    (r : Record (L id).schema) :
    ∃ t', ((manager L).insertRecord id r).run t = some ((), t') ∧
      Filled L used (records ++ [⟨id, r⟩]) t' := by
  obtain ⟨s, htable, hgrew⟩ := h id hused
  obtain ⟨s', hinsert, hgrew'⟩ := hgrew.insertRecord r
  refine ⟨Function.update t id (some s'.table), ?_, fun id' hused' => ?_⟩
  · rw [Program.run_atomic, change, htable, Option.bind_some, hinsert]
    rfl
  · by_cases he : id' = id
    · subst he
      refine ⟨s', Function.update_self .., ?_⟩
      simpa [rowsOf] using hgrew'
    · obtain ⟨s'', htable', hgrew''⟩ := h id' hused'
      refine ⟨s'', by rw [Function.update_of_ne he, htable'], ?_⟩
      simpa [rowsOf, Ne.symm he] using hgrew''

/-- Loading any records into registered tables. -/
theorem Filled.load (h : Filled L used records t) (hused : ∀ e ∈ more, used e.1) :
    ∃ t', (load (manager L) more).run t = some ((), t') ∧ Filled L used (records ++ more) t' := by
  induction more generalizing records t with
  | nil => exact ⟨t, rfl, by simpa using h⟩
  | cons e more ih =>
    obtain ⟨u, hrun, hu⟩ := h.insertRecord (hused e List.mem_cons_self) e.2
    obtain ⟨t', hrest, ht'⟩ := ih hu (fun e' he' => hused e' (List.mem_cons_of_mem _ he'))
    refine ⟨t', ?_, by simpa using ht'⟩
    rw [StorageEngine.load, Program.run_each_cons, hrun]
    exact hrest

/-- The values of a column in the rows of a table that have the given values in others. -/
def column (t : SchemaTables ι) (id : ι) (wanted : List (ℕ × Bytes)) (column : ℕ) : List Bytes :=
  match t id with
  | some table => table.records.filterMap (fun data =>
    if ∀ e ∈ wanted, table.schema.getColumn data e.1 = e.2 then
      some (table.schema.getColumn data column) else none)
  | none => []

theorem Filled.column (h : Filled L used records t) {id : ι} (hused : used id)
    (wanted : List (ℕ × Bytes)) (column : ℕ) :
    (t.column id wanted column).Perm (records.filterMap (fun e =>
      if e.1 = id then
        if ∀ w ∈ wanted, (L id).schema.schema.getColumn e.2.data w.1 = w.2 then
          some ((L id).schema.schema.getColumn e.2.data column) else none
      else none)) := by
  obtain ⟨s, htable, hgrew⟩ := h id hused
  rw [SchemaTables.column, htable]
  simp only [hgrew.schema]
  refine (hgrew.records.filterMap _).trans ((List.reverse_perm _).filterMap _ |>.trans (.of_eq ?_))
  rw [List.filterMap_filterMap]
  refine List.filterMap_congr (fun e _ => ?_)
  split
  · rfl
  · rfl

/-- Rows under distinct places have distinct keys in every table. -/
theorem Filled.nodup_keys (h : Filled L used records t) {id : ι} (hused : used id)
    (hnodup : (records.map RecordStore.place).Nodup) :
    ∃ table, t id = some table ∧ (table.records.map table.schema.getPrimaryKeySymbol).Nodup := by
  obtain ⟨s, htable, hgrew⟩ := h id hused
  refine ⟨s.table, htable, (hgrew.records.map _).nodup_iff.mpr ?_⟩
  rw [hgrew.schema, rowsOf, List.map_reverse, List.nodup_reverse, List.map_filterMap]
  have hplaces : records.filterMap (fun e => Option.map (L id).schema.schema.getPrimaryKeySymbol
      (if e.1 = id then some e.2.data else none)) =
      (records.map RecordStore.place).filterMap (fun p => if p.1 = id then some p.2 else none) := by
    rw [List.filterMap_map]
    refine List.filterMap_congr (fun e _ => ?_)
    obtain ⟨id', r⟩ := e
    by_cases he : id' = id
    · subst he
      simp [RecordStore.place]
    · simp [RecordStore.place, he]
  rw [hplaces]
  refine hnodup.filterMap (fun p p' k hp hp' => ?_)
  simp only [Option.mem_def, Option.ite_none_right_eq_some, Option.some.injEq] at hp hp'
  obtain ⟨hid, rfl⟩ := hp
  obtain ⟨hid', hk⟩ := hp'
  exact Sigma.ext (hid.trans hid'.symm) (heq_of_eq hk.symm)

end SchemaTables
end ImdbD.StorageEngine
