import ImdbD.TableRecords
import ImdbD.LockstepRun

/-!
# A storage manager over tables of slots

The calls of the storage manager on tables with slots, blocks and indexes. They
follow the calls on a store of records: what the store finds, changes and
refuses is what these tables find and change.
-/
namespace ImdbD.StorageEngine
open ByteMemory AtomicProgram KeyedStore

/-- `schema_tables`. -/
abbrev SchemaTables (ι : Type) := ι → Option SchemaTable

namespace SchemaTables
variable {ι : Type}

/-- A call that looks at one table. -/
def look {α : Type} (id : ι) (f : SchemaTable → Option α) : Action (SchemaTables ι) α :=
  fun t => ((t id).bind f).map (fun a => (a, t))

variable [DecidableEq ι]

/-- A call that changes one table. -/
def change (id : ι) (f : SchemaTable → Option SchemaTable) : Action (SchemaTables ι) Unit :=
  fun t => ((t id).bind f).map (fun table => ((), Function.update t id (some table)))

/-- `registerTable`, with the schemas and the indexes of a layout. -/
def registerTable (L : TableLayout) (t : SchemaTables ι) (id : ι) : SchemaTables ι :=
  Function.update t id (some (SchemaTable.new L.schema.schema L.indexCols.toList))

/-- Records are referred to by their addresses. -/
abbrev manager (L : ι → TableLayout) : StorageManager L (SchemaTables ι) where
  Found _ := Ptr
  selectRecord id params := .atomic (look id (fun table => table.selectRecordColumns ⟨params⟩))
  getColumn {id} record column := .atomic (look id (fun table =>
    some (table.schema.getColumn (table.base.recordAt record) column)))
  insertRecord id r := .atomic (change id (fun table =>
    table.insertRecordOf (L id).schema.schema r.data))
  deleteRecord {id} record := .atomic (change id (fun table => table.deleteRecord record))
  updateRecord {id} record params := .atomic (change id (fun table =>
    table.updateRecordColumns record ⟨params⟩))

/-- The tables in use hold the rows of the store. -/
def Represents (L : ι → TableLayout) (used : ι → Prop) (t : SchemaTables ι) (s : RecordStore L) :
    Prop :=
  ∀ id, used id → ∃ session : Session, t id = some session.table ∧
    Holds (L id) session (s.row id) (s.groups id)

/-- What lies in the slots of the tables in use. -/
def Contain (L : ι → TableLayout) (used : ι → Prop) (t : SchemaTables ι) (s : RecordStore L) : Prop :=
  ∀ id, used id → ∃ table, t id = some table ∧ Contents (L id) table (s.row id)

/-- A key leads to an address. -/
def Located (t : SchemaTables ι) (id : ι) (address : Ptr) (key : Bytes) : Prop :=
  ∃ table, t id = some table ∧ table.Located address key

variable {L : ι → TableLayout} {used : ι → Prop} {t : SchemaTables ι} {s : RecordStore L} {id : ι}
  {a : (manager L).Found id} {k : (RecordStore.manager L).Found id} {params : List (ℕ × Bytes)}

/-- The answers of the two managers are not compared. -/
abbrev anyAnswers : Answer → Answer → Prop := fun _ _ => True

omit [DecidableEq ι] in
theorem Represents.contain (h : Represents L used t s) (hL : ∀ id, (L id).Keyed) :
    Contain L used t s := fun id hused => by
  obtain ⟨session, htable, hholds⟩ := h id hused
  exact ⟨session.table, htable, hholds.contents (hL id)⟩

/-- Changes of one table on both sides. -/
theorem Represents.update (h : Represents L used t s) {s' : RecordStore L} {session : Session}
    (hrow : ∀ id', id' ≠ id → s'.row id' = s.row id' ∧ s'.groups id' = s.groups id')
    (hid : Holds (L id) session (s'.row id) (s'.groups id)) :
    Represents L used (Function.update t id (some session.table)) s' := by
  intro id' hused
  by_cases he : id' = id
  · subst he
    exact ⟨session, Function.update_self .., hid⟩
  · obtain ⟨session', htable, hholds⟩ := h id' hused
    refine ⟨session', by rw [Function.update_of_ne he, htable], ?_⟩
    rw [(hrow id' he).1, (hrow id' he).2]
    exact hholds

theorem selectRecord_follows (h : Represents L used t s) (hL : (L id).Keyed) (hused : used id)
    (hv : (ColumnPredicates.mk params).Valid (L id).schema.schema) :
    Program.Follows anyAnswers ((manager L).selectRecord id params) t
      ((RecordStore.manager L).selectRecord id params) s
      (fun r t' r' s' => t' = t ∧ s' = s ∧ Option.Rel (t.Located id) r r') := by
  obtain ⟨session, htable, hholds⟩ := h id hused
  refine .atomic (fun r' s' hrun => ?_)
  obtain ⟨found, hsearch, he⟩ := Option.map_eq_some_iff.mp hrun
  cases he
  have hfound : ∃ r, session.table.selectRecordColumns ⟨params⟩ = some r ∧
      Option.Rel session.table.Located r r' := by
    unfold RecordStore.search at hsearch
    split at hsearch
    · rename_i hcols
      cases hsearch
      exact hholds.selectRecord hL hv hcols
    · rename_i hcols
      split at hsearch
      · rename_i hi
        cases hsearch
        exact hholds.selectRecord_group hv hcols hi
      · cases hsearch
  obtain ⟨r, hr, hrel⟩ := hfound
  refine ⟨r, t, by simp [look, htable, hr], ⟨rfl, rfl, ?_⟩, trivial⟩
  cases hrel with
  | none => exact .none
  | some hlocated => exact .some ⟨_, htable, hlocated⟩

theorem getColumn_follows (h : Represents L used t s) (hused : used id) (ha : t.Located id a k)
    (column : ℕ) : Program.Follows anyAnswers ((manager L).getColumn a column) t
      ((RecordStore.manager L).getColumn k column) s
      (fun b t' b' s' => b = b' ∧ t' = t ∧ s' = s) := by
  obtain ⟨session, htable, hholds⟩ := h id hused
  obtain ⟨table, htable', hlocated⟩ := ha
  obtain rfl : session.table = table := Option.some.inj (htable.symm.trans htable')
  obtain ⟨r, hr, hdata⟩ := hholds.recordAt_eq hlocated
  refine .atomic (fun b s' hrun => ?_)
  rw [hr] at hrun
  cases hrun
  refine ⟨_, t, by rw [look, htable]; rfl, ⟨?_, rfl, rfl⟩, trivial⟩
  rw [hdata, hholds.schema]
  rfl

theorem insertRecord_follows (h : Represents L used t s) (hL : (L id).Keyed) (hused : used id)
    (r : Record (L id).schema) :
    Program.Follows anyAnswers ((manager L).insertRecord id r) t
      ((RecordStore.manager L).insertRecord id r) s (fun _ t' _ s' => Represents L used t' s') := by
  obtain ⟨session, htable, hholds⟩ := h id hused
  obtain ⟨k, hk⟩ : ∃ k, r.primaryKey = some k := ⟨_, r.primaryKey_eq_symbol hL.primary⟩
  refine .atomic (fun _ s' hrun => ?_)
  obtain ⟨hnone, rfl⟩ := RecordStore.run_insertRecord_enter hk ((Program.run_atomic _ s).trans hrun)
  have hgroups : ∀ cols, (L id).indexCols = some cols → ∀ g, ((s.setRow id k r).enter id
      ((L id).indexCols.map (fun cols => (r.keySymbol cols, k)))).groups id g =
        if g = r.keySymbol cols then k :: s.groups id g else s.groups id g := fun cols hcols g => by
    rw [hcols, Option.map_some, Store.groups_enter_apply, Store.groups_setRow]
  have hrow : ∀ k', ((s.setRow id k r).enter id
      ((L id).indexCols.map (fun cols => (r.keySymbol cols, k)))).row id k' =
        if k' = k then some r else s.row id k' := fun k' => by
    rw [Store.row_enter, Store.row_setRow_apply]
  obtain ⟨session', hinsert, hholds'⟩ := hholds.insertRecord hk hL hnone hrow hgroups
  refine ⟨(), _, by rw [change, htable, Option.bind_some, hinsert]; rfl, ?_, trivial⟩
  refine h.update (fun id' he => ⟨?_, ?_⟩) hholds'
  · funext k'
    rw [Store.row_enter]
    exact Store.row_setRow_other s r he k'
  · funext g
    rw [Store.groups_enter_other _ he, Store.groups_setRow]

theorem deleteRecord_follows (h : Represents L used t s) (hused : used id) (ha : t.Located id a k)
    (hi : (L id).indexCols = none) :
    Program.Follows anyAnswers ((manager L).deleteRecord a) t
      ((RecordStore.manager L).deleteRecord k) s
      (fun _ t' _ s' => Represents L used t' s') := by
  obtain ⟨session, htable, hholds⟩ := h id hused
  obtain ⟨table, htable', hlocated⟩ := ha
  obtain rfl : session.table = table := Option.some.inj (htable.symm.trans htable')
  obtain ⟨r, hr, -⟩ := hholds.recordAt_eq hlocated
  refine .atomic (fun _ s' hrun => ?_)
  obtain rfl : s.eraseRow id k = s' := by
    have hstore := (Program.run_atomic _ s).symm.trans (RecordStore.run_deleteRecord hr hi)
    rw [hrun] at hstore
    cases hstore
    rfl
  obtain ⟨session', hdelete, hholds'⟩ := hholds.deleteRecord hlocated hi s.row_eraseRow_apply
  refine ⟨(), _, by rw [change, htable, Option.bind_some, hdelete]; rfl, ?_, trivial⟩
  refine h.update (fun id' he => ⟨?_, rfl⟩) hholds'
  funext k'
  exact Store.row_eraseRow_other s he k'

theorem updateRecord_follows (h : Represents L used t s) (hL : (L id).Keyed) (hused : used id)
    (ha : t.Located id a k) (hv : (ColumnPredicates.mk params).Valid (L id).schema.schema)
    (hprimary : ∀ c ∈ params.map Prod.fst, c ∉ (L id).schema.schema.primaryCols) :
    Program.Follows anyAnswers ((manager L).updateRecord a params) t
      ((RecordStore.manager L).updateRecord k params) s
      (fun _ t' _ s' => Represents L used t' s') := by
  obtain ⟨session, htable, hholds⟩ := h id hused
  obtain ⟨table, htable', hlocated⟩ := ha
  obtain rfl : session.table = table := Option.some.inj (htable.symm.trans htable')
  obtain ⟨r, hr, -⟩ := hholds.recordAt_eq hlocated
  refine .atomic (fun _ s' hrun => ?_)
  obtain rfl : s.setRow id k (r.setColumns params) = s' := by
    have hrecord : ((RecordStore.manager L).updateRecord k params).run s = _ :=
      RecordStore.run_updateRecord hr
    have hstore := (Program.run_atomic _ s).symm.trans hrecord
    rw [hrun] at hstore
    cases hstore
    rfl
  obtain ⟨session', hupdate, hholds'⟩ := hholds.updateRecord hL hlocated hv hprimary hr
    (s.row_setRow_apply _)
  refine ⟨(), _, by rw [change, htable, Option.bind_some, hupdate]; rfl, ?_, trivial⟩
  refine h.update (fun id' he => ⟨?_, rfl⟩) hholds'
  funext k'
  exact Store.row_setRow_other s _ he k'

/-- What holds without tables, and with one more table after each registration, holds after any
tables are registered one after another. -/
theorem registerTables_induct {R : (ι → Prop) → SchemaTables ι → Prop}
    (hnone : R (fun _ => False) (fun _ => none))
    (hregister : ∀ used t id, R used t → R (fun id' => used id' ∨ id' = id) (registerTable (L id) t id))
    (ids : List ι) :
    R (· ∈ ids) (ids.foldl (fun t id => registerTable (L id) t id) (fun _ => none)) := by
  have hfold : ∀ used t, R used t → R (fun id => used id ∨ id ∈ ids)
      (ids.foldl (fun t id => registerTable (L id) t id) t) := by
    induction ids with
    | nil => exact fun used t h => by simpa using h
    | cons id ids ih =>
      intro used t h
      have hnext := ih _ _ (hregister used t id h)
      simpa only [List.mem_cons, or_assoc, List.foldl_cons] using hnext
  have hall := hfold _ _ hnone
  simpa only [false_or] using hall

theorem Represents.registerTable (h : Represents L used t s) (hL : (L id).Keyed)
    (hrow : ∀ k, s.row id k = none) (hgroups : ∀ g, s.groups id g = []) :
    Represents L (fun id' => used id' ∨ id' = id) (registerTable (L id) t id) s := by
  intro id' hused
  by_cases he : id' = id
  · subst he
    refine ⟨Session.new (L id').schema.schema (L id').indexCols.toList, Function.update_self .., ?_⟩
    rw [funext hrow, funext hgroups]
    exact .new hL
  · obtain ⟨session, htable, hholds⟩ := h id' (hused.resolve_right he)
    exact ⟨session, by rw [SchemaTables.registerTable, Function.update_of_ne he, htable], hholds⟩

end SchemaTables
end ImdbD.StorageEngine
