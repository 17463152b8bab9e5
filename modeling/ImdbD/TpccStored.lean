import ImdbD.TpccShownRows

/-!
# The tables of TPC-C in a store of records of bytes

The store keeps every row under the bytes of its key, in a record that shows the
row. The numbers of the keys fit their columns, and so do those that a
transaction reads: the numbers of the orders lie below a bound.
-/
namespace ImdbD.Benchmark.TPCC
open ByteMemory StorageEngine AtomicProgram KeyedStore
open Program (Follows)
open SchemaTables (anyAnswers)

namespace RecordBytes

/-- What a transaction reads from a row can be read from its columns. -/
def RowFits (B : ℤ) : ∀ id, Row id → Prop
  | .district, r => -2 ^ 31 ≤ r.dNextOId ∧ r.dNextOId ≤ B
  | .districtNewOrder, r => -2 ^ 31 ≤ r.oId ∧ r.oId ≤ B
  | .newOrder _, r => r.oId < B
  | .order _, r => FitsInt r.oCId
  | .stock, r => FitsInt r.sQuantity ∧ ∀ column, PlainText (r.dist column)
  | .item, _ | .warehouse, _ | .customer, _ | .history, _ | .orderLine _, _ => True

/-- A row under its own key, with numbers that fit. -/
structure Fitting (B : ℤ) (id : TableId) (k : Key id) (row : Row id) : Prop where
  key : TPCC.primaryKey id row = some k
  fits : KeyFits id k
  row : RowFits B id row

theorem RowFits.mono {B B' : ℤ} {id : TableId} {row : Row id} (h : RowFits B id row) (hB : B ≤ B') :
    RowFits B' id row := by
  cases id with
  | district => exact ⟨h.1, h.2.trans hB⟩
  | districtNewOrder => exact ⟨h.1, h.2.trans hB⟩
  | newOrder _ => exact lt_of_lt_of_le h hB
  | _ => exact h

/-- The bytes of the number of an order. -/
abbrev groupBytes (g : ℤ × ℤ × ℤ) : Bytes := keyBytes (.newOrder 0) g

abbrev GroupFits (g : ℤ × ℤ × ℤ) : Prop := KeyFits (.newOrder 0) g

/-- The key of a line of an order. -/
abbrev lineKey (off : ℕ) (g : ℤ × ℤ × ℤ) (number : ℤ) : Key (.orderLine off) :=
  (g.1, g.2.1, g.2.2, number)

private theorem groupParams_mem {off : ℕ} {g : ℤ × ℤ × ℤ} (number : ℤ) {e : ℕ × Bytes}
    (he : e ∈ keyParams (.newOrder 0) g) : e ∈ keyParams (.orderLine off) (lineKey off g number) :=
  List.mem_of_mem_dropLast (l := keyParams (.orderLine off) (lineKey off g number)) he

theorem groupParams_sizes {off : ℕ} {g : ℤ × ℤ × ℤ} : ∀ e ∈ keyParams (.newOrder 0) g,
    e.1 < (layout (.orderLine off)).schema.schema.columnCount ∧
      e.2.length = (layout (.orderLine off)).schema.schema.getColumnSize e.1 := by
  intro e he
  have hsize := keyParams_sizes e (@groupParams_mem off g 0 e he)
  exact ⟨hsize.1, by rw [length_keyParams he, hsize.2]⟩

/-- The store of records holds the rows of the tables. -/
structure Stored (B : ℤ) (db : RecordStore layout) (s : Tables) : Prop where
  rows : ∀ id k, KeyFits id k → Option.Rel (fun r row => Shows id row r) (db.row id (keyBytes id k))
    (s.row id k)
  fitting : ∀ id k row, s.row id k = some row → Fitting B id k row
  only : ∀ id bs, (db.row id bs).isSome → ∃ k, KeyFits id k ∧ keyBytes id k = bs
  lines : ∀ off g, GroupFits g → db.groups (.orderLine off) (groupBytes g) =
    (s.groups (.orderLine off) g).map (fun number => keyBytes (.orderLine off) (lineKey off g number))
  numbers : ∀ off g number, number ∈ s.groups (.orderLine off) g →
    KeyFits (.orderLine off) (lineKey off g number)
  heap : List.Forall₂ (fun r row => Shows .history row r) (db.heap .history) (s.heap .history)

variable {B B' : ℤ} {db : RecordStore layout} {s : Tables} {id : TableId} {k : Key id} {row : Row id}
  {r : Record (layout id).schema}

namespace Stored

theorem empty : Stored B .empty .empty where
  rows _ _ _ := .none
  fitting _ _ _ h := nomatch h
  only _ _ h := nomatch h
  lines _ _ _ := rfl
  numbers _ _ _ h := nomatch h
  heap := .nil

theorem mono (h : Stored B db s) (hB : B ≤ B') : Stored B' db s where
  rows := h.rows
  fitting id k row hrow :=
    have hfit := h.fitting id k row hrow
    ⟨hfit.key, hfit.fits, hfit.row.mono hB⟩
  only := h.only
  lines := h.lines
  numbers := h.numbers
  heap := h.heap

theorem exists_record (h : Stored B db s) (hrow : s.row id k = some row) :
    ∃ r, db.row id (keyBytes id k) = some r ∧ Shows id row r := by
  have hrel := h.rows id k (h.fitting id k row hrow).fits
  rw [hrow] at hrel
  cases hk : db.row id (keyBytes id k) with
  | none =>
    rw [hk] at hrel
    cases hrel
  | some r =>
    rw [hk] at hrel
    cases hrel with
    | some hshows => exact ⟨r, rfl, hshows⟩

/-- A key that does not fit belongs to no row. -/
theorem row_eq_none (h : Stored B db s) (hk : ¬KeyFits id k) : s.row id k = none := by
  refine Option.eq_none_iff_forall_ne_some.mpr (fun row hrow => ?_)
  exact hk (h.fitting id k row hrow).fits

theorem isSome_iff (h : Stored B db s) (hk : KeyFits id k) :
    (db.row id (keyBytes id k)).isSome ↔ (s.row id k).isSome := by
  have hrel := h.rows id k hk
  cases hdb : db.row id (keyBytes id k) <;> cases hs : s.row id k <;> rw [hdb, hs] at hrel <;>
    first | rfl | cases hrel

/-- The records under other keys stay. -/
theorem setRow (h : Stored B db s) (hfit : Fitting B id k row) (hshows : Shows id row r) :
    Stored B (db.setRow id (keyBytes id k) r) (s.setRow id k row) where
  rows id' k' hk' := by
    by_cases hid : id' = id
    · subst hid
      by_cases he : k' = k
      · subst he
        rw [Store.row_setRow_self, Store.row_setRow_self]
        exact .some hshows
      · rw [Store.row_setRow_ne _ _ (fun hb => he (keyBytes_inj hk' hfit.fits hb)),
          Store.row_setRow_ne _ _ he]
        exact h.rows id' k' hk'
    · rw [Store.row_setRow_other _ _ hid, Store.row_setRow_other _ _ hid]
      exact h.rows id' k' hk'
  fitting id' k' row' hrow' := by
    by_cases he : (⟨id', k'⟩ : Σ id, Key id) = ⟨id, k⟩
    · cases he
      rw [Store.row_setRow_self] at hrow'
      cases hrow'
      exact hfit
    · rw [Store.row_setRow_of_ne _ _ he] at hrow'
      exact h.fitting id' k' row' hrow'
  only id' bs hbs := by
    by_cases hid : id' = id
    · subst hid
      rw [Store.row_setRow_apply] at hbs
      split at hbs
      · rename_i he
        exact ⟨k, hfit.fits, he.symm⟩
      · exact h.only id' bs hbs
    · rw [Store.row_setRow_other _ _ hid] at hbs
      exact h.only id' bs hbs
  lines := h.lines
  numbers := h.numbers
  heap := h.heap

theorem eraseRow (h : Stored B db s) (hk : KeyFits id k) :
    Stored B (db.eraseRow id (keyBytes id k)) (s.eraseRow id k) where
  rows id' k' hk' := by
    by_cases hid : id' = id
    · subst hid
      by_cases he : k' = k
      · subst he
        rw [Store.row_eraseRow_self, Store.row_eraseRow_self]
        exact .none
      · rw [Store.row_eraseRow_ne _ (fun hb => he (keyBytes_inj hk' hk hb)),
          Store.row_eraseRow_ne _ he]
        exact h.rows id' k' hk'
    · rw [Store.row_eraseRow_other _ hid, Store.row_eraseRow_other _ hid]
      exact h.rows id' k' hk'
  fitting id' k' row' hrow' := by
    by_cases he : (⟨id', k'⟩ : Σ id, Key id) = ⟨id, k⟩
    · cases he
      rw [Store.row_eraseRow_self] at hrow'
      cases hrow'
    · rw [Store.row_eraseRow_of_ne _ he] at hrow'
      exact h.fitting id' k' row' hrow'
  only id' bs hbs := by
    by_cases hid : id' = id
    · subst hid
      rw [Store.row_eraseRow_apply] at hbs
      split at hbs
      · cases hbs
      · exact h.only id' bs hbs
    · rw [Store.row_eraseRow_other _ hid] at hbs
      exact h.only id' bs hbs
  lines := h.lines
  numbers := h.numbers
  heap := h.heap

theorem append (h : Stored B db s) {r : Record (layout .history).schema} {row : HistoryRecord}
    (hshows : Shows .history row r) : Stored B (db.append .history r) (s.append .history row) where
  rows := h.rows
  fitting := h.fitting
  only := h.only
  lines := h.lines
  numbers := h.numbers
  heap := by
    rw [Store.heap_append_self, Store.heap_append_self]
    exact List.rel_append h.heap (.cons hshows .nil)

theorem enter (h : Stored B db s) {off : ℕ} {g : ℤ × ℤ × ℤ} {number : ℤ}
    (hk : KeyFits (.orderLine off) (lineKey off g number)) :
    Stored B (db.enter (.orderLine off)
      (some (groupBytes g, keyBytes (.orderLine off) (lineKey off g number))))
      (s.enter (.orderLine off) (some (g, number))) where
  rows := by
    rw [Store.row_enter, Store.row_enter]
    exact h.rows
  fitting := by
    rw [Store.row_enter]
    exact h.fitting
  only := by
    rw [Store.row_enter]
    exact h.only
  lines off' g' hg' := by
    have hg : GroupFits g := fun e he => hk e (List.mem_of_mem_dropLast (l := keyInts (.orderLine off) _) he)
    by_cases hoff : off' = off
    · subst hoff
      by_cases he : g' = g
      · subst he
        rw [Store.groups_enter_self, Store.groups_enter_self, List.map_cons, h.lines off' g' hg']
      · rw [Store.groups_enter_ne _ _ (fun hb => he (keyBytes_inj hg' hg hb)),
          Store.groups_enter_ne _ _ he]
        exact h.lines off' g' hg'
    · have hid : (.orderLine off' : TableId) ≠ .orderLine off := fun he => hoff (TableId.orderLine.inj he)
      rw [Store.groups_enter_other _ hid, Store.groups_enter_other _ hid]
      exact h.lines off' g' hg'
  numbers off' g' number' hmem := by
    by_cases hoff : off' = off
    · subst hoff
      by_cases he : g' = g
      · subst he
        rw [Store.groups_enter_self] at hmem
        rcases List.mem_cons.mp hmem with rfl | hmem
        · exact hk
        · exact h.numbers off' g' number' hmem
      · rw [Store.groups_enter_ne _ _ he] at hmem
        exact h.numbers off' g' number' hmem
    · have hid : (.orderLine off' : TableId) ≠ .orderLine off := fun he => hoff (TableId.orderLine.inj he)
      rw [Store.groups_enter_other _ hid] at hmem
      exact h.numbers off' g' number' hmem
  heap := by
    rw [Store.heap_enter, Store.heap_enter]
    exact h.heap

/-- The calls on the store of records. -/
abbrev recordCalls : RecordsManager layout (RecordStore layout) := RecordStore.recordsManager layout

/-- The record of a key. -/
abbrev recordAt (id : TableId) (k : Key id) : recordCalls.Found id := keyBytes id k

variable {params : List (ℕ × Bytes)}

theorem selectRecord_follows (h : Stored B db s) (hk : KeyFits id k) :
    Follows anyAnswers (recordCalls.selectRecord id (keyParams id k)) db (selectRecord (C := tpcc) id k) s
      (fun r db' r' s' => db' = db ∧ s' = s ∧ r'.found = (s.row id k).isSome ∧
        r = if r'.found then some (keyBytes id k) else none) := by
  refine .atomic (fun r' s' hrun => ?_)
  cases hrun
  have hsearch := RecordStore.search_primary (s := db) (keyParams_columns id k)
    (predicateKey_keyParams id k)
  refine ⟨_, db, by rw [hsearch, Option.map_some], ⟨rfl, rfl, rfl, ?_⟩, trivial⟩
  have hiff := h.isSome_iff hk
  cases hdb : db.row id (keyBytes id k) <;> cases hs : s.row id k <;> rw [hdb, hs] at hiff <;>
    simp_all

theorem getColumn_follows (h : Stored B db s) {β : Type} {column : Row id → β} {c : ℕ}
    {S : Bytes → β → Prop}
    (hS : ∀ row r, s.row id k = some row → Shows id row r → S (r.getColumn c) (column row)) :
    Follows anyAnswers (recordCalls.getColumn (recordAt id k) c) db
      (getColumn (⟨true⟩ : ConstRecord tpcc id k) column) s
      (fun b db' x s' => S b x ∧ db' = db ∧ s' = s) := by
  refine .atomic (fun x s' hrun => ?_)
  obtain ⟨row, hrow, he⟩ := Option.map_eq_some_iff.mp hrun
  cases he
  obtain ⟨r, hr, hshows⟩ := h.exists_record hrow
  exact ⟨r.getColumn c, db, by rw [hr, Option.map_some], ⟨hS row r hrow hshows, rfl, rfl⟩, trivial⟩

/-- The columns written hold what the changed row shows there; the key stays. -/
structure Rewrites (B : ℤ) (id : TableId) (params : List (ℕ × Bytes)) (row row' : Row id) : Prop where
  shown : ∀ e ∈ shown id row', e ∈ params ∨ e ∈ RecordBytes.shown id row ∧ e.1 ∉ params.map Prod.fst
  key : TPCC.primaryKey id row' = TPCC.primaryKey id row
  row : RowFits B id row'

theorem updateRecord_follows (h : Stored B db s) (hw : Record.Writes (layout id).schema params)
    {change : Row id → Row id}
    (hchange : ∀ row, s.row id k = some row → Rewrites B id params row (change row)) :
    Follows anyAnswers (recordCalls.updateRecord (recordAt id k) params) db
      (updateRecord (⟨true⟩ : ConstRecord tpcc id k) change) s
      (fun _ db' _ s' => Stored B db' s') := by
  refine .atomic (fun _ s' hrun => ?_)
  obtain ⟨row, hrow, he⟩ := Option.map_eq_some_iff.mp hrun
  cases he
  obtain ⟨r, hr, hshows⟩ := h.exists_record hrow
  have hfit := h.fitting id k row hrow
  have hnew := hchange row hrow
  refine ⟨(), db.setRow id (keyBytes id k) (r.setColumns params), ?_, ?_, trivial⟩
  · exact Option.map_eq_some_iff.mpr ⟨r, hr, rfl⟩
  · exact h.setRow ⟨hnew.key.trans hfit.key, hfit.fits, hnew.row⟩ (hshows.setColumns hw hnew.shown)

theorem deleteRecord_follows (h : Stored B db s) (hindex : (layout id).indexCols = none)
    (hplain : ∀ row, indexed id row = none) :
    Follows anyAnswers (recordCalls.deleteRecord (recordAt id k)) db
      (deleteRecord (⟨true⟩ : ConstRecord tpcc id k)) s (fun _ db' _ s' => Stored B db' s') := by
  refine .atomic (fun _ s' hrun => ?_)
  obtain ⟨row, hrow, he⟩ := Option.map_eq_some_iff.mp hrun
  cases he
  obtain ⟨r, hr, -⟩ := h.exists_record hrow
  have hdelete := RecordStore.run_deleteRecord (s := db) hr hindex
  refine ⟨(), db.eraseRow id (keyBytes id k), (Program.run_atomic _ db).symm.trans hdelete, ?_, trivial⟩
  rw [show tpcc.indexed id row = none from hplain row, Store.leave_none]
  exact h.eraseRow (h.fitting id k row hrow).fits

/-- A row of a table without a secondary index. -/
theorem insertRecord_follows (h : Stored B db s) (hfit : Fitting B id k row) (hshows : Shows id row r)
    (hindex : (layout id).indexCols = none) (hplain : indexed id row = none) :
    Follows anyAnswers (recordCalls.insertRecord id r) db (insertRecord (C := tpcc) id row) s
      (fun _ db' _ s' => Stored B db' s') := by
  refine .atomic (fun _ s' hrun => ?_)
  have hnone := row_of_insertRecord (C := tpcc) hfit.key ((Program.run_atomic _ s).trans hrun)
  have hinsert := run_insertRecord_plain (C := tpcc) hfit.key hplain hnone
  obtain rfl : s.setRow id k row = s' := by
    rw [(Program.run_atomic _ s).symm.trans hinsert] at hrun
    cases hrun
    rfl
  have hfresh : db.row id (keyBytes id k) = none := by
    rw [← Option.not_isSome_iff_eq_none, h.isSome_iff hfit.fits, hnone]
    simp
  have hdb := RecordStore.run_insertRecord (hshows.primaryKey hfit.key) hindex hfresh
  exact ⟨(), _, (Program.run_atomic _ db).symm.trans hdb, h.setRow hfit hshows, trivial⟩

private theorem keySymbol_line {off : ℕ} {row : OrderLineRecord} {r : Record (layout (.orderLine off)).schema}
    (h : Shows (.orderLine off) row r) :
    r.keySymbol [0, 1, 2] = groupBytes (row.olOId, row.olDId, row.olWId) := by
  have hcolumn : ∀ e ∈ keyParams (.newOrder 0) (row.olOId, row.olDId, row.olWId), r.getColumn e.1 = e.2 := by
    intro e he
    exact h.getColumn_eq (keyParams_shown rfl e (groupParams_mem row.olNumber he)) (groupParams_sizes e he).2
  rw [groupBytes, ← keyParams_bytes, ← List.flatMap_congr hcolumn]
  rfl

/-- A line is entered under the number of its order. -/
theorem insertLine_follows (h : Stored B db s) {off : ℕ} {row : OrderLineRecord}
    {r : Record (layout (.orderLine off)).schema} (hshows : Shows (.orderLine off) row r)
    (hk : KeyFits (.orderLine off) (row.olOId, row.olDId, row.olWId, row.olNumber)) :
    Follows anyAnswers (recordCalls.insertRecord (.orderLine off) r) db
      (insertRecord (C := tpcc) (.orderLine off) row) s (fun _ db' _ s' => Stored B db' s') := by
  refine .atomic (fun _ s' hrun => ?_)
  have hkey : tpcc.primaryKey (.orderLine off) row =
      some (row.olOId, row.olDId, row.olWId, row.olNumber) := rfl
  have hnone := row_of_insertRecord hkey ((Program.run_atomic _ s).trans hrun)
  have hinsert := run_insertRecord (C := tpcc) hkey hnone
  obtain rfl := (Prod.mk.inj (Option.some.inj
    (hrun.symm.trans ((Program.run_atomic _ s).symm.trans hinsert)))).2
  have hfresh : db.row (.orderLine off) (keyBytes (.orderLine off)
      (row.olOId, row.olDId, row.olWId, row.olNumber)) = none := by
    rw [← Option.not_isSome_iff_eq_none, h.isSome_iff hk, hnone]
    simp
  have hdb := KeyedStore.run_insertRecord (C := recordCatalog layout) (hshows.primaryKey rfl) hfresh
  rw [RecordStore.indexed_eq (hshows.primaryKey rfl)] at hdb
  refine ⟨(), _, (Program.run_atomic _ db).symm.trans hdb, ?_, trivial⟩
  rw [show (layout (.orderLine off)).indexCols = some [0, 1, 2] from rfl, Option.map_some,
    keySymbol_line hshows]
  exact (h.setRow ⟨rfl, hk, trivial⟩ hshows).enter hk

theorem insertHistory_follows (h : Stored B db s) {row : HistoryRecord}
    {r : Record (layout .history).schema} (hshows : Shows .history row r) :
    Follows anyAnswers (recordCalls.insertRecord .history r) db
      (insertRecord (C := tpcc) .history row) s (fun _ db' _ s' => Stored B db' s') := by
  refine .atomic (fun _ s' hrun => ?_)
  cases hrun
  have hdb : (recordCalls.insertRecord .history r).run db = some ((), db.append .history r) :=
    RecordStore.run_insertRecord_append rfl
  exact ⟨(), _, (Program.run_atomic _ db).symm.trans hdb, h.append hshows, trivial⟩

theorem selectLines_follows (h : Stored B db s) {off : ℕ} {g : ℤ × ℤ × ℤ} (hg : GroupFits g) :
    Follows anyAnswers (recordCalls.selectRecords (.orderLine off) (keyParams (.newOrder 0) g)) db
      (selectRecords (C := tpcc) (.orderLine off) g) s (fun r db' numbers s' => db' = db ∧ s' = s ∧
        r = numbers.map (fun number => keyBytes (.orderLine off) (lineKey off g number)) ∧
        ∀ number ∈ numbers, KeyFits (.orderLine off) (lineKey off g number)) := by
  refine .atomic (fun numbers s' hrun => ?_)
  cases hrun
  have hkey : RecordStore.predicateKey (layout (.orderLine off)).schema (keyParams (.newOrder 0) g) =
      groupBytes g :=
    (RecordStore.predicateKey_eq (fun e he => (groupParams_sizes e he).2)).trans keyParams_bytes
  have hselect : (recordCalls.selectRecords (.orderLine off) (keyParams (.newOrder 0) g)).run db =
      some (db.groups (.orderLine off) _, db) := RecordStore.run_selectRecords rfl
  rw [hkey, h.lines off g hg] at hselect
  exact ⟨_, db, (Program.run_atomic _ db).symm.trans hselect, ⟨rfl, rfl, rfl, h.numbers off g⟩, trivial⟩

end Stored
end RecordBytes
end ImdbD.Benchmark.TPCC
