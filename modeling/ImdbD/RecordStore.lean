import ImdbD.RecordBuffer
import ImdbD.KeyedStore

/-!
# A store of records of bytes

The tables of a store whose rows are records of bytes, kept under the bytes of
their primary columns, and the calls of a storage manager as the transactions
make them. `StorageManager` lists the calls, so that a transaction can be run
over this store and over tables with slots and indexes alike.
-/
namespace ImdbD.StorageEngine
open ByteMemory AtomicProgram KeyedStore

/-- A schema and the columns of the secondary index, if the table has one. -/
structure TableLayout where
  schema : BuiltSchema
  indexCols : Option (List ℕ)

namespace Record
variable {S : BuiltSchema}

/-- The key of a record; none in a table without primary columns. -/
def primaryKey (r : Record S) : Option Bytes :=
  if S.schema.primaryColNum = 0 then none else some (S.schema.getPrimaryKeySymbol r.data)

def keySymbol (r : Record S) (cols : List ℕ) : Bytes := S.schema.getKeySymbol r.data cols

/-- The symbol of the primary columns, where there are any. -/
theorem primaryKey_eq (r : Record S) (hn : S.schema.primaryColNum ≠ 0)
    (hlen : S.schema.primaryKeyLength ≠ 0) :
    r.primaryKey = some (S.schema.primaryCols.flatMap r.getColumn) := by
  rw [primaryKey, if_neg hn, S.built.layout.getPrimaryKeySymbol_eq hlen]
  rfl

/-- Records that agree in the primary columns have the same key. -/
theorem primaryKey_congr {r r' : Record S} (hlen : S.schema.primaryKeyLength ≠ 0)
    (h : ∀ c ∈ S.schema.primaryCols, r.getColumn c = r'.getColumn c) :
    r.primaryKey = r'.primaryKey := by
  by_cases hn : S.schema.primaryColNum = 0
  · rw [primaryKey, primaryKey, if_pos hn, if_pos hn]
  · rw [primaryKey_eq r hn hlen, primaryKey_eq r' hn hlen]
    exact congrArg some (List.flatMap_congr h)

end Record

/-- The primary key of a record is what it adds to its group. -/
abbrev recordCatalog {ι : Type} (L : ι → TableLayout) : Catalog ι where
  Key _ := Bytes
  Row id := Record (L id).schema
  Group _ := Bytes
  Member _ := Bytes
  primaryKey _ r := r.primaryKey
  indexed id r := (L id).indexCols.bind (fun cols => r.primaryKey.map (fun k => (r.keySymbol cols, k)))
  keyOf _ _ m := m

abbrev RecordStore {ι : Type} (L : ι → TableLayout) := Store (recordCatalog L)

/-- The calls of a storage manager, with column ids and the bytes of their values. -/
structure StorageManager {ι : Type} (L : ι → TableLayout) (σ : Type) where
  /-- A record found. -/
  Found : ι → Type
  selectRecord : ∀ id, List (ℕ × Bytes) → Program σ (Option (Found id))
  getColumn : ∀ {id}, Found id → ℕ → Program σ Bytes
  insertRecord : ∀ id, Record (L id).schema → Program σ Unit
  deleteRecord : ∀ {id}, Found id → Program σ Unit
  updateRecord : ∀ {id}, Found id → List (ℕ × Bytes) → Program σ Unit

namespace RecordStore
variable {ι : Type} {L : ι → TableLayout} {id : ι} {k : Bytes} {params : List (ℕ × Bytes)}

/-- The bytes of the values, each as long as its column. -/
def predicateKey (S : BuiltSchema) (params : List (ℕ × Bytes)) : Bytes :=
  (ColumnPredicates.mk params).getPredicateDataSymbol S.schema

/-- The bytes of a predicate whose values have the sizes of their columns. -/
theorem predicateKey_eq {S : BuiltSchema}
    (h : ∀ e ∈ params, e.2.length = S.schema.getColumnSize e.1) :
    predicateKey S params = params.flatMap Prod.snd :=
  List.flatMap_congr (fun e he => List.take_of_length_le (h e he).le)

/-- The key of the record that a selection finds. A selection that would scan is not made. -/
def search (s : RecordStore L) (id : ι) (params : List (ℕ × Bytes)) : Option (Option Bytes) :=
  if params.map Prod.fst = (L id).schema.schema.primaryCols then
    some ((s.row id (predicateKey (L id).schema params)).map
      (fun _ => predicateKey (L id).schema params))
  else if (L id).indexCols = some (params.map Prod.fst) then
    some (s.groups id (predicateKey (L id).schema params)).head?
  else none

/-- What an insertion enters into the secondary index. -/
theorem indexed_eq {r : Record (L id).schema} (hk : r.primaryKey = some k) :
    (recordCatalog L).indexed id r = (L id).indexCols.map (fun cols => (r.keySymbol cols, k)) := by
  change (L id).indexCols.bind _ = _
  rw [hk]
  cases (L id).indexCols <;> rfl

variable [DecidableEq ι]

/-- The calls on the store; a record is referred to by its key. -/
abbrev manager (L : ι → TableLayout) : StorageManager L (RecordStore L) where
  Found _ := Bytes
  selectRecord id params := .atomic (fun s => (s.search id params).map (fun r => (r, s)))
  getColumn {id} k column := .atomic (fun s => (s.row id k).map (fun r => (r.getColumn column, s)))
  insertRecord id r := KeyedStore.insertRecord (C := recordCatalog L) id r
  deleteRecord {id} k := KeyedStore.deleteRecord (⟨true⟩ : ConstRecord (recordCatalog L) id k)
  updateRecord {id} k params := KeyedStore.updateRecord (⟨true⟩ : ConstRecord (recordCatalog L) id k)
    (fun r => r.setColumns params)

variable {s t : RecordStore L}

omit [DecidableEq ι] in
theorem search_primary (hp : params.map Prod.fst = (L id).schema.schema.primaryCols)
    (hk : predicateKey (L id).schema params = k) :
    s.search id params = some ((s.row id k).map (fun _ => k)) := by
  rw [search, if_pos hp, hk]

omit [DecidableEq ι] in
theorem search_group (hp : params.map Prod.fst ≠ (L id).schema.schema.primaryCols)
    (hi : (L id).indexCols = some (params.map Prod.fst))
    (hk : predicateKey (L id).schema params = k) :
    s.search id params = some (s.groups id k).head? := by
  rw [search, if_neg hp, if_pos hi, hk]

omit [DecidableEq ι] in
/-- What a search for a key answers leads to the row under the key. -/
theorem bind_row_of_search (hp : params.map Prod.fst = (L id).schema.schema.primaryCols)
    (hk : predicateKey (L id).schema params = k) {answer : Option Bytes}
    (h : s.search id params = some answer) : answer.bind (s.row id) = s.row id k := by
  rw [search_primary hp hk] at h
  cases h
  cases hrow : s.row id k with
  | none => rfl
  | some r => exact hrow

theorem run_selectRecord (hp : params.map Prod.fst = (L id).schema.schema.primaryCols)
    (hk : predicateKey (L id).schema params = k) :
    ((manager L).selectRecord id params).run s = some ((s.row id k).map (fun _ => k), s) := by
  refine (Program.run_atomic _ s).trans ?_
  rw [search_primary hp hk, Option.map_some]

theorem run_selectRecord_group (hp : params.map Prod.fst ≠ (L id).schema.schema.primaryCols)
    (hi : (L id).indexCols = some (params.map Prod.fst))
    (hk : predicateKey (L id).schema params = k) :
    ((manager L).selectRecord id params).run s = some ((s.groups id k).head?, s) := by
  refine (Program.run_atomic _ s).trans ?_
  rw [search_group hp hi hk, Option.map_some]

theorem run_getColumn {k : (manager L).Found id} (column : ℕ) : ((manager L).getColumn k column).run s =
    (s.row id k).map (fun r => (r.getColumn column, s)) :=
  Program.run_atomic _ s

theorem run_updateRecord {k : (manager L).Found id} {r : Record (L id).schema}
    (h : s.row id k = some r) : ((manager L).updateRecord k params).run s =
      some ((), s.setRow id k (r.setColumns params)) :=
  KeyedStore.run_updateRecord h _

theorem run_deleteRecord {k : (manager L).Found id} {r : Record (L id).schema}
    (h : s.row id k = some r) (hi : (L id).indexCols = none) :
    ((manager L).deleteRecord k).run s = some ((), s.eraseRow id k) := by
  refine KeyedStore.run_deleteRecord_plain h ?_
  change (L id).indexCols.bind _ = none
  rw [hi]
  rfl

theorem run_insertRecord {r : Record (L id).schema} (hk : r.primaryKey = some k)
    (hi : (L id).indexCols = none) (h : s.row id k = none) :
    ((manager L).insertRecord id r).run s = some ((), s.setRow id k r) := by
  refine KeyedStore.run_insertRecord_plain hk ?_ h
  change (L id).indexCols.bind _ = none
  rw [hi]
  rfl

/-- A record whose key is taken is not inserted. -/
theorem run_insertRecord_enter {r : Record (L id).schema} (hk : r.primaryKey = some k)
    (h : ((manager L).insertRecord id r).run s = some ((), t)) : s.row id k = none ∧
      t = (s.setRow id k r).enter id ((L id).indexCols.map (fun cols => (r.keySymbol cols, k))) := by
  cases hrow : s.row id k with
  | none =>
    have hrun := KeyedStore.run_insertRecord (C := recordCatalog L) hk hrow
    rw [indexed_eq hk] at hrun
    rw [show ((manager L).insertRecord id r).run s = some ((), _) from hrun] at h
    cases h
    exact ⟨rfl, rfl⟩
  | some _ =>
    have hnone : ((manager L).insertRecord id r).run s = none := by
      simp [KeyedStore.insertRecord, hk, hrow]
    rw [hnone] at h
    cases h

/-- In a table without a secondary index. -/
theorem run_insertRecord_cases {r : Record (L id).schema} (hk : r.primaryKey = some k)
    (hi : (L id).indexCols = none) (h : ((manager L).insertRecord id r).run s = some ((), t)) :
    s.row id k = none ∧ t = s.setRow id k r := by
  have henter := run_insertRecord_enter hk h
  rwa [hi, Option.map_none, Store.enter_none] at henter

theorem run_insertRecord_heap {r : Record (L id).schema} (hk : r.primaryKey = none) :
    ((manager L).insertRecord id r).run s = some ((), s.append id r) :=
  KeyedStore.run_insertRecord_heap hk

end RecordStore
end ImdbD.StorageEngine
