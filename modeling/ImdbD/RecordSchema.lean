import ImdbD.ByteMemory
import Mathlib.Algebra.BigOperators.Group.List.Basic
import Mathlib.Data.List.Range

/-!
# Schemas and the byte layout of records

A schema is built column by column. Each column keeps the offset that the
schema had when it was inserted, and primary columns are also listed apart.
Records are byte strings of the schema size; key symbols are concatenations of
their column bytes.
-/
namespace ImdbD.StorageEngine
open ByteMemory

inductive ValueType where
  | int | int8 | int16 | int32 | int64 | double | float | varchar
  deriving DecidableEq

def kBlockSize : ℕ := 8 * 1024 * 1024
def kRecordHeaderSize : ℕ := 8
def kFetchSize : ℕ := 32

structure ColumnInfo where
  columnName : String
  columnType : ValueType
  columnSize : ℕ
  columnOffset : ℕ
  isPrimary : Bool
  deriving DecidableEq

/-- The constructor for numeric columns; a `VARCHAR` without a size fails its assertion. -/
def ColumnInfo.ofType (columnName : String) (columnType : ValueType) (isPrimary : Bool) :
    Option ColumnInfo :=
  match columnType with
  | .int => some ⟨columnName, .int, 4, 0, isPrimary⟩
  | .int8 => some ⟨columnName, .int8, 1, 0, isPrimary⟩
  | .int16 => some ⟨columnName, .int16, 2, 0, isPrimary⟩
  | .int32 => some ⟨columnName, .int32, 4, 0, isPrimary⟩
  | .int64 => some ⟨columnName, .int64, 8, 0, isPrimary⟩
  | .float => some ⟨columnName, .float, 4, 0, isPrimary⟩
  | .double => some ⟨columnName, .double, 8, 0, isPrimary⟩
  | .varchar => none

/-- The constructor with an explicit size. -/
def ColumnInfo.sized (columnName : String) (columnType : ValueType) (columnSize : ℕ)
    (isPrimary : Bool) : ColumnInfo :=
  ⟨columnName, columnType, columnSize, 0, isPrimary⟩

/-- `primaryCols` and `primaryColSizes` are the filled parts of the two arrays of length five. -/
structure Schema where
  columns : List ColumnInfo
  columnCount : ℕ
  columnOffset : ℕ
  primaryKeyLength : ℕ
  primaryColNum : ℕ
  primaryCols : List ℕ
  primaryColSizes : List ℕ
  deriving DecidableEq

namespace Schema

def empty : Schema := ⟨[], 0, 0, 0, 0, [], []⟩

/-- No `std::vector` can be longer; `emplace_back` fails beyond. -/
def vectorMaxSize : ℕ := 2 ^ 63 - 1

/-- Append a column. A sixth primary column fails the assertion. -/
def insertColumn (s : Schema) (column : ColumnInfo) : Option Schema :=
  if s.columns.length < vectorMaxSize then
    let columns := s.columns ++ [{ column with columnOffset := s.columnOffset }]
    if column.isPrimary then
      if s.primaryColNum < 5 then
        some ⟨columns, s.columnCount + 1, s.columnOffset + column.columnSize,
          s.primaryKeyLength + column.columnSize, s.primaryColNum + 1,
          s.primaryCols ++ [s.columnCount], s.primaryColSizes ++ [column.columnSize]⟩
      else none
    else
      some { s with
        columns := columns
        columnCount := s.columnCount + 1
        columnOffset := s.columnOffset + column.columnSize }
  else none

def insertColumns (s : Schema) : List ColumnInfo → Option Schema
  | [] => some s
  | c :: cs => (s.insertColumn c).bind (fun s => s.insertColumns cs)

/-- The schemas that `insertColumn` builds from the empty one. -/
inductive Built : Schema → Prop
  | empty : Built Schema.empty
  | insertColumn {s s' : Schema} (c : ColumnInfo) (hs : Built s)
      (hc : s.insertColumn c = some s') : Built s'

def getSchemaSize (s : Schema) : ℕ := s.columnOffset
def getColumnSize (s : Schema) (id : ℕ) : ℕ := (s.columns[id]?.map ColumnInfo.columnSize).getD 0
def getColumnOffset (s : Schema) (id : ℕ) : ℕ :=
  (s.columns[id]?.map ColumnInfo.columnOffset).getD 0

/-- The ids that pass the bounds checks of `getColumn` and of `columns.at`. -/
def ValidColumns (s : Schema) (ids : List ℕ) : Prop := ∀ id ∈ ids, id < s.columnCount

instance (s : Schema) (ids : List ℕ) : Decidable (s.ValidColumns ids) :=
  inferInstanceAs (Decidable (∀ id ∈ ids, id < s.columnCount))

def getPrimaryColumnSymbol (s : Schema) : Bytes := sizeWords s.primaryCols

/-- The bytes of one column inside a record. -/
def getColumn (s : Schema) (data : Bytes) (id : ℕ) : Bytes :=
  slice data (s.getColumnOffset id) (s.getColumnSize id)

/-- `Record::getPrimaryKeySymbol`: the whole record when there is no primary key. -/
def getPrimaryKeySymbol (s : Schema) (data : Bytes) : Bytes :=
  if s.primaryKeyLength = 0 then data.take s.getSchemaSize
  else (s.primaryCols.zip s.primaryColSizes).flatMap
    (fun c => slice data (s.getColumnOffset c.1) c.2)

/-- `Record::getKeySymbol`. -/
def getKeySymbol (s : Schema) (data : Bytes) (indexCols : List ℕ) : Bytes :=
  indexCols.flatMap (s.getColumn data)

/-- Write one column in place, as `memcpy` of its size from the value does. -/
def setColumn (s : Schema) (data : Bytes) (id : ℕ) (value : Bytes) : Bytes :=
  overwrite data (s.getColumnOffset id) (value.take (s.getColumnSize id))

/-- What the construction keeps true. -/
structure Layout (s : Schema) : Prop where
  count : s.columnCount = s.columns.length
  bounded : s.columns.length ≤ vectorMaxSize
  size : s.columnOffset = (s.columns.map ColumnInfo.columnSize).sum
  offset : ∀ i (h : i < s.columns.length),
    s.columns[i].columnOffset = ((s.columns.take i).map ColumnInfo.columnSize).sum
  primary : s.primaryCols = (List.range s.columns.length).filter
    (fun i => (s.columns[i]?.map ColumnInfo.isPrimary).getD false)
  sizes : s.primaryColSizes = s.primaryCols.map s.getColumnSize
  keyLength : s.primaryKeyLength = s.primaryColSizes.sum
  colNum : s.primaryColNum = s.primaryCols.length

private theorem layout_empty : Layout empty where
  count := rfl
  bounded := by simp [empty]
  size := rfl
  offset i h := by simp [empty] at h
  primary := rfl
  sizes := rfl
  keyLength := rfl
  colNum := rfl

/-- The two ways `insertColumn` succeeds, with every field it sets. -/
theorem insertColumn_cases {s s' : Schema} {c : ColumnInfo} (h : s.insertColumn c = some s') :
    s.columns.length < vectorMaxSize ∧
      s'.columns = s.columns ++ [{ c with columnOffset := s.columnOffset }] ∧
      s'.columnCount = s.columnCount + 1 ∧ s'.columnOffset = s.columnOffset + c.columnSize ∧
      ((c.isPrimary = true ∧ s'.primaryKeyLength = s.primaryKeyLength + c.columnSize ∧
          s'.primaryColNum = s.primaryColNum + 1 ∧
          s'.primaryCols = s.primaryCols ++ [s.columnCount] ∧
          s'.primaryColSizes = s.primaryColSizes ++ [c.columnSize]) ∨
        (c.isPrimary = false ∧ s'.primaryKeyLength = s.primaryKeyLength ∧
          s'.primaryColNum = s.primaryColNum ∧ s'.primaryCols = s.primaryCols ∧
          s'.primaryColSizes = s.primaryColSizes)) := by
  unfold insertColumn at h
  split at h
  · rename_i hl
    cases hp : c.isPrimary with
    | true =>
      simp only [hp, ↓reduceIte] at h
      split at h
      · cases h
        exact ⟨hl, rfl, rfl, rfl, Or.inl ⟨rfl, rfl, rfl, rfl, rfl⟩⟩
      · cases h
    | false =>
      simp only [hp, Bool.false_eq_true, ↓reduceIte] at h
      cases h
      exact ⟨hl, rfl, rfl, rfl, Or.inr ⟨rfl, rfl, rfl, rfl, rfl⟩⟩
  · cases h

private theorem getElem?_append_of_lt {s : Schema} {c : ColumnInfo} {i : ℕ}
    (h : i < s.columns.length) : (s.columns ++ [c])[i]? = s.columns[i]? :=
  List.getElem?_append_left h

private theorem primary_mem_lt {s : Schema} (h : Layout s) {id : ℕ} (hid : id ∈ s.primaryCols) :
    id < s.columns.length := by
  rw [h.primary] at hid
  exact List.mem_range.mp (List.mem_filter.mp hid).1

private theorem primary_range_append {s : Schema} (h : Layout s) (c : ColumnInfo) :
    (List.range (s.columns ++ [c]).length).filter
        (fun i => ((s.columns ++ [c])[i]?.map ColumnInfo.isPrimary).getD false) =
      s.primaryCols ++ if c.isPrimary then [s.columns.length] else [] := by
  rw [List.length_append, List.length_singleton, List.range_succ, List.filter_append, h.primary]
  congr 1
  · apply List.filter_congr
    intro i hi
    rw [getElem?_append_of_lt (List.mem_range.mp hi)]
  · cases hc : c.isPrimary <;> simp [hc]

theorem Layout.insertColumn {s s' : Schema} (h : Layout s) {c : ColumnInfo}
    (hc : s.insertColumn c = some s') : Layout s' := by
  obtain ⟨hlt, hcols, hcount, hoff, hcase⟩ := insertColumn_cases hc
  have hsize : ∀ id ∈ s.primaryCols, s'.getColumnSize id = s.getColumnSize id := by
    intro id hid
    unfold getColumnSize
    rw [hcols, getElem?_append_of_lt (primary_mem_lt h hid)]
  have hprimary : s'.primaryCols =
      s.primaryCols ++ if c.isPrimary then [s.columns.length] else [] := by
    rcases hcase with ⟨hp, -, -, hpc, -⟩ | ⟨hp, -, -, hpc, -⟩
    · simp [hp, hpc, h.count]
    · simp [hp, hpc]
  have hnew : s'.getColumnSize s.columns.length = c.columnSize := by
    simp [getColumnSize, hcols]
  refine ⟨?_, ?_, ?_, ?_, ?_, ?_, ?_, ?_⟩
  · simp [hcount, hcols, h.count]
  · simp only [hcols, List.length_append, List.length_singleton]
    omega
  · simp [hoff, hcols, h.size]
  · intro i hi
    simp only [hcols, List.length_append, List.length_singleton] at hi
    by_cases hlast : i < s.columns.length
    · simp only [hcols, List.getElem_append_left hlast, h.offset i hlast]
      rw [List.take_append_of_le_length hlast.le]
    · obtain rfl : i = s.columns.length := by omega
      simp [hcols, h.size]
  · rw [hprimary, hcols]
    exact (primary_range_append h { c with columnOffset := s.columnOffset }).symm
  · rcases hcase with ⟨hp, -, -, hpc, hps⟩ | ⟨hp, -, -, hpc, hps⟩
    · rw [hps, hpc, h.sizes, List.map_append, List.map_congr_left hsize, h.count]
      simp [hnew]
    · rw [hps, hpc, h.sizes, List.map_congr_left hsize]
  · rcases hcase with ⟨hp, hk, -, -, hps⟩ | ⟨hp, hk, -, -, hps⟩
    · simp [hk, hps, h.keyLength]
    · simp [hk, hps, h.keyLength]
  · rcases hcase with ⟨hp, -, hn, hpc, -⟩ | ⟨hp, -, hn, hpc, -⟩
    · simp [hn, hpc, h.colNum]
    · simp [hn, hpc, h.colNum]

theorem Built.layout {s : Schema} (h : Built s) : Layout s := by
  induction h with
  | empty => exact layout_empty
  | insertColumn c hs hc ih => exact ih.insertColumn hc

theorem Built.insertColumns {s s' : Schema} (h : Built s) {cs : List ColumnInfo}
    (hc : s.insertColumns cs = some s') : Built s' := by
  induction cs generalizing s with
  | nil => simpa [Schema.insertColumns] using (Option.some.inj hc) ▸ h
  | cons c cs ih =>
    simp only [Schema.insertColumns, Option.bind_eq_some_iff] at hc
    obtain ⟨t, ht, hrest⟩ := hc
    exact ih (.insertColumn c h ht) hrest

namespace Layout
variable {s : Schema}

theorem primary_lt (h : Layout s) {id : ℕ} (hid : id ∈ s.primaryCols) : id < s.columnCount := by
  rw [h.count]
  exact primary_mem_lt h hid

theorem lt_word (h : Layout s) {id : ℕ} (hid : id < s.columnCount) : id < 2 ^ 64 := by
  have hb := h.bounded
  rw [h.count] at hid
  rw [vectorMaxSize] at hb
  omega

theorem getColumnOffset_eq (h : Layout s) {i : ℕ} (hi : i < s.columnCount) :
    s.getColumnOffset i = ((s.columns.take i).map ColumnInfo.columnSize).sum := by
  rw [h.count] at hi
  simp [getColumnOffset, List.getElem?_eq_getElem hi, h.offset i hi]

/-- A column ends where the sum of the sizes up to it ends. -/
theorem column_end (h : Layout s) {i : ℕ} (hi : i < s.columnCount) :
    s.getColumnOffset i + s.getColumnSize i =
      ((s.columns.take (i + 1)).map ColumnInfo.columnSize).sum := by
  rw [h.getColumnOffset_eq hi]
  rw [h.count] at hi
  rw [List.take_add_one, List.getElem?_eq_getElem hi, List.map_append, List.sum_append]
  simp [getColumnSize, List.getElem?_eq_getElem hi]

private theorem take_sum_le (cs : List ColumnInfo) {i j : ℕ} (hij : i ≤ j) :
    ((cs.take i).map ColumnInfo.columnSize).sum ≤ ((cs.take j).map ColumnInfo.columnSize).sum := by
  rw [← Nat.add_sub_of_le hij, List.take_add, List.map_append, List.sum_append]
  exact Nat.le_add_right _ _

/-- Columns follow one another: an earlier column ends before a later one starts. -/
theorem column_lt (h : Layout s) {i j : ℕ} (hij : i < j) (hj : j < s.columnCount) :
    s.getColumnOffset i + s.getColumnSize i ≤ s.getColumnOffset j := by
  rw [h.column_end (by omega), h.getColumnOffset_eq hj]
  exact take_sum_le _ hij

theorem column_le (h : Layout s) {i : ℕ} (hi : i < s.columnCount) :
    s.getColumnOffset i + s.getColumnSize i ≤ s.getSchemaSize := by
  rw [h.column_end hi, getSchemaSize, h.size]
  conv_rhs => rw [← List.take_length (l := s.columns)]
  rw [h.count] at hi
  exact take_sum_le _ hi

theorem column_disjoint (h : Layout s) {i j : ℕ} (hi : i < s.columnCount) (hj : j < s.columnCount)
    (hij : i ≠ j) : s.getColumnOffset i + s.getColumnSize i ≤ s.getColumnOffset j ∨
      s.getColumnOffset j + s.getColumnSize j ≤ s.getColumnOffset i := by
  rcases Nat.lt_or_gt_of_ne hij with hlt | hgt
  · exact Or.inl (h.column_lt hlt hj)
  · exact Or.inr (h.column_lt hgt hi)

/-- With a key of at least one byte the primary key symbol is the symbol of the primary columns. -/
theorem getPrimaryKeySymbol_eq (h : Layout s) (hk : s.primaryKeyLength ≠ 0) (data : Bytes) :
    s.getPrimaryKeySymbol data = s.getKeySymbol data s.primaryCols := by
  unfold getPrimaryKeySymbol getKeySymbol getColumn
  rw [if_neg hk, h.sizes]
  induction s.primaryCols with
  | nil => rfl
  | cons c cs ih => simp [ih]

theorem setColumn_length (h : Layout s) {data value : Bytes} {id : ℕ}
    (hd : data.length = s.getSchemaSize) (hid : id < s.columnCount) :
    (s.setColumn data id value).length = s.getSchemaSize := by
  have hle := h.column_le hid
  unfold setColumn
  rw [overwrite_length _ _ _ (by rw [List.length_take, hd]; omega), hd]

/-- A write to one column is not seen through another. -/
theorem getColumn_setColumn_ne (h : Layout s) {data value : Bytes} {id id' : ℕ}
    (hd : data.length = s.getSchemaSize) (hid : id < s.columnCount) (hid' : id' < s.columnCount)
    (hne : id ≠ id') : s.getColumn (s.setColumn data id value) id' = s.getColumn data id' := by
  have hle := h.column_le hid
  have hdis := h.column_disjoint hid hid' hne
  unfold getColumn setColumn
  apply slice_overwrite_disjoint
  · rw [List.length_take]
    omega
  · rw [List.length_take]
    omega

theorem getKeySymbol_setColumn (h : Layout s) {data value : Bytes} {id : ℕ} {cols : List ℕ}
    (hd : data.length = s.getSchemaSize) (hid : id < s.columnCount) (hcols : s.ValidColumns cols)
    (hne : id ∉ cols) : s.getKeySymbol (s.setColumn data id value) cols =
      s.getKeySymbol data cols := by
  unfold getKeySymbol
  rw [List.flatMap_def, List.flatMap_def]
  congr 1
  apply List.map_congr_left
  intro c hc
  exact h.getColumn_setColumn_ne hd hid (hcols c hc) (fun he => hne (he ▸ hc))

end Layout

/-- A column lies inside the record, so its bytes have the column's size. -/
theorem getColumn_length {s : Schema} (h : Layout s) {data : Bytes} {id : ℕ}
    (hd : data.length = s.getSchemaSize) (hid : id < s.columnCount) :
    (s.getColumn data id).length = s.getColumnSize id :=
  slice_length _ _ _ (by rw [hd]; exact h.column_le hid)

/-- Key symbols over one column list agree exactly when every listed column does. -/
theorem getKeySymbol_eq_iff {s : Schema} (h : Layout s) {data data' : Bytes} {cols : List ℕ}
    (hd : data.length = s.getSchemaSize) (hd' : data'.length = s.getSchemaSize)
    (hcols : s.ValidColumns cols) : s.getKeySymbol data cols = s.getKeySymbol data' cols ↔
      ∀ c ∈ cols, s.getColumn data c = s.getColumn data' c := by
  induction cols with
  | nil => simp [getKeySymbol]
  | cons c cs ih =>
    have hc : c < s.columnCount := hcols c List.mem_cons_self
    have hcs : s.ValidColumns cs := fun i hi => hcols i (List.mem_cons_of_mem _ hi)
    have hlen : (s.getColumn data c).length = (s.getColumn data' c).length := by
      rw [getColumn_length h hd hc, getColumn_length h hd' hc]
    simp only [getKeySymbol, List.flatMap_cons, List.forall_mem_cons] at ih ⊢
    rw [← ih hcs]
    constructor
    · intro he
      exact List.append_inj he hlen
    · rintro ⟨h1, h2⟩
      rw [h1, h2]

end Schema

/-- A column id with the bytes its value pointer leads to. -/
structure ColumnPredicate where
  columnId : ℕ
  value : Bytes

/-- The arrays `column_ids` and `column_values`, entry by entry. -/
structure ColumnPredicates where
  entries : List (ℕ × Bytes)

namespace ColumnPredicates

def columnIds (p : ColumnPredicates) : List ℕ := p.entries.map Prod.fst

/-- The checks a use of the predicate makes: existing columns, and a value that can be read over
the whole column. -/
def Valid (s : Schema) (p : ColumnPredicates) : Prop :=
  ∀ e ∈ p.entries, e.1 < s.columnCount ∧ s.getColumnSize e.1 ≤ e.2.length

instance (s : Schema) (p : ColumnPredicates) : Decidable (p.Valid s) :=
  inferInstanceAs (Decidable (∀ e ∈ p.entries, _))

def getPredicateColumnSymbol (p : ColumnPredicates) : Bytes := sizeWords p.columnIds

def getPredicateDataSymbol (s : Schema) (p : ColumnPredicates) : Bytes :=
  p.entries.flatMap (fun e => e.2.take (s.getColumnSize e.1))

/-- Every listed column has the bytes of its value. -/
def Matches (s : Schema) (p : ColumnPredicates) (data : Bytes) : Prop :=
  ∀ e ∈ p.entries, e.2.take (s.getColumnSize e.1) = s.getColumn data e.1

instance (s : Schema) (p : ColumnPredicates) (data : Bytes) : Decidable (p.Matches s data) :=
  inferInstanceAs (Decidable (∀ e ∈ p.entries, _))

/-- The comparison loop of the scans: `memcmp` column by column, up to the first difference. It
fails at a column that does not exist or whose value cannot be read over the whole column. -/
def isMatch (s : Schema) (data : Bytes) : List (ℕ × Bytes) → Option Bool
  | [] => some true
  | e :: es =>
    if e.1 < s.columnCount ∧ s.getColumnSize e.1 ≤ e.2.length then
      if e.2.take (s.getColumnSize e.1) = s.getColumn data e.1 then isMatch s data es
      else some false
    else none

private theorem matches_cons {s : Schema} {e : ℕ × Bytes} {es : List (ℕ × Bytes)} {data : Bytes} :
    Matches s ⟨e :: es⟩ data ↔
      e.2.take (s.getColumnSize e.1) = s.getColumn data e.1 ∧ Matches s ⟨es⟩ data :=
  List.forall_mem_cons

theorem isMatch_eq {s : Schema} {p : ColumnPredicates} (h : p.Valid s) (data : Bytes) :
    isMatch s data p.entries = some (decide (p.Matches s data)) := by
  obtain ⟨es⟩ := p
  induction es with
  | nil => simp [isMatch, Matches]
  | cons e es ih =>
    obtain ⟨he, hes⟩ := List.forall_mem_cons.mp h
    rw [isMatch, if_pos he]
    split
    · rename_i hc
      rw [ih hes, Option.some_inj, decide_eq_decide, matches_cons]
      exact (and_iff_right hc).symm
    · rename_i hc
      rw [Option.some_inj, eq_comm, decide_eq_false_iff_not, matches_cons]
      exact fun h => hc h.1

theorem Valid.columns {s : Schema} {p : ColumnPredicates} (h : p.Valid s) :
    s.ValidColumns p.columnIds := by
  intro id hid
  obtain ⟨e, he, rfl⟩ := List.mem_map.mp hid
  exact (h e he).1

/-- The data symbol of a predicate is the key symbol of exactly the records it matches. -/
theorem getPredicateDataSymbol_eq_iff {s : Schema} (hs : s.Layout) {p : ColumnPredicates}
    (hp : p.Valid s) {data : Bytes} (hd : data.length = s.getSchemaSize) :
    p.getPredicateDataSymbol s = s.getKeySymbol data p.columnIds ↔ p.Matches s data := by
  obtain ⟨es⟩ := p
  induction es with
  | nil => simp [getPredicateDataSymbol, Schema.getKeySymbol, columnIds, Matches]
  | cons e es ih =>
    obtain ⟨he, hes⟩ := List.forall_mem_cons.mp hp
    have hlen : (e.2.take (s.getColumnSize e.1)).length = (s.getColumn data e.1).length := by
      rw [Schema.getColumn_length hs hd he.1, List.length_take]
      omega
    have ih := ih hes
    simp only [getPredicateDataSymbol, Schema.getKeySymbol, columnIds, Matches, List.map_cons,
      List.flatMap_cons, List.forall_mem_cons] at ih ⊢
    rw [← ih]
    constructor
    · intro h
      exact List.append_inj h hlen
    · rintro ⟨h1, h2⟩
      rw [h1, h2]

end ColumnPredicates

namespace ColumnPredicate

/-- The single-column overloads do what the general ones do on a list of one entry. -/
def toPredicates (p : ColumnPredicate) : ColumnPredicates := ⟨[(p.columnId, p.value)]⟩

end ColumnPredicate

end ImdbD.StorageEngine
