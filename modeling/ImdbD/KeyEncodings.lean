import ImdbD.SchemaTable

/-!
# Key encodings

The keys of records and of predicates are written by separate loops: one over
the primary columns, one over the columns of an index, one over the columns of a
predicate. All three fill a buffer of the length computed before with the bytes
of the columns in order, so equal keys over one list of columns mean equal
columns. The list itself is kept as a string of words and read back from it.
-/
namespace ImdbD.StorageEngine
open ByteMemory

inductive IndexType where
  | hashmap | btree
  deriving DecidableEq

/-- The kind of an index and its array of column ids. -/
structure IndexInfo where
  indexType : IndexType
  columnIds : List ℕ

def IndexInfo.getSerializedSymbol (index : IndexInfo) : Bytes := sizeWords index.columnIds

/-- The overload for one column. -/
def ColumnPredicate.getPredicateDataSymbol (s : Schema) (param : ColumnPredicate) : Bytes :=
  param.value.take (s.getColumnSize param.columnId)

namespace Schema
variable {s : Schema} {data data' : Bytes} {cols : List ℕ}

/-- The length of the buffer for a key over a list of columns. -/
def getKeyLength (s : Schema) (indexCols : List ℕ) : ℕ := (indexCols.map s.getColumnSize).sum

/-- The loop of `getKeySymbol` fills its buffer. -/
theorem getKeySymbol_length (h : Layout s) (hd : data.length = s.getSchemaSize)
    (hc : s.ValidColumns cols) : (s.getKeySymbol data cols).length = s.getKeyLength cols := by
  rw [getKeySymbol, List.length_flatMap, getKeyLength]
  congr 1
  apply List.map_congr_left
  intro c hcm
  exact getColumn_length h hd (hc c hcm)

private theorem getPredicateDataSymbol_length {params : ColumnPredicates} (hp : params.Valid s) :
    (params.getPredicateDataSymbol s).length = s.getKeyLength params.columnIds := by
  rw [ColumnPredicates.getPredicateDataSymbol, List.length_flatMap, getKeyLength,
    ColumnPredicates.columnIds, List.map_map]
  congr 1
  apply List.map_congr_left
  intro e he
  have hle := (hp e he).2
  simp only [Function.comp_apply, List.length_take]
  omega

private theorem Layout.mem_primaryCols (h : Layout s) {id : ℕ} : id ∈ s.primaryCols ↔
    ∃ c, s.columns[id]? = some c ∧ c.isPrimary = true := by
  rw [h.primary, List.mem_filter, List.mem_range]
  constructor
  · rintro ⟨hlt, hp⟩
    rw [List.getElem?_eq_getElem hlt] at hp
    exact ⟨_, List.getElem?_eq_getElem hlt, by simpa using hp⟩
  · rintro ⟨c, hc, hp⟩
    exact ⟨(List.getElem?_eq_some_iff.mp hc).1, by simp [hc, hp]⟩

/-- Primary columns of at least one byte make a key of at least one byte. -/
theorem Layout.primaryKeyLength_ne (h : Layout s) (hsizes : ∀ c ∈ s.columns, 1 ≤ c.columnSize)
    (hp : s.primaryColNum ≠ 0) : s.primaryKeyLength ≠ 0 := by
  rw [h.colNum] at hp
  obtain ⟨id, ids, hids⟩ := List.exists_cons_of_ne_nil (List.ne_nil_of_length_pos
    (Nat.pos_of_ne_zero hp))
  have hid : id < s.columns.length := by
    rw [← h.count]
    exact h.primary_lt (hids ▸ List.mem_cons_self)
  have hone := hsizes _ (List.getElem_mem hid)
  rw [h.keyLength, h.sizes, hids, List.map_cons, List.sum_cons]
  simp only [getColumnSize, List.getElem?_eq_getElem hid, Option.map_some, Option.getD_some]
  omega

private theorem Layout.getPrimaryKeySymbol_whole (h : Layout s) (hd : data.length = s.getSchemaSize)
    (hp : s.primaryColNum = 0) : s.getPrimaryKeySymbol data = data := by
  have hcols : s.primaryCols = [] := List.length_eq_zero_iff.mp (h.colNum ▸ hp)
  have hkey : s.primaryKeyLength = 0 := by rw [h.keyLength, h.sizes, hcols, List.map_nil,
    List.sum_nil]
  rw [getPrimaryKeySymbol, if_pos hkey, List.take_of_length_le hd.le]

/-- The column ids that an index can have been given are words. -/
def Words (ids : List ℕ) : Prop := ∀ id ∈ ids, id < 2 ^ 64

end Schema

/-- The encodings of keys over one schema agree with each other and with the bytes they encode. -/
structure KeysAgree (s : Schema) : Prop where
  filled : ∀ (cols : List ℕ) (data : Bytes), s.ValidColumns cols →
    data.length = s.getSchemaSize → (s.getKeySymbol data cols).length = s.getKeyLength cols
  predicateFilled : ∀ params : ColumnPredicates, params.Valid s →
    (params.getPredicateDataSymbol s).length = s.getKeyLength params.columnIds
  predicate : ∀ (params : ColumnPredicates) (data : Bytes), params.Valid s →
    data.length = s.getSchemaSize →
    (params.getPredicateDataSymbol s = s.getKeySymbol data params.columnIds ↔
      ∀ e ∈ params.entries, e.2.take (s.getColumnSize e.1) = s.getColumn data e.1)
  predicateColumn : ∀ (param : ColumnPredicate) (data : Bytes), param.toPredicates.Valid s →
    data.length = s.getSchemaSize →
    (param.getPredicateDataSymbol s = s.getKeySymbol data [param.columnId] ↔
      param.value.take (s.getColumnSize param.columnId) = s.getColumn data param.columnId)
  primary : s.primaryColNum ≠ 0 → ∀ data data' : Bytes, data.length = s.getSchemaSize →
    data'.length = s.getSchemaSize → (s.getPrimaryKeySymbol data = s.getPrimaryKeySymbol data' ↔
      ∀ id c, s.columns[id]? = some c → c.isPrimary = true →
        s.getColumn data id = s.getColumn data' id)
  primaryList : s.primaryColNum ≠ 0 → ∀ data : Bytes,
    s.getKeySymbol data s.primaryCols = s.getPrimaryKeySymbol data
  whole : s.primaryColNum = 0 → ∀ data : Bytes, data.length = s.getSchemaSize →
    s.getPrimaryKeySymbol data = data
  decoded : ∀ index : IndexInfo, Schema.Words index.columnIds →
    SchemaTable.indexCols index.getSerializedSymbol = index.columnIds
  symbol : ∀ (index : IndexInfo) (params : ColumnPredicates), Schema.Words index.columnIds →
    Schema.Words params.columnIds →
    (params.getPredicateColumnSymbol = index.getSerializedSymbol ↔
      params.columnIds = index.columnIds)

/-- For every schema with columns of at least one byte, the keys of records, of predicates and of
indexes agree. -/
theorem keysAgree {s : Schema} (hs : s.Built) (hsizes : ∀ c ∈ s.columns, 1 ≤ c.columnSize) :
    KeysAgree s where
  filled _ _ hc hd := Schema.getKeySymbol_length hs.layout hd hc
  predicateFilled _ hp := Schema.getPredicateDataSymbol_length hp
  predicate _ _ hp hd := ColumnPredicates.getPredicateDataSymbol_eq_iff hs.layout hp hd
  predicateColumn param data _ _ := by
    rw [ColumnPredicate.getPredicateDataSymbol, Schema.getKeySymbol, List.flatMap_singleton]
  primary hp data data' hd hd' := by
    have hk := hs.layout.primaryKeyLength_ne hsizes hp
    rw [hs.layout.getPrimaryKeySymbol_eq hk, hs.layout.getPrimaryKeySymbol_eq hk,
      Schema.getKeySymbol_eq_iff hs.layout hd hd' (fun _ => hs.layout.primary_lt)]
    constructor
    · intro h id c hc hprimary
      exact h id (hs.layout.mem_primaryCols.mpr ⟨c, hc, hprimary⟩)
    · intro h id hid
      obtain ⟨c, hc, hprimary⟩ := hs.layout.mem_primaryCols.mp hid
      exact h id c hc hprimary
  primaryList hp data :=
    (hs.layout.getPrimaryKeySymbol_eq (hs.layout.primaryKeyLength_ne hsizes hp) data).symm
  whole hp _ hd := hs.layout.getPrimaryKeySymbol_whole hd hp
  decoded index hw := readSizeWords_sizeWords index.columnIds hw
  symbol _ _ hw hp := ⟨sizeWords_injective hp hw, congrArg sizeWords⟩

/-- A primary column of one byte and a text column of two. -/
def textSchema : Schema :=
  ⟨[⟨"key", .int8, 1, 0, true⟩, ⟨"text", .varchar, 2, 1, false⟩], 2, 3, 1, 1, [0], [1]⟩

private theorem textSchema_built : textSchema.Built :=
  .insertColumn ⟨"text", .varchar, 2, 0, false⟩
    (.insertColumn ⟨"key", .int8, 1, 0, true⟩ .empty rfl) rfl

theorem keysAgree_textSchema : KeysAgree textSchema := keysAgree textSchema_built (by decide)

/-- One column that is not primary. -/
def plainSchema : Schema := ⟨[⟨"value", .int8, 1, 0, false⟩], 1, 1, 0, 0, [], []⟩

private theorem plainSchema_built : plainSchema.Built :=
  .insertColumn ⟨"value", .int8, 1, 0, false⟩ .empty rfl

/-- Two records without primary columns differ in their key, which is the whole record; and the key
over the empty list of primary columns is empty. -/
theorem plainSchema_keys : plainSchema.Built ∧ (∀ c ∈ plainSchema.columns, 1 ≤ c.columnSize) ∧
    (∀ id ∈ plainSchema.primaryCols, plainSchema.getColumn [1] id = plainSchema.getColumn [2] id) ∧
    plainSchema.getPrimaryKeySymbol [1] ≠ plainSchema.getPrimaryKeySymbol [2] ∧
    plainSchema.getKeySymbol [1] plainSchema.primaryCols ≠ plainSchema.getPrimaryKeySymbol [1] :=
  ⟨plainSchema_built, by decide, by decide, by decide, by decide⟩

end ImdbD.StorageEngine
