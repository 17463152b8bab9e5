import ImdbD.TableIterator

/-!
# Schema tables

A schema table keeps its records in a base table and their addresses in one
unique index over the primary columns and in any number of multi-indexes. Which
path a selection takes is decided by comparing column symbols. A result `none`
stands for a failed assertion, a read through `NULL` or an access outside the
blocks.
-/
namespace ImdbD.StorageEngine
open ByteMemory

/-- `concurrent_hash_map` from keys to addresses. -/
structure TBBUniqueIndex where
  map : Bytes → Option Ptr

namespace TBBUniqueIndex

def empty : TBBUniqueIndex := ⟨fun _ => none⟩

/-- `map.insert` leaves the entry of a key that is already there. -/
def insertRecord (index : TBBUniqueIndex) (key : Bytes) (ptr : Ptr) : TBBUniqueIndex :=
  ⟨fun k => if k = key then some ((index.map key).getD ptr) else index.map k⟩

def deleteRecord (index : TBBUniqueIndex) (key : Bytes) : TBBUniqueIndex :=
  ⟨fun k => if k = key then none else index.map k⟩

def searchRecord (index : TBBUniqueIndex) (key : Bytes) : Option Ptr := index.map key

end TBBUniqueIndex

/-- `concurrent_unordered_multimap`, with its entries in one of the orders in which a traversal may
meet them; `SameEntries` has the others. -/
structure TBBMultiIndex where
  map : List (Bytes × Ptr)

namespace TBBMultiIndex

def empty : TBBMultiIndex := ⟨[]⟩

def insertRecord (index : TBBMultiIndex) (key : Bytes) (ptr : Ptr) : TBBMultiIndex :=
  ⟨(key, ptr) :: index.map⟩

/-- `unsafe_erase` by key removes the whole group. -/
def deleteRecord (index : TBBMultiIndex) (key : Bytes) : TBBMultiIndex :=
  ⟨index.map.filter (fun e => e.1 ≠ key)⟩

def searchRecord (index : TBBMultiIndex) (key : Bytes) : Option Ptr :=
  (index.map.find? (fun e => e.1 = key)).map Prod.snd

def searchRecords (index : TBBMultiIndex) (key : Bytes) : List Ptr :=
  (index.map.filter (fun e => e.1 = key)).map Prod.snd

end TBBMultiIndex

/-- The result of a selection: the filled part of `data_ptrs` and its capacity. -/
structure Records where
  dataPtrs : List Ptr
  allocatedRecordNum : ℕ

namespace Records

/-- Append an address and double the array when it is full. -/
def insertRecord (r : Records) (record : Ptr) : Option Records :=
  if r.dataPtrs.length < r.allocatedRecordNum then
    some ⟨r.dataPtrs ++ [record],
      if r.dataPtrs.length + 1 = r.allocatedRecordNum then r.allocatedRecordNum * 2
      else r.allocatedRecordNum⟩
  else none

end Records

/-- `primarySymbol` and `primaryIndex` are the pair `primary_index_ptr`, with `none` for `NULL`. -/
structure SchemaTable where
  base : BaseTable
  schema : Schema
  primarySymbol : Bytes
  primaryIndex : Option TBBUniqueIndex
  secondaryIndexes : List (Bytes × TBBMultiIndex)

namespace SchemaTable

/-- `secondary_index_ptrs[symbol] = new TBBMultiIndex()`. -/
def registerIndex (indexes : List (Bytes × TBBMultiIndex)) (columnIds : List ℕ) :
    List (Bytes × TBBMultiIndex) :=
  (sizeWords columnIds, TBBMultiIndex.empty) ::
    indexes.filter (fun e => e.1 ≠ sizeWords columnIds)

/-- The constructor, from the schema and the column ids of each `IndexInfo`. -/
def new (schema : Schema) (indexes : List (List ℕ)) : SchemaTable where
  base := BaseTable.new schema.getSchemaSize
  schema := schema
  primarySymbol := if schema.primaryColNum ≠ 0 then schema.getPrimaryColumnSymbol else []
  primaryIndex := if schema.primaryColNum ≠ 0 then some TBBUniqueIndex.empty else none
  secondaryIndexes := indexes.foldl registerIndex []

def getTableSize (t : SchemaTable) : ℕ := t.base.getTableSize

/-- The columns of a multi-index, copied back from its symbol. -/
def indexCols (symbol : Bytes) : List ℕ := readSizeWords symbol

/-- `f` applied to every multi-index and the key that a record has in it; an index over a column
that does not exist fails. -/
def mapSecondary (t : SchemaTable) (data : Bytes)
    (f : TBBMultiIndex → Bytes → TBBMultiIndex) : Option (List (Bytes × TBBMultiIndex)) :=
  if ∀ e ∈ t.secondaryIndexes, t.schema.ValidColumns (indexCols e.1) then
    some (t.secondaryIndexes.map
      (fun e => (e.1, f e.2 (t.schema.getKeySymbol data (indexCols e.1)))))
  else none

/-- The part of `insertRecord` after the base table: enter the record's keys with its address. -/
def insertIndexes (t : SchemaTable) (data : Bytes) (address : Ptr) : Option SchemaTable :=
  (t.mapSecondary data (fun index key => index.insertRecord key address)).map (fun secondary =>
    { t with
      primaryIndex := t.primaryIndex.map
        (fun index => index.insertRecord (t.schema.getPrimaryKeySymbol data) address)
      secondaryIndexes := secondary })

/-- `SchemaTable::insertRecord(const char*)`. -/
def insertRecord (t : SchemaTable) (data : Bytes) : Option SchemaTable :=
  (t.base.insertRecord data).bind (fun r => { t with base := r.1 }.insertIndexes data r.2)

/-- `SchemaTable::insertRecord(const Record&)`, which first compares the schemas. -/
def insertRecordOf (t : SchemaTable) (recordSchema : Schema) (data : Bytes) : Option SchemaTable :=
  if t.schema = recordSchema then t.insertRecord data else none

/-- The part of `deleteRecord` after the base table: the keys are read from the slot that has just
been given back, and erased. -/
def deleteIndexes (t : SchemaTable) (record : Ptr) : Option SchemaTable :=
  (t.mapSecondary (t.base.recordAt record) TBBMultiIndex.deleteRecord).map (fun secondary =>
    { t with
      primaryIndex := t.primaryIndex.map (fun index =>
        index.deleteRecord (t.schema.getPrimaryKeySymbol (t.base.recordAt record)))
      secondaryIndexes := secondary })

def deleteRecord (t : SchemaTable) (record : Ptr) : Option SchemaTable :=
  (t.base.deleteRecord record).bind (fun base => { t with base := base }.deleteIndexes record)

/-- `updateRecord(record, ColumnPredicate)`: the indexes are left as they are. -/
def updateRecordColumn (t : SchemaTable) (record : Ptr) (param : ColumnPredicate) :
    Option SchemaTable :=
  if param.columnId < t.schema.columnCount ∧
      t.schema.getColumnSize param.columnId ≤ param.value.length then
    (t.base.store (record.add (t.schema.getColumnOffset param.columnId))
      (param.value.take (t.schema.getColumnSize param.columnId))).map
        (fun base => { t with base := base })
  else none

/-- `updateRecord(record, ColumnPredicates)`: one column after another. -/
def updateRecordColumns (t : SchemaTable) (record : Ptr) (params : ColumnPredicates) :
    Option SchemaTable :=
  params.entries.foldlM (fun t e => t.updateRecordColumn record ⟨e.1, e.2⟩) t

/-- `updateRecord(records, record_id, ColumnPredicate)`. -/
def updateRecordsColumn (t : SchemaTable) (records : List Ptr) (recordId : ℕ)
    (param : ColumnPredicate) : Option SchemaTable :=
  records[recordId]?.bind (fun record => t.updateRecordColumn record param)

/-- `updateRecord(records, record_id, ColumnPredicates)`. -/
def updateRecordsColumns (t : SchemaTable) (records : List Ptr) (recordId : ℕ)
    (params : ColumnPredicates) : Option SchemaTable :=
  records[recordId]?.bind (fun record => t.updateRecordColumns record params)

/-- The body of the scan in `selectRecord`: return the first record that matches. -/
def scanRecordBody (t : SchemaTable) (params : ColumnPredicates) (acc : Option (Option Ptr))
    (record : Ptr) : Option (Option Ptr) × Bool :=
  match ColumnPredicates.isMatch t.schema (t.base.recordAt record) params.entries with
  | some true => (some (some record), true)
  | some false => (acc, false)
  | none => (none, true)

/-- The scan branch of `selectRecord`. -/
def scanRecord (t : SchemaTable) (params : ColumnPredicates) : Option (Option Ptr) :=
  (t.base.getIterator.bind
    (TableIterator.whileNext t.base (t.scanRecordBody params) (some none))).bind id

/-- The body of the scan in `selectRecords`: collect the records that match. -/
def scanRecordsBody (t : SchemaTable) (params : ColumnPredicates) (acc : Option Records)
    (record : Ptr) : Option Records × Bool :=
  match ColumnPredicates.isMatch t.schema (t.base.recordAt record) params.entries with
  | some true => (acc.bind (fun r => r.insertRecord record), false)
  | some false => (acc, false)
  | none => (none, true)

/-- The scan branch of `selectRecords`. -/
def scanRecords (t : SchemaTable) (params : ColumnPredicates) : Option Records :=
  (t.base.getIterator.bind
    (TableIterator.whileNext t.base (t.scanRecordsBody params) (some ⟨[], kFetchSize⟩))).bind id

def secondaryIndex (t : SchemaTable) (symbol : Bytes) : Option TBBMultiIndex :=
  t.secondaryIndexes.lookup symbol

/-- `selectRecord(primary_key)`. -/
def selectRecordKey (t : SchemaTable) (primaryKey : Bytes) : Option (Option Ptr) :=
  t.primaryIndex.map (fun index => index.searchRecord primaryKey)

/-- `selectRecord(ColumnPredicates)`. -/
def selectRecordColumns (t : SchemaTable) (params : ColumnPredicates) : Option (Option Ptr) :=
  if params.getPredicateColumnSymbol = t.primarySymbol then
    if params.Valid t.schema then
      t.primaryIndex.map (fun index =>
        index.searchRecord (params.getPredicateDataSymbol t.schema))
    else none
  else match t.secondaryIndex params.getPredicateColumnSymbol with
    | some index =>
      if params.Valid t.schema then
        some (index.searchRecord (params.getPredicateDataSymbol t.schema))
      else none
    | none => t.scanRecord params

/-- `selectRecord(ColumnPredicate)`. -/
def selectRecordColumn (t : SchemaTable) (param : ColumnPredicate) : Option (Option Ptr) :=
  t.selectRecordColumns param.toPredicates

/-- `selectRecords(ColumnPredicates)`. -/
def selectRecordsColumns (t : SchemaTable) (params : ColumnPredicates) : Option Records :=
  match t.secondaryIndex params.getPredicateColumnSymbol with
  | some index =>
    if params.Valid t.schema then
      let recordPtrs := index.searchRecords (params.getPredicateDataSymbol t.schema)
      some ⟨recordPtrs, recordPtrs.length⟩
    else none
  | none => t.scanRecords params

/-- `selectRecords(ColumnPredicate)`. -/
def selectRecordsColumn (t : SchemaTable) (param : ColumnPredicate) : Option Records :=
  t.selectRecordsColumns param.toPredicates

/-- A `hasNext`/`next` loop of `getSchemaTableIterator` that collects every record. -/
def iterate (t : SchemaTable) : Option (List Ptr) :=
  t.base.getIterator.bind
    (TableIterator.whileNext t.base (fun acc record => (acc ++ [record], false)) [])

section Scan
variable {t : SchemaTable} {live : List Ptr} {params : ColumnPredicates}

/-- The record at an address has the bytes of the predicate. -/
def Selects (t : SchemaTable) (params : ColumnPredicates) (record : Ptr) : Prop :=
  params.Matches t.schema (t.base.recordAt record)

instance (t : SchemaTable) (params : ColumnPredicates) (record : Ptr) :
    Decidable (t.Selects params record) := inferInstanceAs (Decidable (params.Matches _ _))

private theorem isMatch_selects (hp : params.Valid t.schema) (record : Ptr) :
    ColumnPredicates.isMatch t.schema (t.base.recordAt record) params.entries =
      some (decide (t.Selects params record)) :=
  ColumnPredicates.isMatch_eq hp _

private theorem foldUntil_scanRecord (hp : params.Valid t.schema) (ps : List Ptr) :
    TableIterator.foldUntil (t.scanRecordBody params) (some none) ps =
      some (ps.find? (fun p => decide (t.Selects params p))) := by
  induction ps with
  | nil => rfl
  | cons p ps ih =>
    by_cases hm : t.Selects params p
    · simp [TableIterator.foldUntil, scanRecordBody, isMatch_selects hp, hm]
    · simp [TableIterator.foldUntil, scanRecordBody, isMatch_selects hp, hm, ih]

theorem scanRecord_eq (h : t.base.Heap live) (hne : t.base.blocks.length ≠ 0)
    (hp : params.Valid t.schema) : t.scanRecord params =
      some (t.base.recordPtrs.find? (fun p => decide (t.Selects params p))) := by
  rw [scanRecord, TableIterator.whileNext_getIterator h.grid hne, foldUntil_scanRecord hp]
  rfl

/-- The array of a growing result always has room for one more address. -/
private theorem Records.insertRecord_room {r : Records} (hr : r.dataPtrs.length < r.allocatedRecordNum)
    (p : Ptr) : ∃ r', r.insertRecord p = some r' ∧ r'.dataPtrs = r.dataPtrs ++ [p] ∧
      r'.dataPtrs.length < r'.allocatedRecordNum := by
  refine ⟨_, by rw [Records.insertRecord, if_pos hr], rfl, ?_⟩
  simp only [List.length_append, List.length_singleton]
  split <;> omega

private theorem foldUntil_scanRecords (hp : params.Valid t.schema) (ps : List Ptr) {r : Records}
    (hr : r.dataPtrs.length < r.allocatedRecordNum) :
    ∃ r', TableIterator.foldUntil (t.scanRecordsBody params) (some r) ps = some r' ∧
      r'.dataPtrs = r.dataPtrs ++ ps.filter (fun p => decide (t.Selects params p)) := by
  induction ps generalizing r with
  | nil => exact ⟨r, rfl, by simp⟩
  | cons p ps ih =>
    by_cases hm : t.Selects params p
    · obtain ⟨r₁, hr₁, hd₁, hroom⟩ := Records.insertRecord_room hr p
      obtain ⟨r', hr', hd'⟩ := ih hroom
      refine ⟨r', ?_, by simp [hd', hd₁, hm]⟩
      simpa [TableIterator.foldUntil, scanRecordsBody, isMatch_selects hp, hm, hr₁] using hr'
    · obtain ⟨r', hr', hd'⟩ := ih hr
      refine ⟨r', ?_, by simp [hd', hm]⟩
      simpa [TableIterator.foldUntil, scanRecordsBody, isMatch_selects hp, hm] using hr'

theorem scanRecords_eq (h : t.base.Heap live) (hne : t.base.blocks.length ≠ 0)
    (hp : params.Valid t.schema) : ∃ r, t.scanRecords params = some r ∧
      r.dataPtrs = t.base.recordPtrs.filter (fun p => decide (t.Selects params p)) := by
  have hroom : (⟨[], kFetchSize⟩ : Records).dataPtrs.length < kFetchSize := by simp [kFetchSize]
  obtain ⟨r, hr, hd⟩ := foldUntil_scanRecords hp t.base.recordPtrs hroom
  refine ⟨r, ?_, by simpa using hd⟩
  rw [scanRecords, TableIterator.whileNext_getIterator h.grid hne]
  exact hr

private theorem foldUntil_collect (ps acc : List Ptr) :
    TableIterator.foldUntil (fun acc record => (acc ++ [record], false)) acc ps = acc ++ ps := by
  induction ps generalizing acc with
  | nil => simp [TableIterator.foldUntil]
  | cons p ps ih => simp [TableIterator.foldUntil, ih]

theorem iterate_eq (h : t.base.Heap live) (hne : t.base.blocks.length ≠ 0) :
    t.iterate = some t.base.recordPtrs := by
  rw [iterate, TableIterator.whileNext_getIterator h.grid hne, foldUntil_collect]
  rfl

end Scan

end SchemaTable
end ImdbD.StorageEngine
