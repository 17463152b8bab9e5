import ImdbD.SchemaTable
import ImdbD.GuardedRun

/-!
# Sessions of one client with one table

A session keeps the slots of the live records beside the table, as a client
does who holds on to the addresses of its records. Operations name live records
by their place in that list. For every operation it is said once what the table,
its indexes and the bytes of the live records are afterwards.
-/
namespace ImdbD.StorageEngine
open ByteMemory GuardedRun

/-- `live` lists the slots of the live records, the latest first. -/
structure Session where
  table : SchemaTable
  live : List Ptr

/-- Calls of the table; a number stands for the live record at that place of the list. -/
inductive Op where
  | insertRecord (data : Bytes)
  | insertRecordOf (recordSchema : Schema) (data : Bytes)
  | deleteRecord (i : ℕ)
  | updateRecordColumn (i : ℕ) (param : ColumnPredicate)
  | updateRecordColumns (i : ℕ) (params : ColumnPredicates)
  | updateRecordsColumn (is : List ℕ) (recordId : ℕ) (param : ColumnPredicate)
  | updateRecordsColumns (is : List ℕ) (recordId : ℕ) (params : ColumnPredicates)

/-- The live record an update works on and the columns it writes. -/
def Op.target {α : Type*} (live : List α) : Op → Option (α × ColumnPredicates)
  | .updateRecordColumn i param => live[i]?.map (fun p => (p, param.toPredicates))
  | .updateRecordColumns i params => live[i]?.map (fun p => (p, params))
  | .updateRecordsColumn is recordId param =>
    (is.mapM (fun i => live[i]?)).bind
      (fun ps => ps[recordId]?.map (fun p => (p, param.toPredicates)))
  | .updateRecordsColumns is recordId params =>
    (is.mapM (fun i => live[i]?)).bind (fun ps => ps[recordId]?.map (fun p => (p, params)))
  | _ => none

/-- The record that an operation inserts. -/
def Op.inserted : Op → Option Bytes
  | .insertRecord data | .insertRecordOf _ data => some data
  | _ => none

namespace Schema

/-- The columns of a predicate written into a record, one after another. -/
def setColumns (s : Schema) (data : Bytes) (entries : List (ℕ × Bytes)) : Bytes :=
  entries.foldl (fun d e => s.setColumn d e.1 e.2) data

theorem Layout.setColumns_length {s : Schema} (h : s.Layout) {data : Bytes}
    (hd : data.length = s.getSchemaSize) {p : ColumnPredicates} (hp : p.Valid s) :
    (s.setColumns data p.entries).length = s.getSchemaSize := by
  obtain ⟨es⟩ := p
  induction es generalizing data with
  | nil => exact hd
  | cons e es ih =>
    obtain ⟨he, hes⟩ := List.forall_mem_cons.mp hp
    exact ih (h.setColumn_length hd he.1) hes

/-- Writing columns outside a list of columns leaves the key over that list alone. -/
theorem Layout.getKeySymbol_setColumns {s : Schema} (h : s.Layout) {data : Bytes}
    (hd : data.length = s.getSchemaSize) {p : ColumnPredicates} (hp : p.Valid s) {cols : List ℕ}
    (hcols : s.ValidColumns cols) (hne : ∀ id ∈ p.columnIds, id ∉ cols) :
    s.getKeySymbol (s.setColumns data p.entries) cols = s.getKeySymbol data cols := by
  obtain ⟨es⟩ := p
  induction es generalizing data with
  | nil => rfl
  | cons e es ih =>
    obtain ⟨he, hes⟩ := List.forall_mem_cons.mp hp
    obtain ⟨hn, hns⟩ := List.forall_mem_cons.mp hne
    exact (ih (h.setColumn_length hd he.1) hes hns).trans
      (h.getKeySymbol_setColumn hd he.1 hcols hn)

end Schema

namespace Session

def new (schema : Schema) (indexes : List (List ℕ)) : Session := ⟨SchemaTable.new schema indexes, []⟩

/-- The bytes of the record in a slot. -/
def bytes (s : Session) (slot : Ptr) : Bytes := s.table.base.recordAt (slot.add kRecordHeaderSize)

/-- The primary key of the record in a slot. -/
def primaryKey (s : Session) (slot : Ptr) : Bytes :=
  s.table.schema.getPrimaryKeySymbol (s.bytes slot)

/-- The slots a list of numbers stands for. -/
def slots (s : Session) (is : List ℕ) : Option (List Ptr) := is.mapM (fun i => s.live[i]?)

/-- The slot an update works on and the columns it writes. -/
def updateTarget (s : Session) (op : Op) : Option (Ptr × ColumnPredicates) := op.target s.live

def step (s : Session) : Op → Option Session
  | .insertRecord data =>
    (s.table.base.insertRecord data).bind (fun r => (s.table.insertRecord data).map
      (fun t => ⟨t, r.2.sub kRecordHeaderSize :: s.live⟩))
  | .insertRecordOf recordSchema data =>
    (s.table.base.insertRecord data).bind (fun r => (s.table.insertRecordOf recordSchema data).map
      (fun t => ⟨t, r.2.sub kRecordHeaderSize :: s.live⟩))
  | .deleteRecord i =>
    s.live[i]?.bind (fun p => (s.table.deleteRecord (p.add kRecordHeaderSize)).map
      (fun t => ⟨t, s.live.eraseIdx i⟩))
  | .updateRecordColumn i param =>
    s.live[i]?.bind (fun p => (s.table.updateRecordColumn (p.add kRecordHeaderSize) param).map
      (fun t => ⟨t, s.live⟩))
  | .updateRecordColumns i params =>
    s.live[i]?.bind (fun p => (s.table.updateRecordColumns (p.add kRecordHeaderSize) params).map
      (fun t => ⟨t, s.live⟩))
  | .updateRecordsColumn is recordId param =>
    (s.slots is).bind (fun ps => (s.table.updateRecordsColumn
      (ps.map (fun p => p.add kRecordHeaderSize)) recordId param).map (fun t => ⟨t, s.live⟩))
  | .updateRecordsColumns is recordId params =>
    (s.slots is).bind (fun ps => (s.table.updateRecordsColumns
      (ps.map (fun p => p.add kRecordHeaderSize)) recordId params).map (fun t => ⟨t, s.live⟩))

/-- The four updates are one: write some columns of one live record. -/
theorem step_update (s : Session) {op : Op} {p : Ptr} {params : ColumnPredicates}
    (h : s.updateTarget op = some (p, params)) :
    s.step op = (s.table.updateRecordColumns (p.add kRecordHeaderSize) params).map
      (fun t => ⟨t, s.live⟩) := by
  have hone : ∀ (q : Ptr) (param : ColumnPredicate),
      s.table.updateRecordColumns q param.toPredicates = s.table.updateRecordColumn q param := by
    intro q param
    simp [SchemaTable.updateRecordColumns, ColumnPredicate.toPredicates]
  cases op with
  | insertRecord | insertRecordOf | deleteRecord => cases h
  | updateRecordColumn i param =>
    obtain ⟨q, hq, he⟩ := Option.map_eq_some_iff.mp h
    cases he
    simp [step, hq, hone]
  | updateRecordColumns i params =>
    obtain ⟨q, hq, he⟩ := Option.map_eq_some_iff.mp h
    cases he
    simp [step, hq]
  | updateRecordsColumn is recordId param =>
    obtain ⟨ps, hps, h⟩ := Option.bind_eq_some_iff.mp h
    obtain ⟨q, hq, he⟩ := Option.map_eq_some_iff.mp h
    cases he
    simp [step, slots, hps, SchemaTable.updateRecordsColumn, hq, hone]
  | updateRecordsColumns is recordId params =>
    obtain ⟨ps, hps, h⟩ := Option.bind_eq_some_iff.mp h
    obtain ⟨q, hq, he⟩ := Option.map_eq_some_iff.mp h
    cases he
    simp [step, slots, hps, SchemaTable.updateRecordsColumns, hq]

theorem updateTarget_mem {s : Session} {op : Op} {p : Ptr} {params : ColumnPredicates}
    (h : s.updateTarget op = some (p, params)) : p ∈ s.live := by
  have hslots : ∀ {is : List ℕ} {ps : List Ptr}, is.mapM (fun i => s.live[i]?) = some ps →
      ∀ q ∈ ps, q ∈ s.live := by
    intro is ps hps q hq
    induction is generalizing ps with
    | nil =>
      cases hps
      cases hq
    | cons i is ih =>
      simp only [List.mapM_cons, Option.bind_eq_bind, Option.bind_eq_some_iff] at hps
      obtain ⟨r, hr, rs, hrs, he⟩ := hps
      cases he
      rcases List.mem_cons.mp hq with rfl | hm
      · exact List.mem_of_getElem? hr
      · exact ih hrs hm
  cases op with
  | insertRecord | insertRecordOf | deleteRecord => cases h
  | updateRecordColumn i param | updateRecordColumns i params =>
    obtain ⟨q, hq, he⟩ := Option.map_eq_some_iff.mp h
    cases he
    exact List.mem_of_getElem? hq
  | updateRecordsColumn is recordId param | updateRecordsColumns is recordId params =>
    obtain ⟨ps, hps, h⟩ := Option.bind_eq_some_iff.mp h
    obtain ⟨q, hq, he⟩ := Option.map_eq_some_iff.mp h
    cases he
    exact hslots hps _ (List.mem_of_getElem? hq)

/-- The schema and the index symbols of a table, which no operation changes. -/
structure Sound (t : SchemaTable) : Prop where
  layout : t.schema.Layout
  recordSize : t.base.recordSize = t.schema.getSchemaSize
  primary : t.primarySymbol =
    if t.schema.primaryColNum ≠ 0 then t.schema.getPrimaryColumnSymbol else []
  primaryIndex : t.primaryIndex.isSome ↔ t.schema.primaryColNum ≠ 0
  secondary : ∀ e ∈ t.secondaryIndexes, ∃ cols, e.1 = sizeWords cols ∧
    t.schema.ValidColumns cols

/-- Between the operations of a session. -/
structure Good (s : Session) : Prop where
  sound : Sound s.table
  heap : s.table.base.Heap s.live

/-- What changes in a table besides its base table and the contents of its indexes: nothing. -/
structure Frame (t u : SchemaTable) : Prop where
  schema : u.schema = t.schema
  primarySymbol : u.primarySymbol = t.primarySymbol
  primaryIndex : u.primaryIndex.isSome = t.primaryIndex.isSome
  secondary : u.secondaryIndexes.map Prod.fst = t.secondaryIndexes.map Prod.fst

theorem Sound.of_frame {t u : SchemaTable} (h : Sound t) (hf : Frame t u)
    (hr : u.base.recordSize = t.base.recordSize) : Sound u where
  layout := hf.schema ▸ h.layout
  recordSize := by rw [hr, hf.schema, h.recordSize]
  primary := by rw [hf.primarySymbol, hf.schema, h.primary]
  primaryIndex := by rw [hf.primaryIndex, hf.schema, h.primaryIndex]
  secondary := by
    intro e he
    have hm : e.1 ∈ t.secondaryIndexes.map Prod.fst := hf.secondary ▸ List.mem_map_of_mem he
    obtain ⟨e', he', hfst⟩ := List.mem_map.mp hm
    obtain ⟨cols, hc, hv⟩ := h.secondary e' he'
    exact ⟨cols, hfst ▸ hc, hf.schema ▸ hv⟩

theorem Sound.indexCols {t : SchemaTable} (h : Sound t) {cols : List ℕ}
    (hc : t.schema.ValidColumns cols) : SchemaTable.indexCols (sizeWords cols) = cols :=
  readSizeWords_sizeWords cols (fun id hid => h.layout.lt_word (hc id hid))

theorem Sound.validColumns {t : SchemaTable} (h : Sound t) {e : Bytes × TBBMultiIndex}
    (he : e ∈ t.secondaryIndexes) : t.schema.ValidColumns (SchemaTable.indexCols e.1) := by
  obtain ⟨cols, hc, hv⟩ := h.secondary e he
  rw [hc, h.indexCols hv]
  exact hv

/-- Index maintenance of a sound table succeeds, whatever has become of its records. -/
theorem Sound.insertIndexes {t : SchemaTable} (h : Sound t) (base : BaseTable) (data : Bytes)
    (address : Ptr) : SchemaTable.insertIndexes { t with base := base } data address =
      some { t with
        base := base
        primaryIndex := t.primaryIndex.map (fun index =>
          index.insertRecord (t.schema.getPrimaryKeySymbol data) address)
        secondaryIndexes := t.secondaryIndexes.map (fun e => (e.1,
          e.2.insertRecord (t.schema.getKeySymbol data (SchemaTable.indexCols e.1)) address)) } := by
  rw [SchemaTable.insertIndexes, SchemaTable.mapSecondary, if_pos (fun _ he => h.validColumns he),
    Option.map_some]

theorem Sound.deleteIndexes {t : SchemaTable} (h : Sound t) (base : BaseTable) (record : Ptr) :
    SchemaTable.deleteIndexes { t with base := base } record =
      some { t with
        base := base
        primaryIndex := t.primaryIndex.map (fun index =>
          index.deleteRecord (t.schema.getPrimaryKeySymbol (base.recordAt record)))
        secondaryIndexes := t.secondaryIndexes.map (fun e => (e.1, e.2.deleteRecord
          (t.schema.getKeySymbol (base.recordAt record) (SchemaTable.indexCols e.1)))) } := by
  rw [SchemaTable.deleteIndexes, SchemaTable.mapSecondary, if_pos (fun _ he => h.validColumns he),
    Option.map_some]

private theorem mem_registered {indexes : List (List ℕ)} {acc : List (Bytes × TBBMultiIndex)}
    {e : Bytes × TBBMultiIndex} (h : e ∈ indexes.foldl SchemaTable.registerIndex acc) :
    e ∈ acc ∨ ∃ cols ∈ indexes, e = (sizeWords cols, TBBMultiIndex.empty) := by
  induction indexes generalizing acc with
  | nil => exact Or.inl h
  | cons cols indexes ih =>
    rcases ih h with hm | ⟨cols', hc, he⟩
    · rcases List.mem_cons.mp hm with rfl | hm
      · exact Or.inr ⟨cols, List.mem_cons_self, rfl⟩
      · exact Or.inl (List.mem_filter.mp hm).1
    · exact Or.inr ⟨cols', List.mem_cons_of_mem _ hc, he⟩

/-- A new table has empty multi-indexes over the given columns. -/
theorem new_secondary {schema : Schema} {indexes : List (List ℕ)} {e : Bytes × TBBMultiIndex}
    (he : e ∈ (SchemaTable.new schema indexes).secondaryIndexes) :
    ∃ cols ∈ indexes, e = (sizeWords cols, TBBMultiIndex.empty) := by
  rcases mem_registered he with hm | h
  · cases hm
  · exact h

theorem Sound.new {schema : Schema} (hs : schema.Layout) {indexes : List (List ℕ)}
    (hi : ∀ cols ∈ indexes, schema.ValidColumns cols) : Sound (SchemaTable.new schema indexes) where
  layout := hs
  recordSize := rfl
  primary := rfl
  primaryIndex := by
    unfold SchemaTable.new
    split <;> simp_all
  secondary := by
    intro e he
    obtain ⟨cols, hc, rfl⟩ := new_secondary he
    exact ⟨cols, rfl, hi cols hc⟩

/-- After inserting `data` into slot `p`. -/
structure Inserted (s : Session) (data : Bytes) (p : Ptr) (s' : Session) : Prop where
  good : Good s'
  frame : Frame s.table s'.table
  fresh : p ∉ s.live
  live : s'.live = p :: s.live
  bytes : s'.bytes p = data
  kept : ∀ q ∈ s.live, s'.bytes q = s.bytes q
  primary : s'.table.primaryIndex = s.table.primaryIndex.map (fun index =>
    index.insertRecord (s.table.schema.getPrimaryKeySymbol data) (p.add kRecordHeaderSize))
  secondary : s'.table.secondaryIndexes = s.table.secondaryIndexes.map (fun e => (e.1,
    e.2.insertRecord (s.table.schema.getKeySymbol data (SchemaTable.indexCols e.1))
      (p.add kRecordHeaderSize)))
  blocks : s'.table.base.blocks.length ≠ 0

/-- After deleting the record of slot `p`, the `i`-th live one. -/
structure Deleted (s : Session) (i : ℕ) (p : Ptr) (s' : Session) : Prop where
  good : Good s'
  frame : Frame s.table s'.table
  at_i : s.live[i]? = some p
  live : s'.live = s.live.eraseIdx i
  erase : s'.live = s.live.erase p
  kept : ∀ q ∈ s.live, s'.bytes q = s.bytes q
  primary : s'.table.primaryIndex = s.table.primaryIndex.map (fun index =>
    index.deleteRecord (s.primaryKey p))
  secondary : s'.table.secondaryIndexes = s.table.secondaryIndexes.map (fun e => (e.1,
    e.2.deleteRecord (s.table.schema.getKeySymbol (s.bytes p) (SchemaTable.indexCols e.1))))
  blocks : s'.table.base.blocks.length = s.table.base.blocks.length

/-- After writing some columns of the record of slot `p`. -/
structure Updated (s : Session) (p : Ptr) (params : ColumnPredicates) (s' : Session) : Prop where
  good : Good s'
  frame : Frame s.table s'.table
  live : s'.live = s.live
  bytes : s'.bytes p = s.table.schema.setColumns (s.bytes p) params.entries
  kept : ∀ q ∈ s.live, q ≠ p → s'.bytes q = s.bytes q
  primary : s'.table.primaryIndex = s.table.primaryIndex
  secondary : s'.table.secondaryIndexes = s.table.secondaryIndexes
  blocks : s'.table.base.blocks.length = s.table.base.blocks.length

variable {s : Session}

theorem Good.bytes_length (h : Good s) {p : Ptr} (hp : p ∈ s.live) :
    (s.bytes p).length = s.table.schema.getSchemaSize := by
  rw [bytes, h.heap.recordAt_length hp, h.sound.recordSize]

theorem Good.new {schema : Schema} (hs : schema.Layout) {indexes : List (List ℕ)}
    (hi : ∀ cols ∈ indexes, schema.ValidColumns cols)
    (hfit : schema.getSchemaSize + kRecordHeaderSize ≤ kBlockSize) :
    Good (Session.new schema indexes) where
  sound := Sound.new hs hi
  heap := BaseTable.Heap.new _ hfit

theorem step_insertRecord (h : Good s) {data : Bytes}
    (hd : data.length = s.table.schema.getSchemaSize) :
    ∃ p s', s.step (.insertRecord data) = some s' ∧ Inserted s data p s' := by
  have hlen : s.table.base.recordSize ≤ data.length := by
    rw [hd, h.sound.recordSize]
  obtain ⟨base, p, hi⟩ := h.heap.insertRecord hlen
  have hframe : Frame s.table { s.table with
      base := base
      primaryIndex := s.table.primaryIndex.map (fun index =>
        index.insertRecord (s.table.schema.getPrimaryKeySymbol data) (p.add kRecordHeaderSize))
      secondaryIndexes := s.table.secondaryIndexes.map (fun e => (e.1,
        e.2.insertRecord (s.table.schema.getKeySymbol data (SchemaTable.indexCols e.1))
          (p.add kRecordHeaderSize))) } :=
    ⟨rfl, rfl, by simp, by simp [Function.comp_def]⟩
  refine ⟨p, ⟨_, p :: s.live⟩, ?_, ⟨h.sound.of_frame hframe hi.recordSize, hi.heap⟩, hframe, hi.fresh,
    rfl, ?_, fun q hq => hi.kept (Or.inl hq) (fun he => hi.fresh (he ▸ hq)), rfl, rfl,
    hi.heap.blocks_ne⟩
  · simp only [step, SchemaTable.insertRecord, hi.run, Option.bind_some, Ptr.add_sub]
    rw [h.sound.insertIndexes, Option.map_some]
  · rw [bytes, hi.stored, List.take_of_length_le]
    rw [hd, h.sound.recordSize]

theorem step_insertRecordOf (s : Session) (data : Bytes) :
    s.step (.insertRecordOf s.table.schema data) = s.step (.insertRecord data) := by
  simp [step, SchemaTable.insertRecordOf]

theorem step_deleteRecord (h : Good s) {i : ℕ} {p : Ptr} (hp : s.live[i]? = some p) :
    ∃ s', s.step (.deleteRecord i) = some s' ∧ Deleted s i p s' := by
  obtain ⟨hi, rfl⟩ := List.getElem?_eq_some_iff.mp hp
  obtain ⟨base, hb, hr, hblocks, -, hheap, hkept⟩ := h.heap.deleteRecord (List.getElem_mem hi)
  have herase : s.live.erase s.live[i] = s.live.eraseIdx i := h.heap.nodup.erase_getElem i hi
  have hread := hkept _ (Or.inl (List.getElem_mem hi))
  have hframe : Frame s.table { s.table with
      base := base
      primaryIndex := s.table.primaryIndex.map (fun index =>
        index.deleteRecord (s.primaryKey s.live[i]))
      secondaryIndexes := s.table.secondaryIndexes.map (fun e => (e.1,
        e.2.deleteRecord (s.table.schema.getKeySymbol (s.bytes s.live[i])
          (SchemaTable.indexCols e.1)))) } :=
    ⟨rfl, rfl, by simp, by simp [Function.comp_def]⟩
  refine ⟨⟨_, s.live.eraseIdx i⟩, ?_, ⟨h.sound.of_frame hframe hr, herase ▸ hheap⟩, hframe, hp,
    rfl, herase.symm, fun q hq => hkept q (Or.inl hq), rfl, rfl, hblocks⟩
  simp only [step, hp, Option.bind_some, SchemaTable.deleteRecord, hb]
  rw [h.sound.deleteIndexes, Option.map_some, hread]
  rfl

private theorem updateRecordColumn_spec (h : Good s) {p : Ptr} (hp : p ∈ s.live) {e : ℕ × Bytes}
    (he : e.1 < s.table.schema.columnCount ∧ s.table.schema.getColumnSize e.1 ≤ e.2.length) :
    ∃ t, s.table.updateRecordColumn (p.add kRecordHeaderSize) ⟨e.1, e.2⟩ = some t ∧
      Updated s p ⟨[e]⟩ ⟨t, s.live⟩ := by
  have hle := h.sound.layout.column_le he.1
  have hfit : s.table.schema.getColumnOffset e.1 +
      (e.2.take (s.table.schema.getColumnSize e.1)).length ≤ s.table.base.recordSize := by
    rw [List.length_take, h.sound.recordSize]
    omega
  obtain ⟨base, hb, hr, hblocks, hheap, hread, hkept⟩ := h.heap.store hp hfit
  have hframe : Frame s.table { s.table with base := base } := ⟨rfl, rfl, rfl, rfl⟩
  refine ⟨{ s.table with base := base }, ?_, ⟨h.sound.of_frame hframe hr, hheap⟩, hframe, rfl,
    hread, hkept, rfl, rfl, hblocks⟩
  rw [SchemaTable.updateRecordColumn, if_pos he, hb]
  rfl

theorem updateRecordColumns_spec (h : Good s) {p : Ptr} (hp : p ∈ s.live)
    {params : ColumnPredicates} (hv : params.Valid s.table.schema) :
    ∃ t, s.table.updateRecordColumns (p.add kRecordHeaderSize) params = some t ∧
      Updated s p params ⟨t, s.live⟩ := by
  obtain ⟨es⟩ := params
  induction es generalizing s with
  | nil =>
    exact ⟨s.table, rfl, h, ⟨rfl, rfl, rfl, rfl⟩, rfl, rfl, fun _ _ _ => rfl, rfl, rfl, rfl⟩
  | cons e es ih =>
    obtain ⟨he, hes⟩ := List.forall_mem_cons.mp hv
    obtain ⟨t, ht, hu⟩ := updateRecordColumn_spec h hp he
    have hschema : t.schema = s.table.schema := hu.frame.schema
    obtain ⟨u, hu', hus⟩ := ih hu.good (by rw [hu.live]; exact hp) (by rw [hschema]; exact hes)
    refine ⟨u, ?_, hus.good, ?_, rfl, ?_, ?_, ?_, ?_, ?_⟩
    · simp only [SchemaTable.updateRecordColumns, List.foldlM_cons, ht, Option.bind_eq_bind,
        Option.bind_some]
      exact hu'
    · exact ⟨hus.frame.schema.trans hu.frame.schema,
        hus.frame.primarySymbol.trans hu.frame.primarySymbol,
        hus.frame.primaryIndex.trans hu.frame.primaryIndex,
        hus.frame.secondary.trans hu.frame.secondary⟩
    · have hb := hus.bytes
      rw [hu.bytes] at hb
      simp only [hschema] at hb
      exact hb
    · intro q hq hne
      rw [← hu.kept q hq hne]
      exact hus.kept q hq hne
    · exact hus.primary.trans hu.primary
    · exact hus.secondary.trans hu.secondary
    · exact hus.blocks.trans hu.blocks

theorem step_updated (h : Good s) {op : Op} {p : Ptr} {params : ColumnPredicates}
    (ho : s.updateTarget op = some (p, params)) (hv : params.Valid s.table.schema) :
    ∃ s', s.step op = some s' ∧ Updated s p params s' := by
  obtain ⟨t, ht, hu⟩ := updateRecordColumns_spec h (updateTarget_mem ho) hv
  exact ⟨⟨t, s.live⟩, by rw [step_update s ho, ht]; rfl, hu⟩

/-- A slot, with its header, is no larger than a block. -/
def Fits (s : Session) : Prop := s.table.base.recordFullSize ≤ kBlockSize

/-- In a table whose slots are larger than a block the first insertion writes outside. -/
theorem insertRecord_unfit {schema : Schema} {indexes : List (List ℕ)}
    (h : ¬ (Session.new schema indexes).Fits) (data : Bytes) :
    (Session.new schema indexes).table.base.insertRecord data = none := by
  have hdiv : kBlockSize / (BaseTable.new schema.getSchemaSize).recordFullSize = 0 :=
    Nat.div_eq_of_lt (Nat.lt_of_not_le h)
  simp only [Session.new, SchemaTable.new, BaseTable.insertRecord, BaseTable.insertSection,
    BaseTable.new, if_pos, BaseTable.takeFreespace, BaseTable.allocateNextBlock, Option.map_some,
    Option.bind_some, BaseTable.insertWrite]
  simp only [BaseTable.new] at hdiv
  split
  · simp [BaseTable.store, hdiv]
  · rfl

theorem step_unfit {schema : Schema} {indexes : List (List ℕ)}
    (h : ¬ (Session.new schema indexes).Fits) {op : Op} (ho : op.inserted.isSome) :
    (Session.new schema indexes).step op = none := by
  cases op <;> simp [Op.inserted, step, insertRecord_unfit h] at ho ⊢

/-- Where slots do not fit, a run has no step that succeeds, provided that it starts with an
insertion and that the condition asks for fitting slots. -/
theorem holds_iff_meets_unfit {schema : Schema} {indexes : List (List ℕ)}
    (h : ¬ (Session.new schema indexes).Fits) {V C : Session → Op → Prop}
    {T : Session → Op → Session → Prop}
    (hV : ∀ op, V (Session.new schema indexes) op → op.inserted.isSome)
    (hC : ∀ s op, op.inserted.isSome → C s op → s.Fits) {ops : List Op}
    (hv : Meets step V (Session.new schema indexes) ops) :
    Holds step T (Session.new schema indexes) ops ↔
      Meets step C (Session.new schema indexes) ops := by
  cases ops with
  | nil => exact Iff.rfl
  | cons op ops =>
    have ho := hV op hv.1
    constructor
    · rintro ⟨s', hs', -⟩
      rw [step_unfit h ho] at hs'
      cases hs'
    · rintro ⟨hc, -⟩
      exact absurd (hC _ op ho hc) h

end Session
end ImdbD.StorageEngine
