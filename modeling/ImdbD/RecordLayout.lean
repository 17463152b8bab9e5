import ImdbD.VarcharColumns
import ImdbD.SchemaTable

/-!
# The columns of a record side by side

The sums of a schema are kept in `size_t`. While they do not overflow, the columns
divide the record among them, and what is written to one of them stays there until
the same column is written again.
-/
namespace ImdbD.StorageEngine
open ByteMemory

namespace Schema
variable {s s' : Schema} {c : ColumnInfo} {cs : List ColumnInfo}

/-- The two sums as `size_t` holds them; the counters stay below the length of a vector. -/
def wrap (s : Schema) : Schema :=
  { s with
    columnOffset := s.columnOffset % 2 ^ 64
    primaryKeyLength := s.primaryKeyLength % 2 ^ 64 }

/-- `insertColumn` with sums that overflow. -/
def insertColumnWrapping (s : Schema) (column : ColumnInfo) : Option Schema :=
  (s.insertColumn column).map wrap

def insertColumnsWrapping (s : Schema) : List ColumnInfo → Option Schema
  | [] => some s
  | c :: cs => (s.insertColumnWrapping c).bind (fun s => s.insertColumnsWrapping cs)

def isColumnPrimary (s : Schema) (id : ℕ) : Bool :=
  (s.columns[id]?.map ColumnInfo.isPrimary).getD false

theorem Built.keyLength_le (h : Built s) : s.primaryKeyLength ≤ s.columnOffset := by
  induction h with
  | empty => exact Nat.le_refl _
  | insertColumn c hs hc ih =>
    obtain ⟨-, -, -, hoff, hcase⟩ := insertColumn_cases hc
    rcases hcase with ⟨-, hkey, -⟩ | ⟨-, hkey, -⟩
    · omega
    · omega

private theorem wrap_of_lt (h : Built s) (hlt : s.columnOffset < 2 ^ 64) : s.wrap = s := by
  have hkey := h.keyLength_le
  rw [wrap, Nat.mod_eq_of_lt hlt, Nat.mod_eq_of_lt (by omega)]

private theorem columnOffset_of_insertColumns (h : s.insertColumns cs = some s') :
    s'.columnOffset = s.columnOffset + (cs.map ColumnInfo.columnSize).sum := by
  induction cs generalizing s with
  | nil =>
    cases h
    rfl
  | cons c cs ih =>
    obtain ⟨t, ht, hrest⟩ := Option.bind_eq_some_iff.mp h
    obtain ⟨-, -, -, hoff, -⟩ := insertColumn_cases ht
    rw [ih hrest, hoff, List.map_cons, List.sum_cons, Nat.add_assoc]

/-- Sums that fit are the sums of the numbers. -/
theorem insertColumnsWrapping_eq (hs : Built s) (h : s.insertColumns cs = some s')
    (hfit : s'.columnOffset < 2 ^ 64) : s.insertColumnsWrapping cs = some s' := by
  induction cs generalizing s with
  | nil => exact h
  | cons c cs ih =>
    obtain ⟨t, ht, hrest⟩ := Option.bind_eq_some_iff.mp h
    have hle := columnOffset_of_insertColumns hrest
    have hbuilt : Built t := .insertColumn c hs ht
    rw [insertColumnsWrapping, insertColumnWrapping, ht, Option.map_some, Option.bind_some,
      wrap_of_lt hbuilt (by omega)]
    exact ih hbuilt hrest

private theorem insertColumn_of_lt (hlength : s.columns.length < vectorMaxSize)
    (hprimary : c.isPrimary = true → s.primaryColNum < 5) : ∃ s', s.insertColumn c = some s' := by
  rw [insertColumn, if_pos hlength]
  cases hc : c.isPrimary with
  | false => exact ⟨_, rfl⟩
  | true => exact ⟨_, if_pos (hprimary hc)⟩

/-- Up to five primary columns can be inserted. -/
theorem insertColumns_of_le (hlength : s.columns.length + cs.length ≤ vectorMaxSize)
    (hprimary : s.primaryColNum + (cs.filter ColumnInfo.isPrimary).length ≤ 5) :
    ∃ s', s.insertColumns cs = some s' := by
  induction cs generalizing s with
  | nil => exact ⟨s, rfl⟩
  | cons c cs ih =>
    rw [List.length_cons] at hlength
    obtain ⟨t, ht⟩ : ∃ t, s.insertColumn c = some t := by
      refine insertColumn_of_lt (by omega) (fun hc => ?_)
      rw [List.filter_cons_of_pos hc, List.length_cons] at hprimary
      omega
    obtain ⟨-, hcols, -, -, hcase⟩ := insertColumn_cases ht
    have hlen : t.columns.length = s.columns.length + 1 := by rw [hcols]; simp
    have hnum : t.primaryColNum + (cs.filter ColumnInfo.isPrimary).length ≤ 5 := by
      rcases hcase with ⟨hc, -, hnum, -⟩ | ⟨hc, -, hnum, -⟩
      · rw [List.filter_cons_of_pos hc, List.length_cons] at hprimary
        omega
      · rw [List.filter_cons_of_neg (by simp [hc])] at hprimary
        omega
    obtain ⟨s', hs'⟩ := ih (by omega) hnum
    exact ⟨s', by rw [insertColumns, ht, Option.bind_some, hs']⟩

/-- A column apart from its offset, which the schema chooses. -/
def unplaced (c : ColumnInfo) : ColumnInfo := { c with columnOffset := 0 }

private theorem columns_of_insertColumns (h : s.insertColumns cs = some s') :
    s'.columns.map unplaced = s.columns.map unplaced ++ cs.map unplaced := by
  induction cs generalizing s with
  | nil =>
    cases h
    rw [List.map_nil, List.append_nil]
  | cons c cs ih =>
    obtain ⟨t, ht, hrest⟩ := Option.bind_eq_some_iff.mp h
    obtain ⟨-, hcols, -⟩ := insertColumn_cases ht
    rw [ih hrest, hcols, List.map_append, List.append_assoc]
    rfl

/-- The columns are those inserted, and their bytes divide the record among them. -/
structure Tiles (s : Schema) (cs : List ColumnInfo) : Prop where
  columns : s.columns.map unplaced = cs.map unplaced
  count : s.columnCount = cs.length
  ordered : ∀ i j, i < j → j < s.columnCount →
    s.getColumnOffset i + s.getColumnSize i ≤ s.getColumnOffset j
  inside : ∀ i < s.columnCount, s.getColumnOffset i + s.getColumnSize i ≤ s.getSchemaSize
  covered : ∀ b < s.getSchemaSize, ∃ i < s.columnCount,
    s.getColumnOffset i ≤ b ∧ b < s.getColumnOffset i + s.getColumnSize i

/-- The primary columns are listed in their order, with their sizes. -/
structure ListsPrimary (s : Schema) : Prop where
  cols : s.primaryCols = (List.range s.columnCount).filter s.isColumnPrimary
  sizes : s.primaryColSizes = s.primaryCols.map s.getColumnSize
  keyLength : s.primaryKeyLength = s.primaryColSizes.sum
  colNum : s.primaryColNum = s.primaryCols.length

private theorem Layout.listsPrimary (h : s.Layout) : s.ListsPrimary where
  cols := by
    rw [h.primary, h.count]
    rfl
  sizes := h.sizes
  keyLength := h.keyLength
  colNum := h.colNum

/-- No byte of the record is without a column. -/
theorem Layout.covered (h : s.Layout) {b : ℕ} (hb : b < s.getSchemaSize) :
    ∃ i < s.columnCount, s.getColumnOffset i ≤ b ∧ b < s.getColumnOffset i + s.getColumnSize i := by
  have hupTo : ∀ n ≤ s.columnCount, b < ((s.columns.take n).map ColumnInfo.columnSize).sum →
      ∃ i < s.columnCount, s.getColumnOffset i ≤ b ∧
        b < s.getColumnOffset i + s.getColumnSize i := by
    intro n
    induction n with
    | zero => simp
    | succ n ih =>
      intro hn hlt
      have hstart := h.getColumnOffset_eq hn
      have hend := h.column_end hn
      by_cases hbefore : b < ((s.columns.take n).map ColumnInfo.columnSize).sum
      · exact ih (by omega) hbefore
      · exact ⟨n, hn, by omega, by omega⟩
  refine hupTo s.columnCount (le_refl _) ?_
  rwa [h.count, List.take_length, ← h.size]

private theorem Tiles.of_insertColumns (h : Schema.empty.insertColumns cs = some s) : s.Tiles cs := by
  have hlayout := (Built.empty.insertColumns h).layout
  have hcols : s.columns.map unplaced = cs.map unplaced := columns_of_insertColumns h
  refine ⟨hcols, ?_, fun i j => hlayout.column_lt, fun i => hlayout.column_le,
    fun b => hlayout.covered⟩
  have hlen := congrArg List.length hcols
  rw [List.length_map, List.length_map] at hlen
  rw [hlayout.count, hlen]

end Schema

/-- `none` where the assertion on the column id fails. -/
def Schema.getColumnType (s : Schema) (id : ℕ) : Option ValueType :=
  s.columns[id]?.map ColumnInfo.columnType

/-- The calls that write to a record: `setColumn` from an object, `setColumn` from characters with
their number, and `updateRecord`. -/
inductive Write where
  | setColumn (columnId : ℕ) (data : Bytes)
  | setColumnChars (columnId : ℕ) (data : Bytes)
  | updateRecord (params : ColumnPredicates)

/-- What is in a column after a value, which may be shorter, was copied to its beginning. -/
def lay (old value : Bytes) : Bytes := value ++ old.drop value.length

namespace Write
variable {s : Schema} {w : Write} {ws : List Write} {cs : List (ℕ × Bytes)} {dataPtr id : ℕ}
  {m m' : ℕ → UInt8}

/-- The columns a call names, each with the bytes that are copied to its beginning. A failed
assertion and a read behind the data fail. -/
def copies (s : Schema) : Write → Option (List (ℕ × Bytes))
  | setColumn id data =>
    if id < s.columnCount ∧ s.getColumnType id ≠ some .varchar ∧ s.getColumnSize id ≤ data.length then
      some [(id, data.take (s.getColumnSize id))]
    else none
  | setColumnChars id data =>
    if s.getColumnType id = some .varchar ∧ data.length ≤ s.getColumnSize id then some [(id, data)]
    else none
  | updateRecord params =>
    if params.Valid s then some (params.entries.map (fun e => (e.1, e.2.take (s.getColumnSize e.1))))
    else none

/-- `memcpy` to the columns of the record at `dataPtr`, one after another. -/
def copyAll (s : Schema) (dataPtr : ℕ) (m : ℕ → UInt8) (cs : List (ℕ × Bytes)) : ℕ → UInt8 :=
  cs.foldl (fun m c => write m (dataPtr + s.getColumnOffset c.1) c.2) m

def perform (s : Schema) (dataPtr : ℕ) (m : ℕ → UInt8) (w : Write) : Option (ℕ → UInt8) :=
  (w.copies s).map (copyAll s dataPtr m)

def columnIds : Write → List ℕ
  | setColumn id _ | setColumnChars id _ => [id]
  | updateRecord params => params.columnIds

/-- All copies of a sequence of calls. -/
def allCopies (s : Schema) (ws : List Write) : List (ℕ × Bytes) :=
  ws.flatMap (fun w => (w.copies s).getD [])

/-- `getColumn`: the bytes of one column of the record at `dataPtr`. -/
def column (s : Schema) (dataPtr : ℕ) (m : ℕ → UInt8) (id : ℕ) : Bytes :=
  read m (dataPtr + s.getColumnOffset id) (s.getColumnSize id)

private theorem map_fst_copies (h : w.copies s = some cs) : cs.map Prod.fst = w.columnIds := by
  cases w <;> obtain ⟨-, he⟩ := Option.ite_none_right_eq_some.mp h <;> cases he <;>
    simp [columnIds, ColumnPredicates.columnIds]

/-- A copy fits its column. -/
def Fits (s : Schema) (c : ℕ × Bytes) : Prop :=
  c.1 < s.columnCount ∧ c.2.length ≤ s.getColumnSize c.1

private theorem fits_of_copies (hs : s.Layout) (h : w.copies s = some cs) : ∀ c ∈ cs, Fits s c := by
  cases w with
  | setColumn id data =>
    obtain ⟨hcond, he⟩ := Option.ite_none_right_eq_some.mp h
    cases he
    intro c hc
    obtain rfl := List.mem_singleton.mp hc
    exact ⟨hcond.1, List.length_take_le _ _⟩
  | setColumnChars id data =>
    obtain ⟨hcond, he⟩ := Option.ite_none_right_eq_some.mp h
    cases he
    intro c hc
    obtain rfl := List.mem_singleton.mp hc
    obtain ⟨column, hcolumn, -⟩ := Option.map_eq_some_iff.mp hcond.1
    refine ⟨?_, hcond.2⟩
    rw [hs.count]
    exact (List.getElem?_eq_some_iff.mp hcolumn).1
  | updateRecord params =>
    obtain ⟨hvalid, he⟩ := Option.ite_none_right_eq_some.mp h
    cases he
    intro c hc
    obtain ⟨e, he, rfl⟩ := List.mem_map.mp hc
    exact ⟨(hvalid e he).1, List.length_take_le _ _⟩

private theorem column_write_self {value : Bytes} (h : Fits s (id, value)) :
    column s dataPtr (write m (dataPtr + s.getColumnOffset id) value) id =
      lay (column s dataPtr m id) value := by
  have hinside := read_write_inside m (dataPtr + s.getColumnOffset id) (s.getColumnSize id) 0 value
    (by rw [Nat.zero_add]; exact h.2)
  rw [Nat.add_zero] at hinside
  rw [column, hinside, overwrite, List.take_zero, List.nil_append, Nat.zero_add]
  rfl

private theorem column_write_ne (hs : s.Layout) {c : ℕ × Bytes} (h : Fits s c) (hid : id < s.columnCount)
    (hne : c.1 ≠ id) : column s dataPtr (write m (dataPtr + s.getColumnOffset c.1) c.2) id =
      column s dataPtr m id := by
  have hlen := h.2
  have hdisjoint := hs.column_disjoint h.1 hid hne
  exact read_write_disjoint _ _ _ _ _ (by omega)

private theorem copyAll_outside (hcs : ∀ c ∈ cs, Fits s c) {a : ℕ} (ha : ∀ c ∈ cs,
      ¬ (dataPtr + s.getColumnOffset c.1 ≤ a ∧
        a < dataPtr + s.getColumnOffset c.1 + s.getColumnSize c.1)) :
    copyAll s dataPtr m cs a = m a := by
  induction cs generalizing m with
  | nil => rfl
  | cons c cs ih =>
    obtain ⟨hc, hcs⟩ := List.forall_mem_cons.mp hcs
    obtain ⟨hout, ha⟩ := List.forall_mem_cons.mp ha
    have hlen := hc.2
    exact (ih hcs ha).trans (write_outside _ _ _ _ (by omega))

private theorem column_copyAll (hs : s.Layout) (hcs : ∀ c ∈ cs, Fits s c) (hid : id < s.columnCount) :
    column s dataPtr (copyAll s dataPtr m cs) id =
      ((cs.filter (fun c => c.1 = id)).map Prod.snd).foldl lay (column s dataPtr m id) := by
  induction cs generalizing m with
  | nil => rfl
  | cons c cs ih =>
    obtain ⟨hc, hcs⟩ := List.forall_mem_cons.mp hcs
    refine (ih hcs).trans ?_
    by_cases he : c.1 = id
    · obtain ⟨id', value⟩ := c
      subst he
      rw [column_write_self hc, List.filter_cons_of_pos (by simp)]
      rfl
    · rw [column_write_ne hs hc hid he, List.filter_cons_of_neg (by simpa using he)]

private theorem copyAll_append (cs cs' : List (ℕ × Bytes)) :
    copyAll s dataPtr m (cs ++ cs') = copyAll s dataPtr (copyAll s dataPtr m cs) cs' :=
  List.foldl_append

/-- A call changes no byte outside the columns it names. -/
theorem perform_outside (hs : s.Layout) (h : w.perform s dataPtr m = some m') {a : ℕ}
    (ha : ∀ id ∈ w.columnIds, ¬ (dataPtr + s.getColumnOffset id ≤ a ∧
      a < dataPtr + s.getColumnOffset id + s.getColumnSize id)) : m' a = m a := by
  obtain ⟨cs, hcs, rfl⟩ := Option.map_eq_some_iff.mp h
  refine copyAll_outside (fits_of_copies hs hcs) (fun c hc => ha c.1 ?_)
  rw [← map_fst_copies hcs]
  exact List.mem_map_of_mem hc

/-- A run makes all copies of its calls in their order. -/
theorem run_eq (hs : s.Layout) (h : GuardedRun.run (perform s dataPtr) m ws = some m') :
    m' = copyAll s dataPtr m (allCopies s ws) ∧ ∀ c ∈ allCopies s ws, Fits s c := by
  induction ws generalizing m with
  | nil =>
    cases h
    exact ⟨rfl, nofun⟩
  | cons w ws ih =>
    obtain ⟨m₁, h₁, hrest⟩ := Option.bind_eq_some_iff.mp h
    obtain ⟨cs, hcs, rfl⟩ := Option.map_eq_some_iff.mp h₁
    obtain ⟨rfl, hfits⟩ := ih hrest
    have hall : allCopies s (w :: ws) = cs ++ allCopies s ws := by simp [allCopies, hcs]
    rw [hall]
    refine ⟨(copyAll_append _ _).symm, fun c hc => ?_⟩
    rcases List.mem_append.mp hc with hc | hc
    · exact fits_of_copies hs hcs c hc
    · exact hfits c hc

private theorem lay_full {old value : Bytes} (h : value.length = old.length) : lay old value = value := by
  rw [lay, List.drop_eq_nil_of_le (by omega), List.append_nil]

private theorem length_column : (column s dataPtr m id).length = s.getColumnSize id := read_length _ _ _

private theorem length_foldl_lay {old : Bytes} {values : List Bytes}
    (h : ∀ v ∈ values, v.length ≤ old.length) :
    (values.foldl lay old).length = old.length := by
  induction values generalizing old with
  | nil => rfl
  | cons v values ih =>
    obtain ⟨hv, hvalues⟩ := List.forall_mem_cons.mp h
    have hlen : (lay old v).length = old.length := by
      rw [lay, List.length_append, List.length_drop]
      omega
    rw [List.foldl_cons, ih (by rwa [hlen]), hlen]

/-- A value of full width stays in its column, under the values that come after it. -/
theorem column_run (hs : s.Layout) (h : GuardedRun.run (perform s dataPtr) m ws = some m')
    (hid : id < s.columnCount) {before after : List (ℕ × Bytes)} {value : Bytes}
    (hcopies : allCopies s ws = before ++ (id, value) :: after)
    (hfull : value.length = s.getColumnSize id) :
    column s dataPtr m' id =
      ((after.filter (fun c => c.1 = id)).map Prod.snd).foldl lay value := by
  obtain ⟨rfl, hfits⟩ := run_eq hs h
  rw [column_copyAll hs hfits hid, hcopies, List.filter_append, List.filter_cons_of_pos (by simp),
    List.map_append, List.foldl_append, List.map_cons, List.foldl_cons, lay_full]
  rw [hfull, length_foldl_lay, length_column]
  intro v hv
  obtain ⟨c, hc, rfl⟩ := List.mem_map.mp hv
  obtain ⟨hc, he⟩ := List.mem_filter.mp hc
  rw [length_column, ← of_decide_eq_true he]
  exact (hfits c (hcopies ▸ List.mem_append_left _ hc)).2

/-- A record that is written in memory is written in the same way as a byte string. -/
theorem read_copyAll (hs : s.Layout) (hid : id < s.columnCount) (value : Bytes) :
    read (copyAll s dataPtr m [(id, value.take (s.getColumnSize id))]) dataPtr s.getSchemaSize =
      s.setColumn (read m dataPtr s.getSchemaSize) id value := by
  have hle := hs.column_le hid
  have hlen := List.length_take_le (s.getColumnSize id) value
  exact read_write_inside m dataPtr _ _ _ (le_trans (Nat.add_le_add_left hlen _) hle)

private theorem updateRecordColumn_eq_some {t t' : SchemaTable} {record : Ptr} {param : ColumnPredicate}
    {b : Block} (hb : t.base.blocks[record.block]? = some b)
    (h : t.updateRecordColumn record param = some t') :
    (param.columnId < t.schema.columnCount ∧
      t.schema.getColumnSize param.columnId ≤ param.value.length) ∧ t'.schema = t.schema ∧
    t'.base.blocks[record.block]? = some ⟨write b.data
      (record.offset + t.schema.getColumnOffset param.columnId)
      (param.value.take (t.schema.getColumnSize param.columnId)), b.size⟩ ∧
    ∀ k ≠ record.block, t'.base.blocks[k]? = t.base.blocks[k]? := by
  obtain ⟨hcond, h⟩ := Option.ite_none_right_eq_some.mp h
  obtain ⟨base, hbase, rfl⟩ := Option.map_eq_some_iff.mp h
  simp only [BaseTable.store, Ptr.add, hb] at hbase
  obtain ⟨-, he⟩ := Option.ite_none_right_eq_some.mp hbase
  cases he
  refine ⟨hcond, rfl, ?_, fun k hk => List.getElem?_set_ne (Ne.symm hk)⟩
  exact List.getElem?_set_self (List.getElem?_eq_some_iff.mp hb).1

/-- `updateRecord` of a table does to the block of the record what it does to memory. -/
theorem perform_updateRecord {t t' : SchemaTable} {record : Ptr} {params : ColumnPredicates}
    {b : Block} (hb : t.base.blocks[record.block]? = some b)
    (h : t.updateRecordColumns record params = some t') :
    ∃ m, (updateRecord params).perform t.schema record.offset b.data = some m ∧
      t'.base.blocks[record.block]? = some ⟨m, b.size⟩ ∧
      ∀ k ≠ record.block, t'.base.blocks[k]? = t.base.blocks[k]? := by
  obtain ⟨es⟩ := params
  induction es generalizing t b with
  | nil =>
    cases h
    exact ⟨b.data, rfl, hb, fun _ _ => rfl⟩
  | cons e es ih =>
    obtain ⟨t₁, h₁, hrest⟩ := Option.bind_eq_some_iff.mp h
    obtain ⟨hcond, hschema, hb₁, hother⟩ := updateRecordColumn_eq_some hb h₁
    obtain ⟨m, hm, hblock, hother'⟩ := ih hb₁ hrest
    obtain ⟨cs, hcs, rfl⟩ := Option.map_eq_some_iff.mp hm
    obtain ⟨hvalid, he⟩ := Option.ite_none_right_eq_some.mp hcs
    cases he
    rw [hschema] at hvalid hblock
    have hall : ColumnPredicates.Valid t.schema ⟨e :: es⟩ :=
      List.forall_mem_cons.mpr ⟨hcond, hvalid⟩
    refine ⟨_, ?_, hblock, fun k hk => (hother' k hk).trans (hother k hk)⟩
    rw [perform, copies, if_pos hall]
    rfl

end Write

/-- Columns whose sizes `size_t` can add divide the record among them. What is written to a column
changes no other byte, and a value of full width is read back as it is, apart from the beginning
that shorter strings written after it take. -/
theorem layout_partitions {cs : List ColumnInfo} (hlength : cs.length ≤ Schema.vectorMaxSize)
    (hprimary : (cs.filter ColumnInfo.isPrimary).length ≤ 5)
    (hfit : (cs.map ColumnInfo.columnSize).sum < 2 ^ 64) :
    ∃ s, Schema.empty.insertColumnsWrapping cs = some s ∧ s.Tiles cs ∧ s.ListsPrimary ∧
      ∀ (dataPtr : ℕ) (m : ℕ → UInt8),
        (∀ (w : Write) m', w.perform s dataPtr m = some m' → ∀ a,
          (∀ id ∈ w.columnIds, ¬ (dataPtr + s.getColumnOffset id ≤ a ∧
            a < dataPtr + s.getColumnOffset id + s.getColumnSize id)) → m' a = m a) ∧
        ∀ (ws : List Write) m', GuardedRun.run (Write.perform s dataPtr) m ws = some m' →
          ∀ id < s.columnCount, ∀ before value after,
            Write.allCopies s ws = before ++ (id, value) :: after →
            value.length = s.getColumnSize id →
            Write.column s dataPtr m' id =
              ((after.filter (fun c => c.1 = id)).map Prod.snd).foldl lay value := by
  obtain ⟨s, hs⟩ : ∃ s, Schema.empty.insertColumns cs = some s :=
    Schema.insertColumns_of_le (by simpa [Schema.empty] using hlength)
      (by simpa [Schema.empty] using hprimary)
  have hlayout := (Schema.Built.empty.insertColumns hs).layout
  have hsize : s.columnOffset < 2 ^ 64 := by
    rw [Schema.columnOffset_of_insertColumns hs]
    simpa [Schema.empty] using hfit
  refine ⟨s, Schema.insertColumnsWrapping_eq .empty hs hsize, .of_insertColumns hs,
    hlayout.listsPrimary, fun dataPtr m => ⟨fun w m' h a => ?_, fun ws m' h id hid => ?_⟩⟩
  · exact Write.perform_outside hlayout h
  · intro before value after
    exact Write.column_run hlayout h hid

/-- A key, a text of four bytes, and a second part of the key. -/
def keyedText : List ColumnInfo :=
  [.sized "id" .int32 4 true, .sized "text" .varchar 4 false, .sized "kind" .int8 1 true]

/-- A text that is written in full, and then its first byte once more. -/
def textWrites : List Write := [.setColumnChars 1 [65, 66, 67, 68], .setColumnChars 1 [120]]

theorem layout_partitions_keyedText :
    ∃ s, Schema.empty.insertColumnsWrapping keyedText = some s ∧ s.Tiles keyedText ∧
      s.ListsPrimary ∧ ∀ m', GuardedRun.run (Write.perform s 0) (fun _ => 0) textWrites = some m' →
        Write.column s 0 m' 1 = [120, 66, 67, 68] := by
  obtain ⟨s, hs, htiles, hprimary, hwrites⟩ :=
    @layout_partitions keyedText (by decide) (by decide) (by decide)
  refine ⟨s, hs, htiles, hprimary, fun m' hrun => ?_⟩
  cases hs
  exact (hwrites 0 _).2 textWrites m' hrun 1 (by decide) [] [65, 66, 67, 68] [(1, [120])] rfl rfl

/-- Two columns of half the address space, and a third that begins where the first does. -/
def overflowing : List ColumnInfo :=
  [.sized "low" .varchar (2 ^ 63) false, .sized "high" .varchar (2 ^ 63) false,
    .sized "third" .int8 1 false]

/-- Sums that overflow, and a value of full width that is not read back. -/
theorem layout_not_partition :
    (∃ s, Schema.empty.insertColumnsWrapping overflowing = some s ∧
      s.getColumnOffset 2 = s.getColumnOffset 0 ∧ ¬ s.Tiles overflowing) ∧
    ∃ s m', Schema.empty.insertColumnsWrapping keyedText = some s ∧
      GuardedRun.run (Write.perform s 0) (fun _ => 0) textWrites = some m' ∧
      Write.column s 0 m' 1 ≠ [65, 66, 67, 68] := by
  refine ⟨⟨_, rfl, rfl, fun h => ?_⟩, ⟨_, _, rfl, rfl, by decide⟩⟩
  have hordered := h.ordered 1 2 (by decide) (by decide)
  exact absurd hordered (by decide)

end ImdbD.StorageEngine
