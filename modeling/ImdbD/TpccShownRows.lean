import ImdbD.TpccRecordRun
import ImdbD.TpccStock

/-!
# Rows of values in records of bytes

A record of bytes shows a row when its columns begin with the integers, the texts
and the flags of the row; doubles are not compared. Keys are the bytes of their
integers, and as long as these fit their columns no two keys have the same bytes.
-/
namespace ImdbD.Benchmark.TPCC
open ByteMemory StorageEngine

/-- The numbers that an `int` holds. -/
def FitsInt (n : ℤ) : Prop := -2 ^ 31 ≤ n ∧ n < 2 ^ 31

theorem FitsInt.readInt {n : ℤ} (h : FitsInt n) : readInt (intBytes 4 n) = n :=
  readInt_intBytes_of_fits (by have := h.1; norm_num at *; omega) (by have := h.2; norm_num at *; omega)

private theorem FitsInt.intBytes_inj {n m : ℤ} (h : FitsInt n) (h' : FitsInt m)
    (he : intBytes 4 n = intBytes 4 m) : n = m := by
  rw [← h.readInt, he, h'.readInt]

/-- A sum that is read, added and written back wraps around as the sum of the values does. -/
theorem intBytes_readInt_add (size : ℕ) (n m : ℤ) :
    intBytes size (readInt (intBytes size n) + m) = intBytes size (n + m) := by
  rw [readInt_intBytes, intBytes, intBytes, ← Int.emod_add_emod, Int.bmod_emod, Int.emod_add_emod]

private theorem keyed_of_schema {S : BuiltSchema} {indexCols : Option (List ℕ)}
    (h : S.schema.primaryColNum ≠ 0 ∧ S.schema.primaryKeyLength ≠ 0 ∧
      S.schema.getSchemaSize + kRecordHeaderSize ≤ kBlockSize ∧
      ∀ cols, indexCols = some cols → S.schema.ValidColumns cols) :
    (TableLayout.mk S indexCols).Keyed := ⟨h.1, h.2.1, h.2.2.1, h.2.2.2⟩

/-- Every table but that of the payments has a primary key. -/
theorem layout_keyed (id : TableId) (hid : id ≠ .history) : (layout id).Keyed := by
  cases id with
  | history => exact absurd rfl hid
  | orderLine off =>
    refine keyed_of_schema (S := TpccSchema.getOrderLineSchema) ⟨by decide, by decide, by decide, ?_⟩
    intro cols hcols
    cases hcols
    decide
  | _ => exact keyed_of_schema ⟨by decide, by decide, by decide, fun _ h => nomatch h⟩

namespace RecordBytes

/-- The values of the primary columns, in the order of the schema. -/
def keyInts : ∀ id, Key id → List (ℕ × ℤ)
  | .item, i => [(0, i)]
  | .warehouse, w => [(0, w)]
  | .district, (d, w) => [(0, d), (1, w)]
  | .customer, (c, d, w) => [(0, c), (1, d), (2, w)]
  | .history, k => k.elim
  | .stock, (i, w) => [(0, i), (1, w)]
  | .districtNewOrder, (w, d) => [(0, w), (1, d)]
  | .order _, (o, d, w) => [(0, o), (2, d), (3, w)]
  | .newOrder _, (o, d, w) => [(0, o), (1, d), (2, w)]
  | .orderLine _, (o, d, w, number) => [(0, o), (1, d), (2, w), (3, number)]

/-- The columns and objects by which a key is selected. -/
def keyParams (id : TableId) (k : Key id) : List (ℕ × Bytes) :=
  (keyInts id k).map (fun e => (e.1, intBytes 4 e.2))

/-- The bytes under which a record is kept. -/
def keyBytes (id : TableId) (k : Key id) : Bytes := (keyInts id k).flatMap (fun e => intBytes 4 e.2)

/-- Every number of the key is an `int`. -/
def KeyFits (id : TableId) (k : Key id) : Prop := ∀ e ∈ keyInts id k, FitsInt e.2

variable {id : TableId} {k k' : Key id}

theorem keyParams_bytes : (keyParams id k).flatMap Prod.snd = keyBytes id k := by
  rw [keyParams, List.flatMap_map]
  rfl

theorem keyParams_columns (id : TableId) (k : Key id) :
    (keyParams id k).map Prod.fst = (layout id).schema.schema.primaryCols := by
  cases id with
  | history => exact k.elim
  | _ => rfl

/-- A list of integers is read off its bytes. -/
private theorem flatMap_intBytes_inj {es es' : List (ℕ × ℤ)} (h : ∀ e ∈ es, FitsInt e.2)
    (h' : ∀ e ∈ es', FitsInt e.2) (hcols : es.map Prod.fst = es'.map Prod.fst)
    (he : es.flatMap (fun e => intBytes 4 e.2) = es'.flatMap (fun e => intBytes 4 e.2)) : es = es' := by
  induction es generalizing es' with
  | nil => exact (List.map_eq_nil_iff.mp hcols.symm).symm
  | cons e es ih =>
    cases es' with
    | nil => cases hcols
    | cons e' es' =>
      obtain ⟨hcol, hcols⟩ := List.cons_eq_cons.mp hcols
      have hlen : (intBytes 4 e.2).length = (intBytes 4 e'.2).length := by simp
      obtain ⟨hfirst, hrest⟩ := List.append_inj (by simpa only [List.flatMap_cons] using he) hlen
      have hvalue := (h e List.mem_cons_self).intBytes_inj (h' e' List.mem_cons_self) hfirst
      rw [ih (fun a ha => h a (List.mem_cons_of_mem _ ha)) (fun a ha => h' a (List.mem_cons_of_mem _ ha))
        hcols hrest, Prod.ext hcol hvalue]

private theorem keyInts_injective (id : TableId) : Function.Injective (keyInts id) := by
  intro k k' h
  cases id with
  | history => exact k.elim
  | _ => simp_all [keyInts, Prod.ext_iff]

/-- Keys whose numbers fit have different bytes. -/
theorem keyBytes_inj (h : KeyFits id k) (h' : KeyFits id k') (he : keyBytes id k = keyBytes id k') :
    k = k' := by
  have hcols : (keyInts id k).map Prod.fst = (keyInts id k').map Prod.fst := by
    have hparams := (keyParams_columns id k).trans (keyParams_columns id k').symm
    rwa [keyParams, keyParams, List.map_map, List.map_map] at hparams
  exact keyInts_injective id (flatMap_intBytes_inj h h' hcols he)

theorem length_keyParams {e : ℕ × Bytes} (he : e ∈ keyParams id k) : e.2.length = 4 := by
  obtain ⟨_, -, rfl⟩ := List.mem_map.mp he
  exact intBytes_length _ _

/-- Key columns are columns of four bytes. -/
theorem keyParams_sizes : ∀ e ∈ keyParams id k,
    e.1 < (layout id).schema.schema.columnCount ∧ (layout id).schema.schema.getColumnSize e.1 = 4 := by
  intro e he
  have hcol := List.mem_map_of_mem (f := Prod.fst) he
  rw [keyParams_columns] at hcol
  revert hcol
  generalize e.1 = c
  revert c
  cases id with
  | history => exact k.elim
  | _ => exact of_decide_eq_true rfl

theorem predicateKey_keyParams (id : TableId) (k : Key id) :
    RecordStore.predicateKey (layout id).schema (keyParams id k) = keyBytes id k := by
  rw [RecordStore.predicateKey_eq, keyParams_bytes]
  intro e he
  rw [length_keyParams he, (keyParams_sizes e he).2]

theorem valid_keyParams (id : TableId) (k : Key id) :
    (ColumnPredicates.mk (keyParams id k)).Valid (layout id).schema.schema := by
  intro e he
  have hsize := keyParams_sizes e he
  exact ⟨hsize.1, by rw [hsize.2, length_keyParams he]⟩

/-- The integers, texts and flags of a row, with the columns they are copied to. In an order line
and in a payment nothing is said of the bytes behind a text, nor of those behind a flag. -/
def shown : ∀ id, Row id → List (ℕ × Bytes)
  | .item, r => [(0, intBytes 4 r.iId), (1, intBytes 4 r.iImId), (2, fieldBytes 32 r.iName),
      (4, fieldBytes 64 r.iData)]
  | .warehouse, r => [(0, intBytes 4 r.wId), (1, fieldBytes 16 r.wName),
      (2, fieldBytes 32 r.wStreet1), (3, fieldBytes 32 r.wStreet2), (4, fieldBytes 32 r.wCity),
      (5, fieldBytes 2 r.wState), (6, fieldBytes 9 r.wZip)]
  | .district, r => [(0, intBytes 4 r.dId), (1, intBytes 4 r.dWId), (2, fieldBytes 16 r.dName),
      (3, fieldBytes 32 r.dStreet1), (4, fieldBytes 32 r.dStreet2), (5, fieldBytes 32 r.dCity),
      (6, fieldBytes 2 r.dState), (7, fieldBytes 9 r.dZip), (10, intBytes 4 r.dNextOId)]
  | .customer, r => [(0, intBytes 4 r.cId), (1, intBytes 4 r.cDId), (2, intBytes 4 r.cWId),
      (3, fieldBytes 32 r.cFirst), (4, fieldBytes 2 r.cMiddle), (5, fieldBytes 32 r.cLast),
      (6, fieldBytes 32 r.cStreet1), (7, fieldBytes 32 r.cStreet2), (8, fieldBytes 32 r.cCity),
      (9, fieldBytes 2 r.cState), (10, fieldBytes 9 r.cZip), (11, fieldBytes 32 r.cPhone),
      (12, intBytes 8 r.cSince), (13, fieldBytes 2 r.cCredit), (18, intBytes 4 r.cPaymentCnt),
      (19, intBytes 4 r.cDeliveryCnt), (20, fieldBytes 500 r.cData)]
  | .history, r => [(0, intBytes 4 r.hCId), (1, intBytes 4 r.hCDId), (2, intBytes 4 r.hCWId),
      (3, intBytes 4 r.hDId), (4, intBytes 4 r.hWId), (5, intBytes 8 r.hDate),
      (7, textBytes r.hData)]
  | .stock, r => stockColumns r
  | .districtNewOrder, r => districtNewOrderColumns r
  | .order _, r => [(0, intBytes 4 r.oId), (1, intBytes 4 r.oCId), (2, intBytes 4 r.oDId),
      (3, intBytes 4 r.oWId), (4, intBytes 8 r.oEntryD), (5, intBytes 4 r.oCarrierId),
      (6, intBytes 4 r.oOlCnt), (7, boolBytes r.oAllLocal)]
  | .newOrder _, r => newOrderColumns r
  | .orderLine _, r => [(0, intBytes 4 r.olOId), (1, intBytes 4 r.olDId), (2, intBytes 4 r.olWId),
      (3, intBytes 4 r.olNumber), (4, intBytes 4 r.olIId), (5, intBytes 4 r.olSupplyWId),
      (6, intBytes 8 r.olDeliveryD), (7, intBytes 4 r.olQuantity), (9, textBytes r.olDistInfo)]

/-- The columns of the record begin with what the row shows, as far as they reach. -/
def Shows (id : TableId) (row : Row id) (r : Record (layout id).schema) : Prop :=
  ∀ e ∈ shown id row, e.2.take ((layout id).schema.schema.getColumnSize e.1) <+: r.getColumn e.1

private theorem shown_columns (id : TableId) (row : Row id) :
    ∀ e ∈ shown id row, e.1 < (layout id).schema.schema.columnCount := by
  have hcols : ∀ c ∈ (shown id row).map Prod.fst, c < (layout id).schema.schema.columnCount := by
    cases id <;> exact of_decide_eq_true rfl
  exact fun e he => hcols e.1 (List.mem_map_of_mem he)

variable {row row' : Row id} {r : Record (layout id).schema} {params : List (ℕ × Bytes)}

namespace Shows

/-- A value that fills its column is read back. -/
theorem getColumn_eq (h : Shows id row r) {c : ℕ} {value : Bytes} (he : (c, value) ∈ shown id row)
    (hsize : value.length = (layout id).schema.schema.getColumnSize c) : r.getColumn c = value := by
  have hbegins := h _ he
  rw [List.take_of_length_le hsize.le] at hbegins
  exact (hbegins.eq_of_length (by rw [r.length_getColumn (shown_columns id row _ he), hsize])).symm

/-- A record filled with values that begin as the row shows. -/
theorem of_setColumns (hw : Record.Writes (layout id).schema params)
    (hrow : ∀ e ∈ shown id row, ∃ value, (e.1, value) ∈ params ∧ e.2 <+: value) :
    Shows id row (r.setColumns params) := by
  intro e he
  obtain ⟨value, hmem, hbegins⟩ := hrow e he
  rw [Record.getColumn_setColumns hw hmem]
  exact (hbegins.take _).trans (List.prefix_append _ _)

/-- After columns were written, the others show what they did. -/
theorem setColumns (h : Shows id row r) (hw : Record.Writes (layout id).schema params)
    (hrow : ∀ e ∈ shown id row', e ∈ params ∨ e ∈ shown id row ∧ e.1 ∉ params.map Prod.fst) :
    Shows id row' (r.setColumns params) := by
  intro e he
  rcases hrow e he with hmem | ⟨hold, hnot⟩
  · rw [Record.getColumn_setColumns hw hmem]
    exact List.prefix_append _ _
  · rw [Record.getColumn_setColumns_of_notMem hw (shown_columns id row e hold) hnot]
    exact h e hold

end Shows

/-- The texts for the districts stay as they are when other columns of a stock are written. -/
theorem shown_stock {row row' : StockRecord} (hdists : row'.sDists = row.sDists)
    (hparams : ∀ c ∈ params.map Prod.fst, c < 3 ∨ 13 ≤ c)
    (hothers : ∀ e ∈ [(0, intBytes 4 row'.sIId), (1, intBytes 4 row'.sWId), (2, intBytes 4 row'.sQuantity),
      (13, intBytes 4 row'.sYtd), (14, intBytes 4 row'.sOrderCnt), (15, intBytes 4 row'.sRemoteCnt),
      (16, fieldBytes 64 row'.sData)], e ∈ params ∨ e ∈ shown .stock row ∧ e.1 ∉ params.map Prod.fst) :
    ∀ e ∈ shown .stock row', e ∈ params ∨ e ∈ shown .stock row ∧ e.1 ∉ params.map Prod.fst := by
  intro e he
  simp only [shown, stockColumns, List.mem_append, or_assoc] at he
  rcases he with he | he | he
  · exact hothers e (List.mem_append_left [_, _, _, _] he)
  · obtain ⟨i, hi, rfl⟩ := List.mem_map.mp he
    have hsame : row'.dist (i + 3 : ℕ) = row.dist (i + 3 : ℕ) := by
      rw [StockRecord.dist, StockRecord.dist, hdists]
    refine .inr ⟨?_, fun hc => ?_⟩
    · rw [hsame]
      exact List.mem_append_left _ (List.mem_append_right _ (List.mem_map_of_mem hi))
    · have hlt := List.mem_range.mp hi
      have hcol := hparams _ hc
      simp only at hcol
      omega
  · exact hothers e (List.mem_append_right [_, _, _] he)

theorem dist_shown (row : StockRecord) {c : ℕ} (hc : 3 ≤ c ∧ c ≤ 12) :
    (c, fieldBytes 32 (row.dist c)) ∈ shown .stock row := by
  have hmem : (c - 3 + 3, fieldBytes 32 (row.dist (c - 3 + 3 : ℕ))) ∈ stockColumns row := by
    refine List.mem_append_left _ (List.mem_append_right _ (List.mem_map_of_mem ?_))
    exact List.mem_range.mpr (by omega)
  rwa [show c - 3 + 3 = c by omega] at hmem

theorem size_dist {c : ℕ} (hc : 3 ≤ c ∧ c ≤ 12) :
    (layout .stock).schema.schema.getColumnSize c = 32 := by
  have hall : ∀ c < 13, 3 ≤ c → TpccSchema.getStockSchema.schema.getColumnSize c = 32 := by decide
  exact hall c (by omega) hc.1

theorem keyParams_shown (hk : TPCC.primaryKey id row = some k) : ∀ e ∈ keyParams id k, e ∈ shown id row := by
  cases id with
  | history => exact k.elim
  | _ =>
    cases hk
    simp [keyParams, keyInts, shown, stockColumns, districtNewOrderColumns, newOrderColumns]

theorem Shows.primaryKey (h : Shows id row r) (hk : TPCC.primaryKey id row = some k) :
    r.primaryKey = some (keyBytes id k) := by
  have hid : id ≠ .history := by
    rintro rfl
    exact k.elim
  have hcolumns : ∀ e ∈ keyParams id k, r.getColumn e.1 = e.2 := fun e he =>
    h.getColumn_eq (keyParams_shown hk e he) (by rw [length_keyParams he, (keyParams_sizes e he).2])
  rw [r.primaryKey_eq (layout_keyed id hid).primary (layout_keyed id hid).length,
    ← keyParams_columns id k, List.flatMap_map, List.flatMap_congr hcolumns, keyParams_bytes]

/-- A text without zero characters that fits a column of 32 bytes. -/
def PlainText (text : String) : Prop := text.toList.length ≤ 32 ∧ ∀ b ∈ textBytes text, b ≠ 0

theorem plainText_of_distText {text : String} (h : DistText text) : PlainText text := by
  refine ⟨by rw [h.1]; decide, fun b hb => ?_⟩
  obtain ⟨c, hc, rfl⟩ := List.mem_map.mp hb
  obtain ⟨hlow, hhigh⟩ := h.2 c hc
  have hlow' : 97 ≤ c.toNat := hlow
  have hhigh' : c.toNat ≤ 122 := hhigh
  intro hzero
  have hmod : c.toNat % 256 = 0 := by simpa using congrArg UInt8.toNat hzero
  omega

theorem plainText_dist {r : StockRecord} (h : r.Labelled) (column : ℤ) :
    PlainText (r.dist column) := by
  unfold StockRecord.dist
  cases hcol : r.sDists[(column - 3).toNat]? with
  | none => exact ⟨by decide, by simp [textBytes]⟩
  | some text => exact plainText_of_distText (h.2 text (List.mem_of_getElem? hcol))

theorem PlainText.length_fieldBytes {text : String} (h : PlainText text) :
    (fieldBytes 32 text).length = 32 := by
  have hle := h.1
  rw [fieldBytes, List.length_append, List.length_replicate, textBytes_length]
  omega

/-- A plain text is read back up to the first zero byte. -/
theorem PlainText.takeWhile {text : String} (h : PlainText text) :
    (fieldBytes 32 text).takeWhile (fun b => b ≠ 0) = textBytes text := by
  rw [fieldBytes, List.takeWhile_append_of_pos (fun b hb => by simpa using h.2 b hb)]
  have hpad : ∀ n, (List.replicate n (0 : UInt8)).takeWhile (fun b => b ≠ 0) = [] := by
    intro n
    cases n <;> simp [List.replicate_succ]
  rw [hpad, List.append_nil]

private theorem boolBytes_prefix (b : Bool) : boolBytes b <+: intBytes 4 (if b then 1 else 0) := by
  cases b <;> decide

private theorem textBytes_prefix (size : ℕ) (text : String) : textBytes text <+: fieldBytes size text :=
  List.prefix_append _ _

/-- What the populator copies begins as the row shows. -/
theorem shown_populatedColumns (F : DoubleFormat) (id : TableId) (row : Row id) :
    ∀ e ∈ shown id row, ∃ value, (e.1, value) ∈ populatedColumns F id row ∧ e.2 <+: value := by
  have hcopied : ∀ e ∈ populatedColumns F id row, ∃ value, (e.1, value) ∈ populatedColumns F id row ∧
      e.2 <+: value := fun e hmem => ⟨e.2, hmem, List.prefix_rfl⟩
  cases id with
  | item => exact fun e he => hcopied e (by revert e; simp [shown, populatedColumns, itemColumns])
  | warehouse =>
    exact fun e he => hcopied e (by revert e; simp [shown, populatedColumns, warehouseColumns])
  | district =>
    exact fun e he => hcopied e (by revert e; simp [shown, populatedColumns, districtColumns])
  | customer =>
    exact fun e he => hcopied e (by revert e; simp [shown, populatedColumns, customerColumns])
  | stock => exact hcopied
  | districtNewOrder => exact hcopied
  | newOrder _ => exact hcopied
  | history => simp [shown, populatedColumns, populatedHistoryColumns, textBytes_prefix]
  | order _ => simp [shown, populatedColumns, populatedOrderColumns, boolBytes_prefix]
  | orderLine _ => simp [shown, populatedColumns, populatedLineColumns, textBytes_prefix]

/-- The record of the populator shows its row. -/
theorem shows_populatedRecord (F : DoubleFormat) (buffer : ℕ → UInt8) (id : TableId) (row : Row id) :
    Shows id row (populatedRecord F buffer id row) := by
  refine .of_setColumns (Record.writes_of_range ?_) (shown_populatedColumns F id row)
  cases id <;> rfl

section Inserted
variable {leftover : Leftover} {param : NewOrderParam} {off : ℕ}

theorem shows_orderRecord (n : ℤ) : Shows (.order off)
    { oId := n
      oCId := param.cId
      oDId := param.dId
      oWId := param.wId
      oEntryD := param.oEntryD
      oCarrierId := NULL_CARRIER_ID
      oOlCnt := param.iIds.length
      oAllLocal := param.iWIds.all (fun wId => param.wId = wId) }
    (orderRecord leftover param n) := by
  refine .of_setColumns writes_orderColumns ?_
  simp [shown, orderColumns]

/-- The record of an order in the queue of its district. -/
theorem shows_newOrderRecord (n : ℤ) : Shows (.newOrder off)
    { oId := n
      dId := param.dId
      wId := param.wId }
    (newOrderRecord leftover param n) := by
  refine .of_setColumns (Record.writes_of_range rfl) ?_
  simp [shown, newOrderColumns]

/-- The record of a line, whatever its amount is. -/
theorem shows_orderLineRecord (n : ℤ) (i : ℕ) (iId supplyWId quantity : ℤ) (amount : ℚ)
    (amountBytes : Bytes) (distInfo : String) (r : Record (layout (.orderLine off)).schema) :
    Shows (.orderLine off)
      { olOId := n
        olDId := param.dId
        olWId := param.wId
        olNumber := i + 1
        olIId := iId
        olSupplyWId := supplyWId
        olDeliveryD := param.oEntryD
        olQuantity := quantity
        olAmount := amount
        olDistInfo := distInfo }
      (r.setColumns (orderLineColumns param n i iId supplyWId quantity amountBytes
        (textBytes distInfo))) := by
  refine .of_setColumns (Record.writes_of_range rfl) ?_
  simp [shown, orderLineColumns]

theorem shows_historyRecord (F : DoubleFormat) (param : PaymentParam) (hData : String) :
    Shows .history
      { hCId := param.cId
        hCDId := param.cDId
        hCWId := param.cWId
        hDId := param.dId
        hWId := param.wId
        hDate := param.hDate
        hAmount := param.hAmount
        hData := hData }
      (historyRecord F leftover param hData) := by
  refine .of_setColumns (Record.writes_of_range rfl) ?_
  simp [shown, historyColumns]

end Inserted

end RecordBytes
end ImdbD.Benchmark.TPCC
