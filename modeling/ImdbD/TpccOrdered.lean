import ImdbD.RowDeterminism
import ImdbD.TpccShownRows
import ImdbD.VarcharColumns

/-!
# A new order from end to end

What a new order does in a state that a run reaches, with the rows that it
inserts as their bytes are read back. The column of `o_all_local` has four bytes
and is copied from an object of one; the column of `ol_dist_info` has more bytes
than the text that is copied to it, and no terminator is copied.
-/
namespace ImdbD.Benchmark.TPCC
open ByteMemory StorageEngine AtomicProgram GuardedRun TpccSerialProcessor

/-- The columns of an order as they are read back. -/
structure OrderColumns where
  oId : ℤ
  oCId : ℤ
  oDId : ℤ
  oWId : ℤ
  oEntryD : ℤ
  oCarrierId : ℤ
  oOlCnt : ℤ
  oAllLocal : ℤ
  deriving DecidableEq

def decodeOrder (r : Record TpccSchema.getOrderSchema) : OrderColumns where
  oId := readInt (r.getColumn 0)
  oCId := readInt (r.getColumn 1)
  oDId := readInt (r.getColumn 2)
  oWId := readInt (r.getColumn 3)
  oEntryD := readInt (r.getColumn 4)
  oCarrierId := readInt (r.getColumn 5)
  oOlCnt := readInt (r.getColumn 6)
  oAllLocal := readInt (r.getColumn 7)

def decodeNewOrder (r : Record TpccSchema.getNewOrderSchema) : NewOrderRecord where
  oId := readInt (r.getColumn 0)
  dId := readInt (r.getColumn 1)
  wId := readInt (r.getColumn 2)

/-- The columns of a line as they are read back. -/
structure OrderLineColumns where
  olOId : ℤ
  olDId : ℤ
  olWId : ℤ
  olNumber : ℤ
  olIId : ℤ
  olSupplyWId : ℤ
  olDeliveryD : ℤ
  olQuantity : ℤ
  olAmount : ℚ
  olDistInfo : Option Bytes
  deriving DecidableEq

/-- `behind` are the bytes that lie behind the row. -/
def decodeOrderLine (F : DoubleFormat) (behind : Bytes)
    (r : Record TpccSchema.getOrderLineSchema) : OrderLineColumns where
  olOId := readInt (r.getColumn 0)
  olDId := readInt (r.getColumn 1)
  olWId := readInt (r.getColumn 2)
  olNumber := readInt (r.getColumn 3)
  olIId := readInt (r.getColumn 4)
  olSupplyWId := readInt (r.getColumn 5)
  olDeliveryD := readInt (r.getColumn 6)
  olQuantity := readInt (r.getColumn 7)
  olAmount := F.decode (r.getColumn 8)
  olDistInfo := r.getColumnString behind 9

/-- The bytes of the row for an order, as the sub-transaction fills them. -/
def OrderRecord.stored (leftover : Leftover) (r : OrderRecord) : Record TpccSchema.getOrderSchema :=
  (Record.fresh _ (leftover.buffer 0)).setColumns
    [(0, intBytes 4 r.oId), (1, intBytes 4 r.oCId), (2, intBytes 4 r.oDId), (3, intBytes 4 r.oWId),
      (4, intBytes 8 r.oEntryD), (5, intBytes 4 r.oCarrierId), (6, intBytes 4 r.oOlCnt),
      (7, RecordBytes.boolBytes r.oAllLocal ++ read leftover.beside 0 3)]

private theorem stored_orderRecord (leftover : Leftover) (param : NewOrderParam) (o : ℤ) :
    (orderRecord param o).stored leftover = RecordBytes.orderRecord leftover param o := rfl

def NewOrderRecord.stored (leftover : Leftover) (r : NewOrderRecord) :
    Record TpccSchema.getNewOrderSchema :=
  (Record.fresh _ (leftover.buffer 1)).setColumns
    [(0, intBytes 4 r.oId), (1, intBytes 4 r.dId), (2, intBytes 4 r.wId)]

private theorem stored_newOrderRecord (leftover : Leftover) (param : NewOrderParam) (o : ℤ) :
    NewOrderRecord.stored leftover ⟨o, param.dId, param.wId⟩ =
      RecordBytes.newOrderRecord leftover param o := rfl

/-- The columns of a line but for its text, which is written last. -/
def OrderLineRecord.numberColumns (F : DoubleFormat) (r : OrderLineRecord) : List (ℕ × Bytes) :=
  [(0, intBytes 4 r.olOId), (1, intBytes 4 r.olDId), (2, intBytes 4 r.olWId),
    (3, intBytes 4 r.olNumber), (4, intBytes 4 r.olIId), (5, intBytes 4 r.olSupplyWId),
    (6, intBytes 8 r.olDeliveryD), (7, intBytes 4 r.olQuantity), (8, F.encode r.olAmount)]

/-- The bytes of the row for the line at position `i`. -/
def OrderLineRecord.stored (F : DoubleFormat) (leftover : Leftover) (i : ℕ) (r : OrderLineRecord) :
    Record TpccSchema.getOrderLineSchema :=
  (Record.fresh _ (leftover.buffer (i + 2))).setColumns
    (r.numberColumns F ++ [(9, textBytes r.olDistInfo)])

private theorem stored_lineRecord (F : DoubleFormat) (leftover : Leftover) (param : NewOrderParam)
    (s : Tables) (o : ℤ) (i : ℕ) (it : OrderItem) :
    (lineRecord param s o i it).stored F leftover i =
      (Record.fresh _ (leftover.buffer (i + 2))).setColumns
        (RecordBytes.orderLineColumns param o i it.iId it.wId it.qty (F.encode (lineAmount s it))
          (textBytes (distInfo param s it))) := rfl

/-- The number that an `int` holds; those in its range are themselves. -/
def int32 (n : ℤ) : ℤ := n.bmod (256 ^ 4)
def int64 (n : ℤ) : ℤ := n.bmod (256 ^ 8)

/-- The double nearest to a number. -/
def DoubleFormat.round (F : DoubleFormat) (x : ℚ) : ℚ := F.decode (F.encode x)

/-- The columns that belong to a new order. -/
def orderColumns (param : NewOrderParam) (o : ℤ) : OrderColumns where
  oId := int32 o
  oCId := int32 param.cId
  oDId := int32 param.dId
  oWId := int32 param.wId
  oEntryD := int64 param.oEntryD
  oCarrierId := NULL_CARRIER_ID
  oOlCnt := int32 param.iIds.length
  oAllLocal := if ∀ wId ∈ param.iWIds, wId = param.wId then 1 else 0

/-- The columns that belong to a line for an item. -/
def orderLineColumns (F : DoubleFormat) (param : NewOrderParam) (o : ℤ) (i : ℕ) (iId wId qty : ℤ)
    (price : ℚ) (dist : String) : OrderLineColumns where
  olOId := int32 o
  olDId := int32 param.dId
  olWId := int32 param.wId
  olNumber := int32 (i + 1)
  olIId := int32 iId
  olSupplyWId := int32 wId
  olDeliveryD := int64 param.oEntryD
  olQuantity := int32 qty
  olAmount := F.round (qty * price)
  olDistInfo := some (textBytes dist)

/-- The rows that a new order writes. -/
def Written (K : Constants) (param : NewOrderParam) (o : ℤ) : ∀ id, Key id → Prop
  | .district, k => k = (param.dId, param.wId)
  | .order off, k => off = K.offset param.wId param.dId ∧ k = (o, param.dId, param.wId)
  | .newOrder off, k => off = K.offset param.wId param.dId ∧ k = (o, param.dId, param.wId)
  | .orderLine off, (o', d, w, i) => off = K.offset param.wId param.dId ∧
      (o', d, w) = (o, param.dId, param.wId) ∧ 1 ≤ i ∧ i ≤ param.iIds.length
  | .stock, k => ∃ it ∈ param.items, (it.iId, it.wId) = k
  | .item, _ | .warehouse, _ | .customer, _ | .history, _ | .districtNewOrder, _ => False

/-- The order with the number `o` is placed: the counter of its district, the row of the order, its
row among the new orders, its lines, each as it is read back, and nothing else but the stock of its
items. Behind the row of the line at position `i` lie the bytes `behind i`. -/
structure OrderPlaced (K : Constants) (F : DoubleFormat) (param : NewOrderParam)
    (leftover : Leftover) (behind : ℕ → Bytes) (o : ℤ) (s s' : Tables) : Prop where
  district : ∃ r, s.row .district (param.dId, param.wId) = some r ∧ r.dNextOId = o ∧
    s'.row .district (param.dId, param.wId) = some { r with dNextOId := o + 1 }
  fresh : s.row (.order (K.offset param.wId param.dId)) (o, param.dId, param.wId) = none ∧
    s.row (.newOrder (K.offset param.wId param.dId)) (o, param.dId, param.wId) = none ∧
    ∀ i, s.row (.orderLine (K.offset param.wId param.dId)) (o, param.dId, param.wId, i) = none
  order : ∃ r, s'.row (.order (K.offset param.wId param.dId)) (o, param.dId, param.wId) = some r ∧
    decodeOrder (r.stored leftover) = orderColumns param o
  newOrder : ∃ r, s'.row (.newOrder (K.offset param.wId param.dId)) (o, param.dId, param.wId) =
    some r ∧ decodeNewOrder (r.stored leftover) = ⟨int32 o, int32 param.dId, int32 param.wId⟩
  line : ∀ i < param.iIds.length, ∃ iId wId qty item stock r, param.iIds[i]? = some iId ∧
    param.iWIds[i]? = some wId ∧ param.iQtys[i]? = some qty ∧ s.row .item iId = some item ∧
    s.row .stock (iId, wId) = some stock ∧
    s'.row (.orderLine (K.offset param.wId param.dId)) (o, param.dId, param.wId, (i : ℤ) + 1) =
      some r ∧ decodeOrderLine F (behind i) (r.stored F leftover i) =
        orderLineColumns F param o i iId wId qty item.iPrice (stock.dist (param.dId + 2))
  others : ∀ id k, ¬Written K param o id k → s'.row id k = s.row id k
  heap : s'.heap = s.heap

/-- The new order is carried out as it should be. -/
def NewOrderDone (K : Constants) (F : DoubleFormat) (param : NewOrderParam) (leftover : Leftover)
    (behind : ℕ → Bytes) (u : State) : Prop :=
  ∃ v o, (processNewOrder K param).run u = some ((), v) ∧ v.2 = u.2 ∧
    OrderPlaced K F param leftover behind o u.1 v.1

/-- What the memory must hold: zeros behind the local variable `all_local`, and a zero behind the 24
characters of the text in the new buffer of each of the `n` lines. -/
structure Leftover.Clean (leftover : Leftover) (n : ℕ) : Prop where
  beside : ∀ i < 3, leftover.beside i = 0
  text : ∀ i < n,
    leftover.buffer (i + 2) (TpccSchema.getOrderLineSchema.schema.getColumnOffset 9 + 24) = 0

variable {K : Constants} {P : ScaleParams} {F : DoubleFormat} {param : NewOrderParam}
  {leftover : Leftover} {behind : ℕ → Bytes} {s s' : Tables} {o next first : ℤ}

private theorem decode_stored : decodeOrder ((orderRecord param o).stored leftover) =
    { orderColumns param o with oAllLocal := readInt (RecordBytes.boolBytes
      (param.iWIds.all (fun wId => param.wId = wId)) ++ read leftover.beside 0 3) } := by
  have hint : ∀ (id size : ℕ) (n : ℤ),
      (id, intBytes size n) ∈ RecordBytes.orderColumns leftover param o →
      size = TpccSchema.getOrderSchema.schema.getColumnSize id →
      readInt ((RecordBytes.orderRecord leftover param o).getColumn id) = n.bmod (256 ^ size) :=
    fun _ _ _ hmem hsize => Record.readInt_getColumn RecordBytes.writes_orderColumns hmem hsize
  rw [stored_orderRecord, decodeOrder, orderColumns, RecordBytes.getColumn_allLocal,
    hint 0 4 o (by simp [RecordBytes.orderColumns]) rfl,
    hint 1 4 param.cId (by simp [RecordBytes.orderColumns]) rfl,
    hint 2 4 param.dId (by simp [RecordBytes.orderColumns]) rfl,
    hint 3 4 param.wId (by simp [RecordBytes.orderColumns]) rfl,
    hint 4 8 param.oEntryD (by simp [RecordBytes.orderColumns]) rfl,
    hint 5 4 NULL_CARRIER_ID (by simp [RecordBytes.orderColumns]) rfl,
    hint 6 4 param.iIds.length (by simp [RecordBytes.orderColumns]) rfl,
    show NULL_CARRIER_ID.bmod (256 ^ 4) = NULL_CARRIER_ID by decide]
  simp only [int32, int64]

/-- The number in the column is the truth value exactly if zeros follow it in memory. -/
theorem readInt_allLocal (b : Bool) (bs : Bytes) (h : bs.length = 3) :
    readInt (RecordBytes.boolBytes b ++ bs) = (if b then 1 else 0) ↔ bs = [0, 0, 0] := by
  have hzeros : readInt (RecordBytes.boolBytes b ++ [0, 0, 0]) = if b then 1 else 0 := by
    cases b <;> decide
  rw [← hzeros, readInt_inj (by simp [h]), List.append_cancel_left_eq]

private theorem decode_stored_iff : decodeOrder ((orderRecord param o).stored leftover) =
    orderColumns param o ↔ ∀ i < 3, leftover.beside i = 0 := by
  have hbytes : read leftover.beside 0 3 = [0, 0, 0] ↔ ∀ i < 3, leftover.beside i = 0 := by
    rw [show ([0, 0, 0] : Bytes) = read (fun _ => 0) 0 3 from rfl, read_inj]
    simp only [Nat.zero_add]
  have hlocal : (orderColumns param o).oAllLocal =
      if param.iWIds.all (fun wId => param.wId = wId) then 1 else 0 := by
    simp only [orderColumns, List.all_eq_true, decide_eq_true_eq, @eq_comm _ param.wId]
  rw [decode_stored, ← hbytes,
    ← readInt_allLocal (param.iWIds.all (fun wId => param.wId = wId)) _ (read_length _ _ _), ← hlocal]
  constructor
  · intro h
    exact congrArg OrderColumns.oAllLocal h
  · intro h
    rw [h]

private theorem decode_newOrder : decodeNewOrder (NewOrderRecord.stored leftover ⟨o, param.dId, param.wId⟩) =
    ⟨int32 o, int32 param.dId, int32 param.wId⟩ := by
  have hint : ∀ (id : ℕ) (n : ℤ), (id, intBytes 4 n) ∈
        [(0, intBytes 4 o), (1, intBytes 4 param.dId), (2, intBytes 4 param.wId)] →
      4 = TpccSchema.getNewOrderSchema.schema.getColumnSize id →
      readInt ((RecordBytes.newOrderRecord leftover param o).getColumn id) = int32 n :=
    fun _ _ hmem hsize => Record.readInt_getColumn (Record.writes_of_range rfl) hmem hsize
  rw [stored_newOrderRecord, decodeNewOrder, hint 0 o (by simp) rfl, hint 1 param.dId (by simp) rfl,
    hint 2 param.wId (by simp) rfl]

/-- All columns of a line but the text are read back. -/
theorem decode_line (i : ℕ) (it : OrderItem) (behind : Bytes) :
    decodeOrderLine F behind ((lineRecord param s o i it).stored F leftover i) =
      { orderLineColumns F param o i it.iId it.wId it.qty
          (((s.row .item it.iId).map ItemRecord.iPrice).getD 0) (distInfo param s it) with
        olDistInfo :=
          ((lineRecord param s o i it).stored F leftover i).getColumnString behind 9 } := by
  rw [stored_lineRecord]
  generalize hcolumns : RecordBytes.orderLineColumns param o i it.iId it.wId it.qty
    (F.encode (lineAmount s it)) (textBytes (distInfo param s it)) = columns
  have hw : Record.Writes TpccSchema.getOrderLineSchema columns :=
    hcolumns ▸ Record.writes_of_range rfl
  have hint : ∀ (id size : ℕ) (n : ℤ), (id, intBytes size n) ∈ columns →
      size = TpccSchema.getOrderLineSchema.schema.getColumnSize id →
      readInt (((Record.fresh _ (leftover.buffer (i + 2))).setColumns columns).getColumn id) =
        n.bmod (256 ^ size) :=
    fun _ _ _ hmem hsize => Record.readInt_getColumn hw hmem hsize
  have hamount : ((Record.fresh _ (leftover.buffer (i + 2))).setColumns columns).getColumn 8 =
      F.encode (lineAmount s it) :=
    Record.getColumn_setColumns_full hw (by simp [← hcolumns, RecordBytes.orderLineColumns])
      (F.length_encode _)
  rw [decodeOrderLine, orderLineColumns, hamount,
    hint 0 4 o (by simp [← hcolumns, RecordBytes.orderLineColumns]) rfl,
    hint 1 4 param.dId (by simp [← hcolumns, RecordBytes.orderLineColumns]) rfl,
    hint 2 4 param.wId (by simp [← hcolumns, RecordBytes.orderLineColumns]) rfl,
    hint 3 4 (i + 1) (by simp [← hcolumns, RecordBytes.orderLineColumns]) rfl,
    hint 4 4 it.iId (by simp [← hcolumns, RecordBytes.orderLineColumns]) rfl,
    hint 5 4 it.wId (by simp [← hcolumns, RecordBytes.orderLineColumns]) rfl,
    hint 6 8 param.oEntryD (by simp [← hcolumns, RecordBytes.orderLineColumns]) rfl,
    hint 7 4 it.qty (by simp [← hcolumns, RecordBytes.orderLineColumns]) rfl]
  simp only [int32, int64, DoubleFormat.round, lineAmount]

/-- The text of a line is read back exactly if a zero follows it in the buffer. -/
theorem getColumnString_line_iff {i : ℕ} {r : OrderLineRecord} (h : DistText r.olDistInfo)
    (behind : Bytes) :
    (r.stored F leftover i).getColumnString behind 9 = some (textBytes r.olDistInfo) ↔
      leftover.buffer (i + 2) (TpccSchema.getOrderLineSchema.schema.getColumnOffset 9 + 24) = 0 := by
  have hlength : (textBytes r.olDistInfo).length = 24 := by rw [textBytes_length, h.1]
  have hzero : 0 ∉ textBytes r.olDistInfo :=
    fun hmem => (RecordBytes.plainText_of_distText h).2 0 hmem rfl
  have hread : (r.stored F leftover i).getColumnString behind 9 = some (textBytes r.olDistInfo) ↔
      leftover.buffer (i + 2) (TpccSchema.getOrderLineSchema.schema.getColumnOffset 9 +
        (textBytes r.olDistInfo).length) = 0 :=
    Record.getColumnString_fresh_iff (Record.writes_of_range rfl) (by decide) hzero
      (by rw [hlength]; decide)
  rwa [hlength] at hread

private theorem OrderLineColumns.withText_iff (c : OrderLineColumns) (text : Option Bytes) :
    { c with olDistInfo := text } = c ↔ text = c.olDistInfo := by
  cases c
  simp

private theorem decode_line_iff {i : ℕ} {it : OrderItem} (h : DistText (distInfo param s it))
    (behind : Bytes) : decodeOrderLine F behind ((lineRecord param s o i it).stored F leftover i) =
        orderLineColumns F param o i it.iId it.wId it.qty
          (((s.row .item it.iId).map ItemRecord.iPrice).getD 0) (distInfo param s it) ↔
      leftover.buffer (i + 2) (TpccSchema.getOrderLineSchema.schema.getColumnOffset 9 + 24) = 0 := by
  rw [decode_line, OrderLineColumns.withText_iff]
  exact getColumnString_line_iff h behind

/-- Every stock row has its texts for the districts. -/
def AllLabelled (s : Tables) : Prop := ∀ k r, s.row .stock k = some r → r.Labelled

private theorem PopulatedState.labelled {clock : Clock} {t : State} (h : PopulatedState K P clock t) :
    AllLabelled t.1 := fun _ _ hr =>
  ((h.stage (C := fun _ => True) (fun _ => trivial)).good _ _ _ hr).2.2.2.2.2

/-- No transaction writes the texts. -/
theorem AllLabelled.effect (hs : AllLabelled s) {e : EventTuple} (hv : e.Valid s)
    (heffect : Effect K s e s') : AllLabelled s' := by
  intro k r hr
  cases e with
  | delivery param =>
    rw [DeliveryStage.row heffect] at hr
    exact hs k r hr
  | newOrder param =>
    obtain ⟨next, first, -, hstage⟩ := heffect
    rw [hstage.row] at hr
    obtain ⟨r₀, hr₀, rfl⟩ := Option.map_eq_some_iff.mp hr
    rw [StockRecord.Labelled, StockRecord.sDists_foldl]
    exact hs k r₀ hr₀
  | payment param =>
    rw [Paid.row heffect] at hr
    exact hs k r hr
  | endExecution => exact hv.elim

section Placed
variable (h : NewOrderStage K param s o param.iIds.length param.iIds.length s')
include h

private theorem NewOrderStage.row_of_not_written {id : TableId} {k : Key id}
    (hk : ¬Written K param o id k) : s'.row id k = s.row id k := by
  rw [h.row]
  cases id with
  | district => exact if_neg hk
  | order off => exact if_neg hk
  | newOrder off => exact if_neg hk
  | orderLine off =>
    obtain ⟨o', d, w, i⟩ := k
    exact if_neg hk
  | stock =>
    have hnone : param.items.filter (fun it => (it.iId, it.wId) = k) = [] := by
      rw [List.filter_eq_nil_iff]
      intro it hit he
      exact hk ⟨it, hit, by simpa using he⟩
    rw [← param.length_items]
    simp only [newOrderRow, List.take_length, hnone, List.foldl_nil, Option.map_id']
  | _ => rfl

variable (hs : Orderable K param s o)
include hs

private theorem NewOrderStage.line_placed {i : ℕ} (hi : i < param.iIds.length) :
    ∃ it item stock, param.iIds[i]? = some it.iId ∧ param.iWIds[i]? = some it.wId ∧
      param.iQtys[i]? = some it.qty ∧ s.row .item it.iId = some item ∧
      s.row .stock (it.iId, it.wId) = some stock ∧
      s'.row (.orderLine (K.offset param.wId param.dId)) (o, param.dId, param.wId, (i : ℤ) + 1) =
        some (lineRecord param s o i it) := by
  obtain ⟨it, hit, hi', hw, hq⟩ := hs.fetch hi
  obtain ⟨item, hitem⟩ := Option.isSome_iff_exists.mp (hs.item it (List.mem_of_getElem? hit))
  obtain ⟨stock, hstock⟩ := Option.isSome_iff_exists.mp (hs.stock it (List.mem_of_getElem? hit))
  refine ⟨it, item, stock, hi', hw, hq, hitem, hstock, ?_⟩
  rw [h.row]
  simp only [newOrderRow]
  rw [if_pos (by simp; omega), show ((i : ℤ) + 1 - 1).toNat = i by omega, hit]
  rfl

variable (hd : 1 ≤ param.dId ∧ param.dId ≤ DISTRICTS_PER_WAREHOUSE) (hlabelled : AllLabelled s)
include hd hlabelled

/-- The row of the line at a position is read back exactly if a zero lies behind its text. -/
theorem NewOrderStage.line_decodes {i : ℕ} (hi : i < param.iIds.length) (behind : Bytes) :
    (∃ iId wId qty item stock r, param.iIds[i]? = some iId ∧ param.iWIds[i]? = some wId ∧
      param.iQtys[i]? = some qty ∧ s.row .item iId = some item ∧
      s.row .stock (iId, wId) = some stock ∧
      s'.row (.orderLine (K.offset param.wId param.dId)) (o, param.dId, param.wId, (i : ℤ) + 1) =
        some r ∧ decodeOrderLine F behind (r.stored F leftover i) =
          orderLineColumns F param o i iId wId qty item.iPrice (stock.dist (param.dId + 2))) ↔
      leftover.buffer (i + 2) (TpccSchema.getOrderLineSchema.schema.getColumnOffset 9 + 24) = 0 := by
  obtain ⟨it, item, stock, hiId, hwId, hqty, hitem, hstock, hrow⟩ := h.line_placed hs hi
  have hdist : distInfo param s it = stock.dist (param.dId + 2) := by simp [distInfo, hstock]
  have htext : DistText (distInfo param s it) := hdist ▸ (hlabelled _ _ hstock).dist hd
  have hiff : decodeOrderLine F behind ((lineRecord param s o i it).stored F leftover i) = _ ↔
      leftover.buffer (i + 2) (TpccSchema.getOrderLineSchema.schema.getColumnOffset 9 + 24) = 0 :=
    decode_line_iff htext behind
  rw [hitem, Option.map_some, Option.getD_some, hdist] at hiff
  rw [← hiff]
  constructor
  · rintro ⟨iId, wId, qty, item', stock', r, hiId', hwId', hqty', hitem', hstock', hrow', hdecode⟩
    rw [hiId] at hiId'
    rw [hwId] at hwId'
    rw [hqty] at hqty'
    cases hiId'
    cases hwId'
    cases hqty'
    rw [hitem] at hitem'
    rw [hstock] at hstock'
    rw [hrow] at hrow'
    cases hitem'
    cases hstock'
    cases hrow'
    exact hdecode
  · exact fun hdecode => ⟨it.iId, it.wId, it.qty, item, stock, _, hiId, hwId, hqty, hitem, hstock,
      hrow, hdecode⟩

private theorem NewOrderStage.orderPlaced (hclean : leftover.Clean param.iIds.length) :
    OrderPlaced K F param leftover behind o s s' where
  district := by
    obtain ⟨r, hr, ho⟩ := hs.district
    refine ⟨r, hr, ho, ?_⟩
    rw [h.row]
    simp [newOrderRow, hr, ho]
  fresh := ⟨hs.noOrder, hs.noNewOrder, hs.noLine⟩
  order := by
    refine ⟨orderRecord param o, ?_, decode_stored_iff.mpr hclean.beside⟩
    rw [h.row]
    simp [newOrderRow]
  newOrder := by
    refine ⟨_, ?_, decode_newOrder⟩
    rw [h.row]
    simp [newOrderRow]
  line i hi := (h.line_decodes hs hd hlabelled hi _).mpr (hclean.text i hi)
  others _ _ hk := h.row_of_not_written hk
  heap := h.heap

/-- Of the number that the district has given, the rows that were inserted are those that are
read. -/
private theorem NewOrderStage.clean_of_orderPlaced {o' : ℤ}
    (hp : OrderPlaced K F param leftover behind o' s s') : leftover.Clean param.iIds.length := by
  have ho : o = o' := by
    obtain ⟨r, hr, rfl⟩ := hs.district
    obtain ⟨r', hr', rfl, -⟩ := hp.district
    rw [hr] at hr'
    cases hr'
    rfl
  subst ho
  constructor
  · obtain ⟨x, hx, hdecode⟩ := hp.order
    rw [h.row] at hx
    simp only [newOrderRow, and_self, if_true, Option.some.injEq] at hx
    exact decode_stored_iff.mp (hx ▸ hdecode)
  · exact fun i hi => (h.line_decodes hs hd hlabelled hi _).mp (hp.line i hi)

end Placed

theorem Ledger.newOrderDone_iff {u : State} (hledger : Ledger K P u.1) (hlabelled : AllLabelled u.1)
    (hvalid : param.Valid u.1) :
    NewOrderDone K F param leftover behind u ↔ leftover.Clean param.iIds.length := by
  obtain ⟨next, first, hbook, -⟩ := hledger.newOrder hvalid
  have hs := hbook.orderable hvalid
  have hdistrict := (hledger.district _ _).mp hvalid.district
  have hd : 1 ≤ param.dId ∧ param.dId ≤ DISTRICTS_PER_WAREHOUSE := ⟨hdistrict.1, hdistrict.2.1⟩
  have hspec : Program.Ensures True (processNewOrder K param) (u.1, u.2) _ := processNewOrder_spec hs
  obtain ⟨_, v, hv, hrand, hstage⟩ := hspec.exists_run trivial
  constructor
  · rintro ⟨v', o, hv', -, hplaced⟩
    rw [hv] at hv'
    cases hv'
    exact hstage.clean_of_orderPlaced hs hd hlabelled hplaced
  · exact fun hclean => ⟨v, next, hv, hrand, hstage.orderPlaced hs hd hlabelled hclean⟩

/-- A new order in a state that a run reaches: its rows are read back as they should be exactly if
the memory is zero behind its `bool` and behind the text of each of its lines. -/
theorem new_order_end_to_end_iff {clock : Clock} {t u : State} {txns : List Txn}
    (hpop : PopulatedState K P clock t) (hv : ValidRun K t txns)
    (hrun : run (step K) t txns = some u) (hvalid : param.Valid u.1) :
    NewOrderDone K F param leftover behind u ↔ leftover.Clean param.iIds.length := by
  obtain ⟨hledger, hlabelled⟩ := hpop.ledger.reached (I := AllLabelled) hpop.labelled
    (fun _ _ _ _ hlabelled hvalid heffect => hlabelled.effect hvalid heffect) hv hrun
  exact hledger.newOrderDone_iff hlabelled hvalid

/-- Four of an item for customer 1 of district 3 of warehouse 2. -/
def oneMoreOrder : NewOrderParam := ⟨2, 3, 1, 11, [1], [2], [4]⟩

private theorem new_order_after_shortRun : ∃ t u, PopulatedState .unpartitioned .small (fun _ => 0) t ∧
    run (step .unpartitioned) t shortRun = some u ∧ Ledger .unpartitioned .small u.1 ∧
    AllLabelled u.1 ∧ oneMoreOrder.Valid u.1 := by
  obtain ⟨t, ht⟩ := exists_small
  have hvalid := ht.validRun_iff.mpr shortRun_inScale
  obtain ⟨u, hrun, hledger⟩ := ht.ledger.exists_run hvalid
  have hlabelled := (ht.ledger.reached (I := AllLabelled) ht.labelled
    (fun _ _ _ _ hlabelled hvalid heffect => hlabelled.effect hvalid heffect) hvalid hrun).2
  have hinScale : (EventTuple.newOrder oneMoreOrder).InScale .small := by decide
  exact ⟨t, u, ht, hrun, hledger, hlabelled, hledger.valid_iff.mpr hinScale⟩

theorem new_order_end_to_end_zeros : ∃ t u, PopulatedState .unpartitioned .small (fun _ => 0) t ∧
    run (step .unpartitioned) t shortRun = some u ∧
    NewOrderDone .unpartitioned RecordBytes.wholeNumbers oneMoreOrder
      ⟨fun _ _ => 0, fun _ => 0⟩ (fun _ => []) u := by
  obtain ⟨t, u, ht, hrun, -, -, hvalid⟩ := new_order_after_shortRun
  exact ⟨t, u, ht, hrun, (new_order_end_to_end_iff ht (ht.validRun_iff.mpr shortRun_inScale) hrun
    hvalid).mpr ⟨fun _ _ => rfl, fun _ _ => rfl⟩⟩

/-- With ones behind the `bool` the order cannot be read back, and with ones in the new buffers its
line cannot. -/
theorem new_order_not_done_ones : ∃ t u, PopulatedState .unpartitioned .small (fun _ => 0) t ∧
    ValidRun .unpartitioned t shortRun ∧ run (step .unpartitioned) t shortRun = some u ∧
    oneMoreOrder.Valid u.1 ∧
    ¬NewOrderDone .unpartitioned RecordBytes.wholeNumbers oneMoreOrder
      ⟨fun _ _ => 0, fun _ => 1⟩ (fun _ => []) u ∧
    ¬NewOrderDone .unpartitioned RecordBytes.wholeNumbers oneMoreOrder
      ⟨fun _ _ => 1, fun _ => 0⟩ (fun _ => []) u := by
  obtain ⟨t, u, ht, hrun, hledger, hlabelled, hvalid⟩ := new_order_after_shortRun
  refine ⟨t, u, ht, ht.validRun_iff.mpr shortRun_inScale, hrun, hvalid, ?_, ?_⟩
  · rw [hledger.newOrderDone_iff hlabelled hvalid]
    exact fun hclean => absurd (hclean.beside 0 (by decide)) (by decide)
  · rw [hledger.newOrderDone_iff hlabelled hvalid]
    exact fun hclean => absurd (hclean.text 0 (by decide)) (by decide)

end ImdbD.Benchmark.TPCC
