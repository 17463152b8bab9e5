import ImdbD.TpccSchema
import ImdbD.TpccProcessor

/-!
# New orders and payments over records of bytes

The same sub-transactions as over rows of values, with the buffers as the source
fills them. A buffer that was just allocated and the memory behind a local
variable hold anything.
-/
namespace ImdbD.Benchmark.TPCC
open ByteMemory StorageEngine AtomicProgram

/-- How a double is kept: the object of the double nearest to a number, and the number that an
object holds. -/
structure DoubleFormat where
  encode : ℚ → Bytes
  decode : Bytes → ℚ
  length_encode : ∀ x, (encode x).length = 8

/-- What a transaction finds in memory: the buffer of its `n`-th record as it was allocated, and
the bytes behind the local variable `all_local`. -/
structure Leftover where
  buffer : ℕ → ℕ → UInt8
  beside : ℕ → UInt8

namespace RecordBytes

def boolBytes (b : Bool) : Bytes := [if b then 1 else 0]

/-- The objects copied into the columns of an order. `o_all_local` is copied from a `bool`. -/
def orderColumns (leftover : Leftover) (param : NewOrderParam) (dNextOId : ℤ) : List (ℕ × Bytes) :=
  let allLocal := param.iWIds.all (fun wId => param.wId = wId)
  let olCnt : ℤ := param.iIds.length
  [(0, intBytes 4 dNextOId), (1, intBytes 4 param.cId), (2, intBytes 4 param.dId),
    (3, intBytes 4 param.wId), (4, intBytes 8 param.oEntryD), (5, intBytes 4 NULL_CARRIER_ID),
    (6, intBytes 4 olCnt), (7, boolBytes allLocal ++ read leftover.beside 0 3)]

def orderRecord (leftover : Leftover) (param : NewOrderParam) (dNextOId : ℤ) :
    Record TpccSchema.getOrderSchema :=
  (Record.fresh _ (leftover.buffer 0)).setColumns (orderColumns leftover param dNextOId)

def newOrderRecord (leftover : Leftover) (param : NewOrderParam) (dNextOId : ℤ) :
    Record TpccSchema.getNewOrderSchema :=
  (Record.fresh _ (leftover.buffer 1)).setColumns
    [(0, intBytes 4 dNextOId), (1, intBytes 4 param.dId), (2, intBytes 4 param.wId)]

/-- The objects copied into the columns of the line at position `i`. -/
def orderLineColumns (param : NewOrderParam) (dNextOId : ℤ) (i : ℕ) (olIId olSupplyWId olQuantity : ℤ)
    (olAmount sDist : Bytes) : List (ℕ × Bytes) :=
  [(0, intBytes 4 dNextOId), (1, intBytes 4 param.dId), (2, intBytes 4 param.wId),
    (3, intBytes 4 (i + 1)), (4, intBytes 4 olIId), (5, intBytes 4 olSupplyWId),
    (6, intBytes 8 param.oEntryD), (7, intBytes 4 olQuantity), (8, olAmount), (9, sDist)]

def historyColumns (F : DoubleFormat) (param : PaymentParam) (hData : String) : List (ℕ × Bytes) :=
  [(0, intBytes 4 param.cId), (1, intBytes 4 param.cDId), (2, intBytes 4 param.cWId),
    (3, intBytes 4 param.dId), (4, intBytes 4 param.wId), (5, intBytes 8 param.hDate),
    (6, F.encode param.hAmount), (7, textBytes hData)]

def historyRecord (F : DoubleFormat) (leftover : Leftover) (param : PaymentParam) (hData : String) :
    Record TpccSchema.getHistorySchema :=
  (Record.fresh _ (leftover.buffer 0)).setColumns (historyColumns F param hData)

section SubTransactions
variable {σ : Type} (M : StorageManager layout σ) (K : Constants) (F : DoubleFormat)
  (leftover : Leftover)

def neworderSubTxn1 (param : NewOrderParam) : Program σ ℤ := do
  let districtRecord ← M.selectRecord .district
    [(0, intBytes 4 param.dId), (1, intBytes 4 param.wId)]
  let record ← Program.fetch districtRecord
  let dNextOId ← M.getColumn record 10
  M.updateRecord record [(10, intBytes 4 (readInt dNextOId + 1))]
  return readInt dNextOId

def neworderSubTxn2 (param : NewOrderParam) (dNextOId : ℤ) : Program σ Unit :=
  M.insertRecord (.order (K.offset param.wId param.dId)) (orderRecord leftover param dNextOId)

def neworderSubTxn3 (param : NewOrderParam) (dNextOId : ℤ) : Program σ Unit :=
  M.insertRecord (.newOrder (K.offset param.wId param.dId)) (newOrderRecord leftover param dNextOId)

/-- A text is read up to the first zero byte, and not beyond its column. -/
def neworderSubTxn4Single (param : NewOrderParam) (i : ℕ) : Program σ Bytes := do
  let olSupplyWId ← Program.fetch param.iWIds[i]?
  let olIId ← Program.fetch param.iIds[i]?
  let olQuantity ← Program.fetch param.iQtys[i]?
  let stockRecord ← M.selectRecord .stock [(0, intBytes 4 olIId), (1, intBytes 4 olSupplyWId)]
  let record ← Program.fetch stockRecord
  let quantity ← M.getColumn record 2
  let newQuantity :=
    if readInt quantity ≥ olQuantity + 10 then readInt quantity - olQuantity
    else readInt quantity + 91 - olQuantity
  let ytd ← M.getColumn record 13
  let orderCnt ← M.getColumn record 14
  M.updateRecord record [(2, intBytes 4 newQuantity), (13, intBytes 4 (readInt ytd + olQuantity)),
    (14, intBytes 4 (readInt orderCnt + 1))]
  if olSupplyWId ≠ param.wId then
    let remoteCnt ← M.getColumn record 15
    M.updateRecord record [(15, intBytes 4 (readInt remoteCnt + 1))]
  let distColumn := toSize (param.dId + 2)
  Program.assert (distColumn < TpccSchema.getStockSchema.schema.columnCount)
  let sDist ← M.getColumn record distColumn
  return sDist.takeWhile (fun b => b ≠ 0)

def neworderSubTxn4 (param : NewOrderParam) : Program σ (List Bytes) :=
  Program.collect (neworderSubTxn4Single M param) (List.range param.iIds.length)

def neworderSubTxn5Single (param : NewOrderParam) (i : ℕ) : Program σ Bytes := do
  let iId ← Program.fetch param.iIds[i]?
  let itemRecord ← M.selectRecord .item [(0, intBytes 4 iId)]
  let record ← Program.fetch itemRecord
  let olQuantity ← Program.fetch param.iQtys[i]?
  let price ← M.getColumn record 3
  return F.encode (olQuantity * F.decode price)

def neworderSubTxn5 (param : NewOrderParam) : Program σ (List Bytes) :=
  Program.collect (neworderSubTxn5Single M F param) (List.range param.iIds.length)

def neworderSubTxn6 (param : NewOrderParam) (dNextOId : ℤ) (sDists olAmounts : List Bytes) :
    Program σ Unit :=
  Program.each (fun i : ℕ => do
    let olIId ← Program.fetch param.iIds[i]?
    let olSupplyWId ← Program.fetch param.iWIds[i]?
    let olQuantity ← Program.fetch param.iQtys[i]?
    let olAmount ← Program.fetch olAmounts[i]?
    let sDist ← Program.fetch sDists[i]?
    let data : Record TpccSchema.getOrderLineSchema := .fresh _ (leftover.buffer (i + 2))
    M.insertRecord (.orderLine (K.offset param.wId param.dId)) (data.setColumns
      (orderLineColumns param dNextOId i olIId olSupplyWId olQuantity olAmount sDist)))
    (List.range param.iIds.length)

def paymentSubTxn1 (param : PaymentParam) : Program σ Unit := do
  let warehouseRecord ← M.selectRecord .warehouse [(0, intBytes 4 param.wId)]
  let record ← Program.fetch warehouseRecord
  let wYtd ← M.getColumn record 8
  M.updateRecord record [(8, F.encode (F.decode wYtd + param.hAmount))]

def paymentSubTxn2 (param : PaymentParam) : Program σ Unit := do
  let districtRecord ← M.selectRecord .district
    [(0, intBytes 4 param.dId), (1, intBytes 4 param.wId)]
  let record ← Program.fetch districtRecord
  let dYtd ← M.getColumn record 9
  M.updateRecord record [(9, F.encode (F.decode dYtd + param.hAmount))]

def paymentSubTxn3 (param : PaymentParam) : Program (σ × Rand) Unit := do
  let hData ← Program.onSnd (RandomGenerator.generateCString 12 24)
  Program.onFst (M.insertRecord .history (historyRecord F leftover param hData))

def paymentSubTxn4 (param : PaymentParam) : Program σ Unit := do
  let customerRecord ← M.selectRecord .customer
    [(0, intBytes 4 param.cId), (1, intBytes 4 param.dId), (2, intBytes 4 param.wId)]
  let record ← Program.fetch customerRecord
  let balance ← M.getColumn record 16
  let ytdPayment ← M.getColumn record 17
  let paymentCnt ← M.getColumn record 18
  M.updateRecord record [(16, F.encode (F.decode balance - param.hAmount)),
    (17, F.encode (F.decode ytdPayment + param.hAmount)),
    (18, intBytes 4 (readInt paymentCnt + 1))]

def processNewOrder (param : NewOrderParam) : Program σ Unit := do
  let dNextOId ← neworderSubTxn1 M param
  neworderSubTxn2 M K leftover param dNextOId
  neworderSubTxn3 M K leftover param dNextOId
  let sDists ← neworderSubTxn4 M param
  let olAmounts ← neworderSubTxn5 M F param
  neworderSubTxn6 M K leftover param dNextOId sDists olAmounts

def processPayment (param : PaymentParam) : Program (σ × Rand) Unit := do
  Program.onFst (paymentSubTxn1 M F param)
  Program.onFst (paymentSubTxn2 M F param)
  paymentSubTxn3 M F leftover param
  Program.onFst (paymentSubTxn4 M F param)

end SubTransactions

section OrderRow
variable {leftover : Leftover} {param : NewOrderParam} {o : ℤ}

theorem writes_orderColumns :
    Record.Writes TpccSchema.getOrderSchema (orderColumns leftover param o) := by
  refine ⟨?_, ?_⟩ <;> simp only [orderColumns, List.map_cons, List.map_nil] <;> decide

/-- A column of an order that is copied from an object of its size. -/
theorem getColumn_orderRecord {id : ℕ} {value : Bytes}
    (hmem : (id, value) ∈ orderColumns leftover param o)
    (hsize : value.length = TpccSchema.getOrderSchema.schema.getColumnSize id) :
    (orderRecord leftover param o).getColumn id = value :=
  Record.getColumn_setColumns_full writes_orderColumns hmem hsize

/-- The column of `o_all_local` holds the `bool` and three bytes of the memory behind it. -/
theorem getColumn_allLocal : (orderRecord leftover param o).getColumn 7 =
    boolBytes (param.iWIds.all (fun wId => param.wId = wId)) ++ read leftover.beside 0 3 :=
  getColumn_orderRecord (by simp [orderColumns]) (by simp [boolBytes]; rfl)

end OrderRow
end RecordBytes
end ImdbD.Benchmark.TPCC
