import ImdbD.RecordGroups
import ImdbD.TpccRecordBytes
import ImdbD.TpccPopulator

/-!
# TPC-C over records of bytes, from the population to the end

The population, the deliveries and the serial processor, over the calls of any
storage manager. With the new orders and the payments over records of bytes these
are the programs as the source runs them on the bytes of its tables.
-/
namespace ImdbD.Benchmark.TPCC
open ByteMemory StorageEngine AtomicProgram

namespace RecordBytes

/-- A text in a `char` array of a record that was set to zero when it was made. -/
def fieldBytes (size : ℕ) (text : String) : Bytes :=
  textBytes text ++ List.replicate (size - (textBytes text).length) 0

section Columns
variable (F : DoubleFormat)

def itemColumns (r : ItemRecord) : List (ℕ × Bytes) :=
  [(0, intBytes 4 r.iId), (1, intBytes 4 r.iImId), (2, fieldBytes 32 r.iName), (3, F.encode r.iPrice),
    (4, fieldBytes 64 r.iData)]

def warehouseColumns (r : WarehouseRecord) : List (ℕ × Bytes) :=
  [(0, intBytes 4 r.wId), (1, fieldBytes 16 r.wName), (2, fieldBytes 32 r.wStreet1),
    (3, fieldBytes 32 r.wStreet2), (4, fieldBytes 32 r.wCity), (5, fieldBytes 2 r.wState),
    (6, fieldBytes 9 r.wZip), (7, F.encode r.wTax), (8, F.encode r.wYtd)]

def districtColumns (r : DistrictRecord) : List (ℕ × Bytes) :=
  [(0, intBytes 4 r.dId), (1, intBytes 4 r.dWId), (2, fieldBytes 16 r.dName),
    (3, fieldBytes 32 r.dStreet1), (4, fieldBytes 32 r.dStreet2), (5, fieldBytes 32 r.dCity),
    (6, fieldBytes 2 r.dState), (7, fieldBytes 9 r.dZip), (8, F.encode r.dTax), (9, F.encode r.dYtd),
    (10, intBytes 4 r.dNextOId)]

def customerColumns (r : CustomerRecord) : List (ℕ × Bytes) :=
  [(0, intBytes 4 r.cId), (1, intBytes 4 r.cDId), (2, intBytes 4 r.cWId), (3, fieldBytes 32 r.cFirst),
    (4, fieldBytes 2 r.cMiddle), (5, fieldBytes 32 r.cLast), (6, fieldBytes 32 r.cStreet1),
    (7, fieldBytes 32 r.cStreet2), (8, fieldBytes 32 r.cCity), (9, fieldBytes 2 r.cState),
    (10, fieldBytes 9 r.cZip), (11, fieldBytes 32 r.cPhone), (12, intBytes 8 r.cSince),
    (13, fieldBytes 2 r.cCredit), (14, F.encode r.cCreditLim), (15, F.encode r.cDiscount),
    (16, F.encode r.cBalance), (17, F.encode r.cYtdPayment), (18, intBytes 4 r.cPaymentCnt),
    (19, intBytes 4 r.cDeliveryCnt), (20, fieldBytes 500 r.cData)]

def stockColumns (r : StockRecord) : List (ℕ × Bytes) :=
  [(0, intBytes 4 r.sIId), (1, intBytes 4 r.sWId), (2, intBytes 4 r.sQuantity)] ++
    (List.range 10).map (fun i : ℕ => (i + 3, fieldBytes 32 (r.dist (i + 3 : ℕ)))) ++
  [(13, intBytes 4 r.sYtd), (14, intBytes 4 r.sOrderCnt), (15, intBytes 4 r.sRemoteCnt),
    (16, fieldBytes 64 r.sData)]

/-- `o_all_local` is an `int` of the record. -/
def populatedOrderColumns (r : OrderRecord) : List (ℕ × Bytes) :=
  [(0, intBytes 4 r.oId), (1, intBytes 4 r.oCId), (2, intBytes 4 r.oDId), (3, intBytes 4 r.oWId),
    (4, intBytes 8 r.oEntryD), (5, intBytes 4 r.oCarrierId), (6, intBytes 4 r.oOlCnt),
    (7, intBytes 4 (if r.oAllLocal then 1 else 0))]

def newOrderColumns (r : NewOrderRecord) : List (ℕ × Bytes) :=
  [(0, intBytes 4 r.oId), (1, intBytes 4 r.dId), (2, intBytes 4 r.wId)]

def populatedLineColumns (r : OrderLineRecord) : List (ℕ × Bytes) :=
  [(0, intBytes 4 r.olOId), (1, intBytes 4 r.olDId), (2, intBytes 4 r.olWId),
    (3, intBytes 4 r.olNumber), (4, intBytes 4 r.olIId), (5, intBytes 4 r.olSupplyWId),
    (6, intBytes 8 r.olDeliveryD), (7, intBytes 4 r.olQuantity), (8, F.encode r.olAmount),
    (9, fieldBytes 32 r.olDistInfo)]

def populatedHistoryColumns (r : HistoryRecord) : List (ℕ × Bytes) :=
  [(0, intBytes 4 r.hCId), (1, intBytes 4 r.hCDId), (2, intBytes 4 r.hCWId), (3, intBytes 4 r.hDId),
    (4, intBytes 4 r.hWId), (5, intBytes 8 r.hDate), (6, F.encode r.hAmount),
    (7, fieldBytes 32 r.hData)]

def districtNewOrderColumns (r : DistrictNewOrderRecord) : List (ℕ × Bytes) :=
  [(0, intBytes 4 r.wId), (1, intBytes 4 r.dId), (2, intBytes 4 r.oId)]

/-- What the populator copies into the columns of a row. -/
def populatedColumns : ∀ id, Row id → List (ℕ × Bytes)
  | .item => itemColumns F
  | .warehouse => warehouseColumns F
  | .district => districtColumns F
  | .customer => customerColumns F
  | .history => populatedHistoryColumns F
  | .stock => stockColumns
  | .districtNewOrder => districtNewOrderColumns
  | .order _ => populatedOrderColumns
  | .newOrder _ => newOrderColumns
  | .orderLine _ => populatedLineColumns F

/-- `buffer` is what the memory of the new record held. -/
def populatedRecord (buffer : ℕ → UInt8) (id : TableId) (r : Row id) : Record (layout id).schema :=
  (Record.fresh _ buffer).setColumns (populatedColumns F id r)

end Columns

/-- The tables of a storage manager, the draws and the clock. -/
abbrev Env (σ : Type) := (σ × Rand) × Clock

/-- A generator of the populator draws and reads the clock; it sees no tables. -/
def generate {σ α : Type} : Program TPCC.Env α → Program (Env σ) α
  | .done a => .done a
  | .step action next => .step (fun s => (action ((.empty, s.1.2), s.2)).map (fun r =>
      (r.1, (s.1.1, r.2.1.2), r.2.2))) (fun b => generate (next b))

section Population
variable {σ : Type} (M : StorageManager layout σ) (K : Constants) (F : DoubleFormat)
  (buffer : ∀ id, Row id → ℕ → UInt8) (P : ScaleParams) (cLast : ℤ) (rounds : ℕ)

def insertRow (id : TableId) (r : Row id) : Program (Env σ) Unit :=
  (M.insertRecord id (populatedRecord F (buffer id r) id r)).onFst.onFst

def populateCustomer (wId dId : ℤ) (selectedRows : List ℤ) (cId : ℤ) : Program (Env σ) Unit := do
  let customerRecord ← generate
    (TpccPopulator.generateCustomerRecord cLast wId dId cId (decide (cId ∈ selectedRows)))
  insertRow M F buffer .customer customerRecord
  let historyRecord ← generate (TpccPopulator.generateHistoryRecord wId dId cId)
  insertRow M F buffer .history historyRecord

def populateOrder (wId dId initialNewOrderId oId : ℤ) : Program (Env σ) Unit := do
  let oOlCnt ← generate (TpccPopulator.draw (RandomGenerator.generateInteger 5 15))
  let isNewOrder := decide (oId ≥ initialNewOrderId)
  let orderRecord ← generate (TpccPopulator.generateOrderRecord wId dId oId oId oOlCnt isNewOrder)
  insertRow M F buffer (.order (K.offset wId dId)) orderRecord
  Program.each (fun olNumber => do
    let orderLineRecord ← generate
      (TpccPopulator.generateOrderLineRecord wId dId oId olNumber P.numItems isNewOrder)
    insertRow M F buffer (.orderLine (K.offset wId dId)) orderLineRecord) (upTo oOlCnt)
  if isNewOrder then
    insertRow M F buffer (.newOrder (K.offset wId dId))
      (TpccPopulator.generateNewOrderRecord wId dId oId)

def populateDistrict (wId dId : ℤ) : Program (Env σ) Unit := do
  let districtRecord ← generate
    (TpccPopulator.generateDistrictRecord wId dId (P.numCustomersPerDistrict + 1))
  insertRow M F buffer .district districtRecord
  let selectedRows ← generate (TpccPopulator.draw (RandomGenerator.selectUniqueIds rounds 1
    P.numCustomersPerDistrict (P.numCustomersPerDistrict / 10) []))
  Program.each (populateCustomer M F buffer cLast wId dId selectedRows) (upTo P.numCustomersPerDistrict)
  let initialNewOrderId : ℤ := P.numCustomersPerDistrict - P.numNewOrdersPerDistrict + 1
  insertRow M F buffer .districtNewOrder
    (TpccPopulator.generateDistrictNewOrderRecord wId dId initialNewOrderId)
  Program.each (populateOrder M K F buffer P wId dId initialNewOrderId)
    (upTo P.numCustomersPerDistrict)

def populateWarehouse (wId : ℤ) : Program (Env σ) Unit := do
  let warehouseRecord ← generate (TpccPopulator.generateWarehouseRecord wId)
  insertRow M F buffer .warehouse warehouseRecord
  Program.each (populateDistrict M K F buffer P cLast rounds wId) (upTo DISTRICTS_PER_WAREHOUSE)
  let _ ← generate (TpccPopulator.draw (RandomGenerator.selectUniqueIds rounds 1 P.numItems
    (P.numItems / 10) []))
  Program.each (fun iId => do
    let stockRecord ← generate (TpccPopulator.generateStockRecord wId iId)
    insertRow M F buffer .stock stockRecord) (upTo P.numItems)

def startPopulate : Program (Env σ) Unit := do
  let _ ← generate (TpccPopulator.draw (RandomGenerator.selectUniqueIds rounds 1 P.numItems
    (P.numItems / 10) []))
  Program.each (fun itemId => do
    let itemRecord ← generate (TpccPopulator.generateItemRecord itemId)
    insertRow M F buffer .item itemRecord) (upTo P.numItems)
  Program.each (populateWarehouse M K F buffer P cLast rounds) (upTo P.numWarehouses)

end Population

section Delivery
variable {σ : Type} (M : RecordsManager layout σ) (K : Constants) (F : DoubleFormat)

def deliverySubTxn1Single (param : DeliveryParam) (noDId : ℤ) : Program σ (Option ℤ) := do
  let districtNewOrderRecord ← M.selectRecord .districtNewOrder
    [(0, intBytes 4 param.wId), (1, intBytes 4 noDId)]
  let record ← Program.fetch districtNewOrderRecord
  let noOId ← M.getColumn record 2
  let newOrderRecord ← M.selectRecord (.newOrder (K.offset param.wId noDId))
    [(0, intBytes 4 (readInt noOId)), (1, intBytes 4 noDId), (2, intBytes 4 param.wId)]
  match newOrderRecord with
  | some newOrder =>
    M.deleteRecord newOrder
    M.updateRecord record [(2, intBytes 4 (readInt noOId + 1))]
    return some (readInt noOId)
  | none => return none

def deliverySubTxn1 (param : DeliveryParam) : Program σ (List (ℤ × ℤ)) := do
  let found ← Program.collect (fun noDId => do
    let noOId ← deliverySubTxn1Single M K param noDId
    return noOId.map (fun oId => (noDId, oId))) (upTo DISTRICTS_PER_WAREHOUSE)
  return found.reduceOption

/-- The sum is a double that is rounded after every addition. -/
def deliverySubTxn2Single (param : DeliveryParam) (noDId noOId : ℤ) : Program σ Bytes := do
  let orderLineRecords ← M.selectRecords (.orderLine (K.offset param.wId noDId))
    [(0, intBytes 4 noOId), (1, intBytes 4 noDId), (2, intBytes 4 param.wId)]
  Program.assert (orderLineRecords.length ≠ 0)
  let amounts ← Program.collect (fun record => do
    M.updateRecord record [(6, intBytes 8 param.olDeliveryD)]
    M.getColumn record 8) orderLineRecords
  return amounts.foldl (fun sum amount => F.encode (F.decode sum + F.decode amount)) (F.encode 0)

def deliverySubTxn2 (param : DeliveryParam) (noOIds : List (ℤ × ℤ)) : Program σ (List (ℤ × Bytes)) :=
  Program.collect (fun entry => do
    let sum ← deliverySubTxn2Single M K F param entry.1 entry.2
    return (entry.1, sum)) noOIds

def deliverySubTxn3Single (param : DeliveryParam) (noDId noOId : ℤ) : Program σ ℤ := do
  let orderRecord ← M.selectRecord (.order (K.offset param.wId noDId))
    [(0, intBytes 4 noOId), (2, intBytes 4 noDId), (3, intBytes 4 param.wId)]
  let record ← Program.fetch orderRecord
  M.updateRecord record [(5, intBytes 4 param.oCarrierId)]
  let cId ← M.getColumn record 1
  return readInt cId

def deliverySubTxn3 (param : DeliveryParam) (noOIds : List (ℤ × ℤ)) : Program σ (List (ℤ × ℤ)) :=
  Program.collect (fun entry => do
    let cId ← deliverySubTxn3Single M K param entry.1 entry.2
    return (entry.1, cId)) noOIds

def deliverySubTxn4Single (param : DeliveryParam) (noDId : ℤ) (sum : Bytes) (cId : ℤ) :
    Program σ Unit := do
  let customerRecord ← M.selectRecord .customer
    [(0, intBytes 4 cId), (1, intBytes 4 noDId), (2, intBytes 4 param.wId)]
  let record ← Program.fetch customerRecord
  let balance ← M.getColumn record 16
  M.updateRecord record [(16, F.encode (F.decode balance + F.decode sum))]

def deliverySubTxn4 (param : DeliveryParam) (noOIds : List (ℤ × ℤ)) (sums : List (ℤ × Bytes))
    (cIds : List (ℤ × ℤ)) : Program σ Unit :=
  Program.each (fun entry => do
    let cId ← Program.fetch (cIds.lookup entry.1)
    let sum ← Program.fetch (sums.lookup entry.1)
    deliverySubTxn4Single M F param entry.1 sum cId) noOIds

def processDelivery (order : IterationOrder) (param : DeliveryParam) : Program σ Unit := do
  let noOIds ← deliverySubTxn1 M K param
  let sums ← deliverySubTxn2 M K F param (order.entries noOIds)
  let cIds ← deliverySubTxn3 M K param (order.entries noOIds)
  deliverySubTxn4 M F param (order.entries noOIds) sums cIds

/-- `leftovers` gives what the transaction with a given number finds in memory. -/
def start (leftovers : ℕ → Leftover) (orders : ℕ → IterationOrder) :
    ℕ → List EventTuple → Program (σ × Rand) Unit
  | txnCnt, .delivery param :: queue => do
    Program.onFst (processDelivery M K F (orders txnCnt) param)
    start leftovers orders (txnCnt + 1) queue
  | txnCnt, .newOrder param :: queue => do
    Program.onFst (processNewOrder M.toStorageManager K F (leftovers txnCnt) param)
    start leftovers orders (txnCnt + 1) queue
  | txnCnt, .payment param :: queue => do
    processPayment M.toStorageManager F (leftovers txnCnt) param
    start leftovers orders (txnCnt + 1) queue
  | _, .endExecution :: _ => pure ()
  | _, [] => Program.fault

end Delivery
end RecordBytes
end ImdbD.Benchmark.TPCC
