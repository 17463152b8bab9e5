import ImdbD.TpccProcessor

/-!
# The populator of TPC-C

The first contents of the tables, in the order in which the source inserts them
and draws its random numbers.
-/
namespace ImdbD.Benchmark.TPCC
open AtomicProgram KeyedStore RandomGenerator

/-- What the system clock will show at its next readings. -/
abbrev Clock := ℕ → ℤ

/-- The tables, the draws and the clock. -/
abbrev Env := State × Clock

namespace TpccPopulator

def draw {α : Type} (p : Program Rand α) : Program Env α := p.onSnd.onFst

def generateCurrentTime : Program Env ℤ :=
  .atomic (fun s => some (s.2 0, s.1, fun n => s.2 (n + 1)))

def generateItemRecord (itemId : ℤ) : Program Env ItemRecord := do
  let iImId ← draw (generateInteger 1 10000)
  let iName ← draw (generateCString 14 24)
  let iPrice ← draw (generateFixedPoint 2 1 100)
  let iData ← draw (generateCString 26 50)
  return { iId := itemId, iImId, iName, iPrice, iData }

def generateWarehouseRecord (wId : ℤ) : Program Env WarehouseRecord := do
  let wName ← draw (generateCString 6 10)
  let (wStreet1, wStreet2, wCity, wState, wZip) ← draw generateAddress
  let wTax ← draw generateTax
  return { wId, wName, wStreet1, wStreet2, wCity, wState, wZip, wTax, wYtd := 300000 }

def generateDistrictRecord (dWId dId dNextOId : ℤ) : Program Env DistrictRecord := do
  let dName ← draw (generateCString 6 10)
  let (dStreet1, dStreet2, dCity, dState, dZip) ← draw generateAddress
  let dTax ← draw generateTax
  return { dId, dWId, dName, dStreet1, dStreet2, dCity, dState, dZip, dTax, dYtd := 30000,
           dNextOId }

/-- `cLast` is the constant of the generator for last names. -/
def generateCustomerRecord (cLast cWId cDId cId : ℤ) (badCredit : Bool) :
    Program Env CustomerRecord := do
  let cFirst ← draw (generateCString 6 10)
  let cLast ← draw (if cId < 1000 then pure (generateLastName (cId - 1))
    else generateRandomLastName cLast 3000)
  let (cStreet1, cStreet2, cCity, cState, cZip) ← draw generateAddress
  let cPhone ← draw (generateNString 16 16)
  let cSince ← generateCurrentTime
  let cDiscount ← draw (generateFixedPoint 4 0 (1 / 2))
  let cData ← draw (generateCString 300 500)
  return { cId, cDId, cWId, cFirst, cMiddle := "OE", cLast, cStreet1, cStreet2, cCity, cState,
           cZip, cPhone, cSince, cCredit := if badCredit then "BC" else "GC", cCreditLim := 50000,
           cDiscount, cBalance := -10, cYtdPayment := 10, cPaymentCnt := 1, cDeliveryCnt := 0,
           cData }

def generateStockRecord (sWId sIId : ℤ) : Program Env StockRecord := do
  let sQuantity ← draw (generateInteger 10 100)
  let sDists ← Program.collect (fun _ => draw (generateCString 24 24)) (upTo DISTRICTS_PER_WAREHOUSE)
  let sData ← draw (generateCString 26 50)
  return { sIId, sWId, sQuantity, sDists, sYtd := 0, sOrderCnt := 0, sRemoteCnt := 0, sData }

def generateOrderRecord (oWId oDId oId oCId oOlCnt : ℤ) (newOrder : Bool) :
    Program Env OrderRecord := do
  let oEntryD ← generateCurrentTime
  let oCarrierId ← if newOrder then pure NULL_CARRIER_ID else draw (generateInteger 1 10)
  return { oId, oCId, oDId, oWId, oEntryD, oCarrierId, oOlCnt, oAllLocal := true }

def generateNewOrderRecord (wId dId oId : ℤ) : NewOrderRecord := { oId, dId, wId }

def generateOrderLineRecord (olWId olDId olOId olNumber maxItems : ℤ) (newOrder : Bool) :
    Program Env OrderLineRecord := do
  let olIId ← draw (generateInteger 1 maxItems)
  let (olDeliveryD, olAmount) ←
    if newOrder then do
      let amount ← draw (generateFixedPoint 2 (1 / 100) (100 * 10))
      pure (-1, amount)
    else do
      let now ← generateCurrentTime
      pure (now, 0)
  let olDistInfo ← draw (generateCString 24 24)
  return { olOId, olDId, olWId, olNumber, olIId, olSupplyWId := olWId, olDeliveryD,
           olQuantity := 5, olAmount, olDistInfo }

def generateHistoryRecord (hCWId hCDId hCId : ℤ) : Program Env HistoryRecord := do
  let hDate ← generateCurrentTime
  let hData ← draw (generateCString 12 24)
  return { hCId, hCDId, hCWId, hDId := hCDId, hWId := hCWId, hDate, hAmount := 10, hData }

def generateDistrictNewOrderRecord (wId dId oId : ℤ) : DistrictNewOrderRecord := { wId, dId, oId }

section
variable (K : Constants) (P : ScaleParams) (cLast : ℤ) (rounds : ℕ)

def insertRow (id : TableId) (r : Row id) : Program Env Unit :=
  (insertRecord (C := tpcc) id r).onFst.onFst

/-- One customer with its first payment. -/
def populateCustomer (wId dId : ℤ) (selectedRows : List ℤ) (cId : ℤ) : Program Env Unit := do
  let customerRecord ← generateCustomerRecord cLast wId dId cId (decide (cId ∈ selectedRows))
  insertRow .customer customerRecord
  let historyRecord ← generateHistoryRecord wId dId cId
  insertRow .history historyRecord

/-- One order with its lines. -/
def populateOrder (wId dId initialNewOrderId oId : ℤ) : Program Env Unit := do
  let oOlCnt ← draw (generateInteger 5 15)
  let isNewOrder := decide (oId ≥ initialNewOrderId)
  let orderRecord ← generateOrderRecord wId dId oId oId oOlCnt isNewOrder
  insertRow (.order (K.offset wId dId)) orderRecord
  Program.each (fun olNumber => do
    let orderLineRecord ← generateOrderLineRecord wId dId oId olNumber P.numItems isNewOrder
    insertRow (.orderLine (K.offset wId dId)) orderLineRecord) (upTo oOlCnt)
  if isNewOrder then
    insertRow (.newOrder (K.offset wId dId)) (generateNewOrderRecord wId dId oId)

def populateDistrict (wId dId : ℤ) : Program Env Unit := do
  let districtRecord ← generateDistrictRecord wId dId (P.numCustomersPerDistrict + 1)
  insertRow .district districtRecord
  let selectedRows ← draw (selectUniqueIds rounds 1 P.numCustomersPerDistrict
    (P.numCustomersPerDistrict / 10) [])
  Program.each (populateCustomer cLast wId dId selectedRows) (upTo P.numCustomersPerDistrict)
  let initialNewOrderId : ℤ := P.numCustomersPerDistrict - P.numNewOrdersPerDistrict + 1
  insertRow .districtNewOrder (generateDistrictNewOrderRecord wId dId initialNewOrderId)
  Program.each (populateOrder K P wId dId initialNewOrderId) (upTo P.numCustomersPerDistrict)

def populateWarehouse (wId : ℤ) : Program Env Unit := do
  let warehouseRecord ← generateWarehouseRecord wId
  insertRow .warehouse warehouseRecord
  Program.each (populateDistrict K P cLast rounds wId) (upTo DISTRICTS_PER_WAREHOUSE)
  let _ ← draw (selectUniqueIds rounds 1 P.numItems (P.numItems / 10) [])
  Program.each (fun iId => do
    let stockRecord ← generateStockRecord wId iId
    insertRow .stock stockRecord) (upTo P.numItems)

/-- `rounds` bounds the draws for one new number of a sample. -/
def startPopulate : Program Env Unit := do
  let _ ← draw (selectUniqueIds rounds 1 P.numItems (P.numItems / 10) [])
  Program.each (fun itemId => do
    let itemRecord ← generateItemRecord itemId
    insertRow .item itemRecord) (upTo P.numItems)
  Program.each (populateWarehouse K P cLast rounds) (upTo P.numWarehouses)

end
end TpccPopulator
end ImdbD.Benchmark.TPCC
