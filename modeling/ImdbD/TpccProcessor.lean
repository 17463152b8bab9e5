import ImdbD.TpccTables
import ImdbD.RandomGenerator

/-!
# The transactions of TPC-C and their serial execution

Each transaction is cut into the sub-transactions of the source. Every call of
the storage manager and every column read through a record is one action. A
delivery walks its map of found orders in an order of which nothing is known.
-/
namespace ImdbD.Benchmark.TPCC
open AtomicProgram KeyedStore

structure DeliveryParam where
  wId : ℤ
  oCarrierId : ℤ
  olDeliveryD : ℤ

structure NewOrderParam where
  wId : ℤ
  dId : ℤ
  cId : ℤ
  oEntryD : ℤ
  iIds : List ℤ
  iWIds : List ℤ
  iQtys : List ℤ

structure PaymentParam where
  wId : ℤ
  dId : ℤ
  hAmount : ℚ
  cWId : ℤ
  cDId : ℤ
  cId : ℤ
  hDate : ℤ

inductive EventTuple where
  | delivery (param : DeliveryParam)
  | newOrder (param : NewOrderParam)
  | payment (param : PaymentParam)
  | endExecution

/-- The tables and the draws still to come. -/
abbrev State := Tables × Rand

/-- The numbers from 1 to `n`. -/
def upTo (n : ℤ) : List ℤ := (List.range n.toNat).map (fun i : ℕ => (i : ℤ) + 1)

@[simp] theorem mem_upTo {n i : ℤ} : i ∈ upTo n ↔ 1 ≤ i ∧ i ≤ n := by
  simp only [upTo, List.mem_map, List.mem_range]
  constructor
  · rintro ⟨j, hj, rfl⟩
    omega
  · intro h
    exact ⟨(i - 1).toNat, by omega, by omega⟩

theorem nodup_upTo (n : ℤ) : (upTo n).Nodup :=
  List.nodup_range.map (fun _ _ h => by simpa using h)

theorem upTo_succ (n : ℕ) : upTo (n + 1) = upTo n ++ [(n + 1 : ℤ)] := by
  simp [upTo, show ((n : ℤ) + 1).toNat = n + 1 by omega, List.range_succ]

/-- In a walk over the numbers from 1, a number comes after as many as it says. -/
theorem upTo_split {n i : ℤ} {before after : List ℤ} (h : upTo n = before ++ i :: after) :
    i = before.length + 1 := by
  have hi : (upTo n)[before.length]? = some i := by
    rw [h, List.getElem?_append_right (Nat.le_refl _), Nat.sub_self]
    rfl
  rw [upTo, List.getElem?_map, Option.map_eq_some_iff] at hi
  obtain ⟨j, hj, rfl⟩ := hi
  obtain ⟨hlt, rfl⟩ := List.getElem?_eq_some_iff.mp hj
  rw [List.getElem_range]

@[simp] theorem length_upTo (n : ℤ) : (upTo n).length = n.toNat := by
  simp [upTo]

section SubTransactions
variable (K : Constants)

/-- Returns the order taken from the queue of the district, if there is one. -/
def deliverySubTxn1Single (param : DeliveryParam) (noDId : ℤ) : Program Tables (Option ℤ) := do
  let districtNewOrderRecord ← selectRecord (C := tpcc) .districtNewOrder (param.wId, noDId)
  Program.assert districtNewOrderRecord.found
  let noOId ← getColumn districtNewOrderRecord DistrictNewOrderRecord.oId
  let newOrderRecord ←
    selectRecord (C := tpcc) (.newOrder (K.offset param.wId noDId)) (noOId, noDId, param.wId)
  if newOrderRecord.found then
    deleteRecord newOrderRecord
    updateRecord districtNewOrderRecord (fun r => { r with oId := noOId + 1 })
    return some noOId
  else
    return none

/-- The map from districts to the orders taken. -/
def deliverySubTxn1 (param : DeliveryParam) : Program Tables (List (ℤ × ℤ)) := do
  let found ← Program.collect (fun noDId => do
    let noOId ← deliverySubTxn1Single K param noDId
    return noOId.map (fun oId => (noDId, oId))) (upTo DISTRICTS_PER_WAREHOUSE)
  return found.reduceOption

def deliverySubTxn2Single (param : DeliveryParam) (noDId noOId : ℤ) : Program Tables ℚ := do
  let orderLineRecords ←
    selectRecords (C := tpcc) (.orderLine (K.offset param.wId noDId)) (noOId, noDId, param.wId)
  Program.assert (orderLineRecords.length ≠ 0)
  let amounts ← Program.collect (fun olNumber => do
    let record : ConstRecord tpcc (.orderLine (K.offset param.wId noDId)) _ :=
      .ofMember (noOId, noDId, param.wId) olNumber
    updateRecord record (fun r => { r with olDeliveryD := param.olDeliveryD })
    getColumn record OrderLineRecord.olAmount) orderLineRecords
  return amounts.sum

def deliverySubTxn2 (param : DeliveryParam) (noOIds : List (ℤ × ℤ)) :
    Program Tables (List (ℤ × ℚ)) :=
  Program.collect (fun entry => do
    let sum ← deliverySubTxn2Single K param entry.1 entry.2
    return (entry.1, sum)) noOIds

def deliverySubTxn3Single (param : DeliveryParam) (noDId noOId : ℤ) : Program Tables ℤ := do
  let orderRecord ←
    selectRecord (C := tpcc) (.order (K.offset param.wId noDId)) (noOId, noDId, param.wId)
  Program.assert orderRecord.found
  updateRecord orderRecord (fun r => { r with oCarrierId := param.oCarrierId })
  getColumn orderRecord OrderRecord.oCId

def deliverySubTxn3 (param : DeliveryParam) (noOIds : List (ℤ × ℤ)) :
    Program Tables (List (ℤ × ℤ)) :=
  Program.collect (fun entry => do
    let cId ← deliverySubTxn3Single K param entry.1 entry.2
    return (entry.1, cId)) noOIds

def deliverySubTxn4Single (param : DeliveryParam) (noDId : ℤ) (sum : ℚ) (cId : ℤ) :
    Program Tables Unit := do
  let customerRecord ← selectRecord (C := tpcc) .customer (cId, noDId, param.wId)
  Program.assert customerRecord.found
  let balance ← getColumn customerRecord CustomerRecord.cBalance
  updateRecord customerRecord (fun r => { r with cBalance := balance + sum })

def deliverySubTxn4 (param : DeliveryParam) (noOIds : List (ℤ × ℤ)) (sums : List (ℤ × ℚ))
    (cIds : List (ℤ × ℤ)) : Program Tables Unit :=
  Program.each (fun entry => do
    let cId ← Program.fetch (cIds.lookup entry.1)
    let sum ← Program.fetch (sums.lookup entry.1)
    deliverySubTxn4Single param entry.1 sum cId) noOIds

def neworderSubTxn1 (param : NewOrderParam) : Program Tables ℤ := do
  let districtRecord ← selectRecord (C := tpcc) .district (param.dId, param.wId)
  Program.assert districtRecord.found
  let dNextOId ← getColumn districtRecord DistrictRecord.dNextOId
  updateRecord districtRecord (fun r => { r with dNextOId := dNextOId + 1 })
  return dNextOId

def neworderSubTxn2 (param : NewOrderParam) (dNextOId : ℤ) : Program Tables Unit :=
  insertRecord (C := tpcc) (.order (K.offset param.wId param.dId))
    { oId := dNextOId
      oCId := param.cId
      oDId := param.dId
      oWId := param.wId
      oEntryD := param.oEntryD
      oCarrierId := NULL_CARRIER_ID
      oOlCnt := param.iIds.length
      oAllLocal := param.iWIds.all (fun wId => param.wId = wId) }

def neworderSubTxn3 (param : NewOrderParam) (dNextOId : ℤ) : Program Tables Unit :=
  insertRecord (C := tpcc) (.newOrder (K.offset param.wId param.dId))
    { oId := dNextOId
      dId := param.dId
      wId := param.wId }

/-- Take the quantity of one line from the stock. -/
def neworderSubTxn4Single (param : NewOrderParam) (i : ℕ) : Program Tables String := do
  let olSupplyWId ← Program.fetch param.iWIds[i]?
  let olIId ← Program.fetch param.iIds[i]?
  let olQuantity ← Program.fetch param.iQtys[i]?
  let stockRecord ← selectRecord (C := tpcc) .stock (olIId, olSupplyWId)
  Program.assert stockRecord.found
  let quantity ← getColumn stockRecord StockRecord.sQuantity
  let newQuantity :=
    if quantity ≥ olQuantity + 10 then quantity - olQuantity else quantity + 91 - olQuantity
  let ytd ← getColumn stockRecord StockRecord.sYtd
  let orderCnt ← getColumn stockRecord StockRecord.sOrderCnt
  updateRecord stockRecord (fun r =>
    { r with sQuantity := newQuantity, sYtd := ytd + olQuantity, sOrderCnt := orderCnt + 1 })
  if olSupplyWId ≠ param.wId then
    let remoteCnt ← getColumn stockRecord StockRecord.sRemoteCnt
    updateRecord stockRecord (fun r => { r with sRemoteCnt := remoteCnt + 1 })
  getColumn stockRecord (fun r : StockRecord => r.dist (param.dId + 2))

def neworderSubTxn4 (param : NewOrderParam) : Program Tables (List String) :=
  Program.collect (neworderSubTxn4Single param) (List.range param.iIds.length)

def neworderSubTxn5Single (param : NewOrderParam) (i : ℕ) : Program Tables ℚ := do
  let iId ← Program.fetch param.iIds[i]?
  let record ← selectRecord (C := tpcc) .item iId
  Program.assert record.found
  let olQuantity ← Program.fetch param.iQtys[i]?
  let price ← getColumn record ItemRecord.iPrice
  return olQuantity * price

def neworderSubTxn5 (param : NewOrderParam) : Program Tables (List ℚ) :=
  Program.collect (neworderSubTxn5Single param) (List.range param.iIds.length)

/-- The order date is written into the column of the delivery date. -/
def neworderSubTxn6 (param : NewOrderParam) (dNextOId : ℤ) (sDists : List String)
    (olAmounts : List ℚ) : Program Tables Unit :=
  Program.each (fun i : ℕ => do
    let olIId ← Program.fetch param.iIds[i]?
    let olSupplyWId ← Program.fetch param.iWIds[i]?
    let olQuantity ← Program.fetch param.iQtys[i]?
    let olAmount ← Program.fetch olAmounts[i]?
    let sDist ← Program.fetch sDists[i]?
    insertRecord (C := tpcc) (.orderLine (K.offset param.wId param.dId))
      { olOId := dNextOId
        olDId := param.dId
        olWId := param.wId
        olNumber := i + 1
        olIId := olIId
        olSupplyWId := olSupplyWId
        olDeliveryD := param.oEntryD
        olQuantity := olQuantity
        olAmount := olAmount
        olDistInfo := sDist }) (List.range param.iIds.length)

def paymentSubTxn1 (param : PaymentParam) : Program Tables Unit := do
  let warehouseRecord ← selectRecord (C := tpcc) .warehouse param.wId
  let wYtd ← getColumn warehouseRecord WarehouseRecord.wYtd
  updateRecord warehouseRecord (fun r => { r with wYtd := wYtd + param.hAmount })

def paymentSubTxn2 (param : PaymentParam) : Program Tables Unit := do
  let districtRecord ← selectRecord (C := tpcc) .district (param.dId, param.wId)
  let dYtd ← getColumn districtRecord DistrictRecord.dYtd
  updateRecord districtRecord (fun r => { r with dYtd := dYtd + param.hAmount })

def paymentSubTxn3 (param : PaymentParam) : Program State Unit := do
  let hData ← Program.onSnd (RandomGenerator.generateCString 12 24)
  Program.onFst (insertRecord (C := tpcc) .history
    { hCId := param.cId
      hCDId := param.cDId
      hCWId := param.cWId
      hDId := param.dId
      hWId := param.wId
      hDate := param.hDate
      hAmount := param.hAmount
      hData := hData })

/-- The customer of the paying district is charged. -/
def paymentSubTxn4 (param : PaymentParam) : Program Tables Unit := do
  let customerRecord ← selectRecord (C := tpcc) .customer (param.cId, param.dId, param.wId)
  let balance ← getColumn customerRecord CustomerRecord.cBalance
  let ytdPayment ← getColumn customerRecord CustomerRecord.cYtdPayment
  let paymentCnt ← getColumn customerRecord CustomerRecord.cPaymentCnt
  updateRecord customerRecord (fun r =>
    { r with
      cBalance := balance - param.hAmount
      cYtdPayment := ytdPayment + param.hAmount
      cPaymentCnt := paymentCnt + 1 })

end SubTransactions

/-- In which order a loop walks the entries of an `unordered_map`. -/
structure IterationOrder where
  entries : List (ℤ × ℤ) → List (ℤ × ℤ)
  perm : ∀ l, (entries l).Perm l

namespace TpccSerialProcessor
variable (K : Constants)

def processDelivery (order : IterationOrder) (param : DeliveryParam) : Program State Unit := do
  let noOIds ← deliverySubTxn1 K param
  let sums ← deliverySubTxn2 K param (order.entries noOIds)
  let cIds ← deliverySubTxn3 K param (order.entries noOIds)
  deliverySubTxn4 param (order.entries noOIds) sums cIds

def processNewOrder (param : NewOrderParam) : Program State Unit := do
  let dNextOId ← neworderSubTxn1 param
  neworderSubTxn2 K param dNextOId
  neworderSubTxn3 K param dNextOId
  let sDists ← neworderSubTxn4 param
  let olAmounts ← neworderSubTxn5 param
  neworderSubTxn6 K param dNextOId sDists olAmounts

def processPayment (param : PaymentParam) : Program State Unit := do
  paymentSubTxn1 param
  paymentSubTxn2 param
  paymentSubTxn3 param
  paymentSubTxn4 param

/-- Run the queue up to `ENDEXECUTION`; without one the processor does not come to an end.
`orders` gives the iteration order in the transaction with a given number. -/
def start (orders : ℕ → IterationOrder) : ℕ → List EventTuple → Program State Unit
  | txnCnt, .delivery param :: queue => do
    processDelivery K (orders txnCnt) param
    start orders (txnCnt + 1) queue
  | txnCnt, .newOrder param :: queue => do
    processNewOrder K param
    start orders (txnCnt + 1) queue
  | txnCnt, .payment param :: queue => do
    processPayment param
    start orders (txnCnt + 1) queue
  | _, .endExecution :: _ => pure ()
  | _, [] => Program.fault

end TpccSerialProcessor
end ImdbD.Benchmark.TPCC
