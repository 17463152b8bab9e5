import ImdbD.KeyedStore
import Mathlib.Data.Rat.Floor

/-!
# The tables of TPC-C

The records, their keys in the order of the schema's primary columns, and the
constants that say which of the numbered copies of a partitioned table holds a
district. Doubles are exact numbers.
-/
namespace ImdbD.Benchmark.TPCC
open KeyedStore

/-- `order`, `newOrder` and `orderLine` are numbered from their base by an offset. -/
inductive TableId where
  | item
  | warehouse
  | district
  | customer
  | history
  | stock
  | districtNewOrder
  | order (offset : ℕ)
  | newOrder (offset : ℕ)
  | orderLine (offset : ℕ)
  deriving DecidableEq

def MAX_PARTITION_CNT : ℕ := 100

/-- The number under which a table is registered. -/
def TableId.number : TableId → ℕ
  | item => 0
  | warehouse => 1
  | district => 2
  | customer => 3
  | history => 4
  | stock => 5
  | districtNewOrder => 6
  | order offset => 7 + offset
  | newOrder offset => 7 + MAX_PARTITION_CNT + offset
  | orderLine offset => 7 + MAX_PARTITION_CNT * 2 + offset

/-- The offsets in use. -/
def TableId.InRange : TableId → Prop
  | order offset | newOrder offset | orderLine offset => offset < MAX_PARTITION_CNT
  | _ => True

theorem TableId.number_inj {id id' : TableId} (h : id.InRange) (h' : id'.InRange)
    (he : id.number = id'.number) : id = id' := by
  cases id <;> cases id' <;>
    simp only [number, InRange, MAX_PARTITION_CNT, TableId.order.injEq, TableId.newOrder.injEq,
      TableId.orderLine.injEq, reduceCtorEq] at h h' he ⊢ <;> omega

structure ItemRecord where
  iId : ℤ
  iImId : ℤ
  iName : String
  iPrice : ℚ
  iData : String
  deriving DecidableEq

structure WarehouseRecord where
  wId : ℤ
  wName : String
  wStreet1 : String
  wStreet2 : String
  wCity : String
  wState : String
  wZip : String
  wTax : ℚ
  wYtd : ℚ
  deriving DecidableEq

structure DistrictRecord where
  dId : ℤ
  dWId : ℤ
  dName : String
  dStreet1 : String
  dStreet2 : String
  dCity : String
  dState : String
  dZip : String
  dTax : ℚ
  dYtd : ℚ
  dNextOId : ℤ
  deriving DecidableEq

structure CustomerRecord where
  cId : ℤ
  cDId : ℤ
  cWId : ℤ
  cFirst : String
  cMiddle : String
  cLast : String
  cStreet1 : String
  cStreet2 : String
  cCity : String
  cState : String
  cZip : String
  cPhone : String
  cSince : ℤ
  cCredit : String
  cCreditLim : ℚ
  cDiscount : ℚ
  cBalance : ℚ
  cYtdPayment : ℚ
  cPaymentCnt : ℤ
  cDeliveryCnt : ℤ
  cData : String

/-- `sDists` are columns 3 to 12. -/
structure StockRecord where
  sIId : ℤ
  sWId : ℤ
  sQuantity : ℤ
  sDists : List String
  sYtd : ℤ
  sOrderCnt : ℤ
  sRemoteCnt : ℤ
  sData : String
  deriving DecidableEq

/-- The string in one of the columns 3 to 12. -/
def StockRecord.dist (r : StockRecord) (column : ℤ) : String :=
  (r.sDists[(column - 3).toNat]?).getD ""

structure OrderRecord where
  oId : ℤ
  oCId : ℤ
  oDId : ℤ
  oWId : ℤ
  oEntryD : ℤ
  oCarrierId : ℤ
  oOlCnt : ℤ
  oAllLocal : Bool
  deriving DecidableEq

structure NewOrderRecord where
  oId : ℤ
  dId : ℤ
  wId : ℤ
  deriving DecidableEq

structure OrderLineRecord where
  olOId : ℤ
  olDId : ℤ
  olWId : ℤ
  olNumber : ℤ
  olIId : ℤ
  olSupplyWId : ℤ
  olDeliveryD : ℤ
  olQuantity : ℤ
  olAmount : ℚ
  olDistInfo : String
  deriving DecidableEq

structure HistoryRecord where
  hCId : ℤ
  hCDId : ℤ
  hCWId : ℤ
  hDId : ℤ
  hWId : ℤ
  hDate : ℤ
  hAmount : ℚ
  hData : String
  deriving DecidableEq

structure DistrictNewOrderRecord where
  wId : ℤ
  dId : ℤ
  oId : ℤ
  deriving DecidableEq

abbrev Key : TableId → Type
  | .item => ℤ
  | .warehouse => ℤ
  | .district => ℤ × ℤ
  | .customer => ℤ × ℤ × ℤ
  | .history => Empty
  | .stock => ℤ × ℤ
  | .districtNewOrder => ℤ × ℤ
  | .order _ => ℤ × ℤ × ℤ
  | .newOrder _ => ℤ × ℤ × ℤ
  | .orderLine _ => ℤ × ℤ × ℤ × ℤ

abbrev Row : TableId → Type
  | .item => ItemRecord
  | .warehouse => WarehouseRecord
  | .district => DistrictRecord
  | .customer => CustomerRecord
  | .history => HistoryRecord
  | .stock => StockRecord
  | .districtNewOrder => DistrictNewOrderRecord
  | .order _ => OrderRecord
  | .newOrder _ => NewOrderRecord
  | .orderLine _ => OrderLineRecord

/-- The lines of one order are found together. -/
abbrev Group : TableId → Type
  | .orderLine _ => ℤ × ℤ × ℤ
  | _ => Empty

abbrev Member : TableId → Type
  | .orderLine _ => ℤ
  | _ => Empty

def primaryKey : ∀ id, Row id → Option (Key id)
  | .item, r => some r.iId
  | .warehouse, r => some r.wId
  | .district, r => some (r.dId, r.dWId)
  | .customer, r => some (r.cId, r.cDId, r.cWId)
  | .history, _ => none
  | .stock, r => some (r.sIId, r.sWId)
  | .districtNewOrder, r => some (r.wId, r.dId)
  | .order _, r => some (r.oId, r.oDId, r.oWId)
  | .newOrder _, r => some (r.oId, r.dId, r.wId)
  | .orderLine _, r => some (r.olOId, r.olDId, r.olWId, r.olNumber)

def indexed : ∀ id, Row id → Option (Group id × Member id)
  | .orderLine _, r => some ((r.olOId, r.olDId, r.olWId), r.olNumber)
  | .item, _ | .warehouse, _ | .district, _ | .customer, _ | .history, _ | .stock, _
  | .districtNewOrder, _ | .order _, _ | .newOrder _, _ => none

def keyOf : ∀ id, Group id → Member id → Key id
  | .orderLine _, g, number => (g.1, g.2.1, g.2.2, number)
  | .item, g, _ | .warehouse, g, _ | .district, g, _ | .customer, g, _ | .history, g, _
  | .stock, g, _ | .districtNewOrder, g, _ | .order _, g, _ | .newOrder _, g, _ => g.elim

def decKey : ∀ id, DecidableEq (Key id)
  | .item | .warehouse => inferInstanceAs (DecidableEq ℤ)
  | .district | .stock | .districtNewOrder => inferInstanceAs (DecidableEq (ℤ × ℤ))
  | .customer | .order _ | .newOrder _ => inferInstanceAs (DecidableEq (ℤ × ℤ × ℤ))
  | .history => inferInstanceAs (DecidableEq Empty)
  | .orderLine _ => inferInstanceAs (DecidableEq (ℤ × ℤ × ℤ × ℤ))

def decGroup : ∀ id, DecidableEq (Group id)
  | .orderLine _ => inferInstanceAs (DecidableEq (ℤ × ℤ × ℤ))
  | .item | .warehouse | .district | .customer | .history | .stock | .districtNewOrder
  | .order _ | .newOrder _ => inferInstanceAs (DecidableEq Empty)

abbrev tpcc : Catalog TableId where
  Key := Key
  Row := Row
  Group := Group
  Member := Member
  primaryKey := primaryKey
  indexed := indexed
  keyOf := keyOf
  decKey := decKey
  decGroup := decGroup

/-- The tables of the benchmark. -/
abbrev Tables := Store tpcc

def DISTRICTS_PER_WAREHOUSE : ℤ := 10
def NULL_CARRIER_ID : ℤ := 0

/-- The constants of a run. -/
structure Constants where
  kParallelism : ℕ
  kPartition : Bool
  kPartitionCnt : ℕ
  parallelism_pos : 0 < kParallelism
  partitionCnt_pos : 0 < kPartitionCnt
  partitionCnt_le : kPartitionCnt ≤ MAX_PARTITION_CNT

structure ScaleParams where
  numWarehouses : ℕ
  numItems : ℕ
  numCustomersPerDistrict : ℕ
  numNewOrdersPerDistrict : ℕ
  newOrders_le : numNewOrdersPerDistrict ≤ numCustomersPerDistrict

/-- The scale of a database with every count divided by `scalefactor`. -/
def ScaleParams.new (numWarehouses : ℕ) (scalefactor : ℚ) (h : 0 < scalefactor) : ScaleParams where
  numWarehouses := numWarehouses
  numItems := ⌊100000 / scalefactor⌋₊
  numCustomersPerDistrict := ⌊3000 / scalefactor⌋₊
  numNewOrdersPerDistrict := ⌊900 / scalefactor⌋₊
  newOrders_le := Nat.floor_le_floor (div_le_div_of_nonneg_right (by norm_num) h.le)

/-- An `int` used as a `size_t`. -/
def toSize (n : ℤ) : ℕ := (n % 2 ^ 64).toNat

def getOrderLineTableOffset (wId dId : ℤ) : ℕ :=
  toSize ((wId - 1) * DISTRICTS_PER_WAREHOUSE + dId - 1)

/-- The copy of the order tables that holds a district. -/
def Constants.offset (K : Constants) (wId dId : ℤ) : ℕ :=
  if K.kPartition then getOrderLineTableOffset wId dId % K.kPartitionCnt else 0

theorem Constants.offset_lt (K : Constants) (wId dId : ℤ) : K.offset wId dId < MAX_PARTITION_CNT := by
  unfold offset
  split
  · exact lt_of_lt_of_le (Nat.mod_lt _ K.partitionCnt_pos) K.partitionCnt_le
  · exact lt_of_lt_of_le K.partitionCnt_pos K.partitionCnt_le

end ImdbD.Benchmark.TPCC
