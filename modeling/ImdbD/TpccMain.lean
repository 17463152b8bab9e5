import ImdbD.TpccBarriers
import ImdbD.TpccSourceWell

/-!
# TPC-C from the population to the end

The source draws its transactions and pushes them with the end of the execution
behind them; then one of the processors takes them from the queue. Whatever is
drawn is within the scale of the populated database, and the tables end the same
whichever processor the command line asks for.
-/
namespace ImdbD.Benchmark.TPCC
open AtomicProgram RandomGenerator TpccSource

structure OrderStatusParam where
  wId : ℤ
  dId : ℤ
  cLast : String
  cId : ℤ

structure StockLevelParam where
  wId : ℤ
  dId : ℤ

namespace TpccSource

/-- What the source pushes: the processors pass over the first two kinds. -/
inductive Pushed where
  | stockLevel (param : StockLevelParam)
  | orderStatus (param : OrderStatusParam)
  | tuple (tuple : EventTuple)

section Source
variable (params : ScaleParams) (C : NonuniformConstants)

def generateDeliveryParam (now : ℤ) : Program Rand DeliveryParam := do
  let wId ← generateWarehouseId startingWarehouse (endingWarehouse params)
  let oCarrierId ← generateInteger 1 10
  return ⟨wId, oCarrierId, now⟩

def generateOrderStatusParam : Program Rand OrderStatusParam := do
  let wId ← generateWarehouseId startingWarehouse (endingWarehouse params)
  let dId ← generateDistrictId DISTRICTS_PER_WAREHOUSE
  let cId ← generateCustomerId C params.numCustomersPerDistrict
  return ⟨wId, dId, "", cId⟩

def generateStockLevelParam : Program Rand StockLevelParam := do
  let wId ← generateWarehouseId startingWarehouse (endingWarehouse params)
  let dId ← generateDistrictId DISTRICTS_PER_WAREHOUSE
  return ⟨wId, dId⟩

/-- One round of the loop. -/
def generateTransaction (now : ℤ) : Program Rand Pushed := do
  let x ← generateInteger 1 100
  if x ≤ 0 then
    let param ← generateStockLevelParam params
    return .stockLevel param
  else if x ≤ 4 + 0 then
    let param ← generateDeliveryParam params now
    return .tuple (.delivery param)
  else if x ≤ 4 + 0 + 0 then
    let param ← generateOrderStatusParam params C
    return .orderStatus param
  else if x ≤ 43 + 4 + 0 + 0 then
    let param ← generatePaymentParam params C now
    return .tuple (.payment param.1)
  else
    let param ← generateNewOrderParam params C now
    return .tuple (.newOrder param.1)

/-- `clock` tells what time the rounds read. -/
def startExecution (clock : ℕ → ℤ) (numTransactions : ℕ) : Program Rand (List Pushed) :=
  Program.collect (fun i => generateTransaction params C (clock i)) (List.range numTransactions)

def Pushed.tuple? : Pushed → Option EventTuple
  | .tuple e => some e
  | _ => none

/-- `start`: the queue as the processors find it. -/
def start (clock : ℕ → ℤ) (numTransactions : ℕ) : Program Rand (List EventTuple) := do
  let pushed ← startExecution params C clock numTransactions
  return pushed.filterMap Pushed.tuple? ++ [.endExecution]

end Source

/-- Counts with which no draw overflows. -/
structure Drawable (P : ScaleParams) : Prop where
  warehouses : 1 ≤ P.numWarehouses
  items : 1 ≤ P.numItems ∧ P.numItems < 2 ^ 30
  customers : 1 ≤ P.numCustomersPerDistrict ∧ P.numCustomersPerDistrict < 2 ^ 30

variable {P : ScaleParams} {C : NonuniformConstants} {min max : ℤ}

theorem always_warehouse (hP : Drawable P) :
    (generateWarehouseId startingWarehouse (endingWarehouse P)).Always
      (fun w => 1 ≤ w ∧ w ≤ P.numWarehouses) := by
  have hw := hP.warehouses
  unfold endingWarehouse startingWarehouse
  exact (always_integer (by omega)).mono (fun w hw => by omega)

theorem always_otherWarehouse {wId : ℤ} (hmany : 1 < P.numWarehouses) :
    (generateIntegerExcluding startingWarehouse (endingWarehouse P) wId).Always
      (fun w => 1 ≤ w ∧ w ≤ P.numWarehouses) := by
  unfold endingWarehouse startingWarehouse
  refine .bind (always_integer (by omega)) (fun n hn => .pure ?_)
  split <;> omega

theorem always_district : (generateDistrictId DISTRICTS_PER_WAREHOUSE).Always
    (fun d => 1 ≤ d ∧ d ≤ DISTRICTS_PER_WAREHOUSE) :=
  always_integer (by decide)

private theorem always_nonuniform {a c y : ℤ} (ha : 0 ≤ a ∧ a ≤ 8191) (hc : c ≤ 8191)
    (hy : 1 ≤ y ∧ y < 2 ^ 30) :
    (generateNonuniformInt a c 1 y).Always (fun n => 1 ≤ n ∧ n ≤ y) := by
  refine .bind (always_integer ha.1) (fun n hn => .bind (always_integer hy.1) (fun m hm => ?_))
  have hor : n.toNat ||| m.toNat < 2 ^ 30 := Nat.or_lt_two_pow (by omega) (by omega)
  have hfits : ((n.toNat ||| m.toNat : ℕ) : ℤ) + c < 2 ^ 31 := by omega
  refine .bind (.assert (decide_eq_true hfits)) (fun _ _ => .pure ?_)
  have hnonneg := Int.emod_nonneg (((n.toNat ||| m.toNat : ℕ) : ℤ) + c) (show y - 1 + 1 ≠ 0 by omega)
  have hlt := Int.emod_lt_of_pos (((n.toNat ||| m.toNat : ℕ) : ℤ) + c) (show 0 < y - 1 + 1 by omega)
  constructor <;> omega

theorem always_customer (hP : Drawable P) : (generateCustomerId C P.numCustomersPerDistrict).Always
    (fun c => 1 ≤ c ∧ c ≤ P.numCustomersPerDistrict) := by
  have hc := C.cId_range
  have hcustomers := hP.customers
  exact always_nonuniform (by omega) (by omega) (by omega)

theorem always_item (hP : Drawable P) : (generateItemId C P.numItems).Always
    (fun i => 1 ≤ i ∧ i ≤ P.numItems) := by
  have hi := C.orderlineItemId_range
  have hitems := hP.items
  exact always_nonuniform (by omega) (by omega) (by omega)

/-- The lines so far are within the scale. -/
structure LinesInScale (P : ScaleParams) (n : ℕ) (lines : OrderLines) : Prop where
  lengths : lines.iIds.length = n ∧ lines.iWIds.length = n ∧ lines.iQtys.length = n
  items : ∀ i ∈ lines.iIds, 1 ≤ i ∧ i ≤ P.numItems
  supply : ∀ w ∈ lines.iWIds, 1 ≤ w ∧ w ≤ P.numWarehouses

theorem LinesInScale.add {n : ℕ} {lines : OrderLines} (h : LinesInScale P n lines) {i w : ℤ}
    (q : ℤ) (remote : Bool) (hi : 1 ≤ i ∧ i ≤ P.numItems) (hw : 1 ≤ w ∧ w ≤ P.numWarehouses) :
    LinesInScale P (n + 1)
      ⟨lines.iIds ++ [i], lines.iWIds ++ [w], lines.iQtys ++ [q], lines.remote ++ [remote]⟩ := by
  refine ⟨by simp [h.lengths], fun j hj => ?_, fun v hv => ?_⟩
  · rcases List.mem_append.mp hj with hj | hj
    · exact h.items j hj
    · exact List.mem_singleton.mp hj ▸ hi
  · rcases List.mem_append.mp hv with hv | hv
    · exact h.supply v hv
    · exact List.mem_singleton.mp hv ▸ hw

theorem always_lines (hP : Drawable P) {wId : ℤ} (hw : 1 ≤ wId ∧ wId ≤ P.numWarehouses) (m : ℕ)
    {n : ℕ} {lines : OrderLines} (h : LinesInScale P n lines) :
    (generateLines P C wId m lines).Always (LinesInScale P (n + m)) := by
  induction m generalizing n lines with
  | zero => exact .pure h
  | succ m ih =>
    refine .bind (always_item hP) (fun i hi => .bind (always_integer (by decide)) (fun x _ => ?_))
    split
    · refine .bind (always_otherWarehouse (by omega)) (fun w hw' => ?_)
      refine .bind (always_integer (by decide)) (fun q _ => ?_)
      have hrest := ih (h.add q true hi hw')
      rwa [Nat.add_right_comm] at hrest
    · refine .bind (always_integer (by decide)) (fun q _ => ?_)
      have hrest := ih (h.add q false hi hw)
      rwa [Nat.add_right_comm] at hrest

private theorem items_inScale (param : NewOrderParam) {n : ℕ} {remote : List Bool}
    (h : LinesInScale P n ⟨param.iIds, param.iWIds, param.iQtys, remote⟩) {it : OrderItem}
    (hit : it ∈ param.items) :
    (1 ≤ it.iId ∧ it.iId ≤ P.numItems) ∧ 1 ≤ it.wId ∧ it.wId ≤ P.numWarehouses := by
  obtain ⟨i, hi, rfl⟩ := List.mem_map.mp hit
  have hlt : i < param.iIds.length := List.mem_range.mp hi
  have hltw : i < param.iWIds.length := by
    rw [h.lengths.2.1, ← h.lengths.1]
    exact hlt
  simp only [List.getElem?_eq_getElem hlt, List.getElem?_eq_getElem hltw, Option.getD_some]
  exact ⟨h.items _ (List.getElem_mem hlt), h.supply _ (List.getElem_mem hltw)⟩

private theorem always_newOrder (hP : Drawable P) (now : ℤ) :
    (generateNewOrderParam P C now).Always (fun param => (EventTuple.newOrder param.1).InScale P) := by
  refine .bind (always_warehouse hP) (fun w hw => .bind always_district (fun d hd =>
    .bind (always_customer hP) (fun c hc => .bind (always_integer (by decide)) (fun n hn => ?_))))
  have hnil : LinesInScale P 0 ⟨[], [], [], []⟩ := ⟨⟨rfl, rfl, rfl⟩, by simp, by simp⟩
  refine .bind (always_lines hP hw n.toNat hnil) (fun lines hlines => .pure ?_)
  obtain ⟨hlength, hlengthW, hlengthQ⟩ := hlines.lengths
  refine ⟨?_, ⟨hlengthW.trans hlength.symm, hlengthQ.trans hlength.symm⟩, ?_, hc,
    fun it hit => items_inScale ⟨w, d, c, now, _, _, _⟩ hlines hit⟩
  · intro he
    simp only at he
    rw [he, List.length_nil] at hlength
    omega
  · exact ⟨hd.1, hd.2, hw.1, hw.2⟩

theorem always_payment (hP : Drawable P) (now : ℤ) :
    (generatePaymentParam P C now).Always (fun param => (EventTuple.payment param.1).InScale P) := by
  refine .bind (always_integer (by decide)) (fun x _ => .bind (always_warehouse hP) (fun w hw =>
    .bind always_district (fun d hd => .bind (.of_total (total_generateFixedPoint _ _ _))
      (fun amount _ => ?_))))
  split
  · refine .bind (always_customer hP) (fun c hc => .pure ?_)
    exact ⟨⟨hd.1, hd.2, hw.1, hw.2⟩, ⟨hd.1, hd.2, hw.1, hw.2⟩, hc⟩
  · refine .bind (always_otherWarehouse ?_) (fun w' hw' => .bind always_district (fun d' hd' =>
      .bind (always_customer hP) (fun c hc => .pure ?_)))
    · have := hP.warehouses
      omega
    · exact ⟨⟨hd.1, hd.2, hw.1, hw.2⟩, ⟨hd'.1, hd'.2, hw'.1, hw'.2⟩, hc⟩

theorem always_delivery (hP : Drawable P) (now : ℤ) :
    (generateDeliveryParam P now).Always (fun param => (EventTuple.delivery param).InScale P) :=
  .bind (always_warehouse hP) (fun _ hw => .bind (always_integer (by decide)) (fun _ _ => .pure hw))

/-- Stock levels and order states are never drawn. -/
theorem always_transaction (hP : Drawable P) (now : ℤ) : (generateTransaction P C now).Always
    (fun pushed => ∃ tuple, pushed = .tuple tuple ∧ tuple.InScale P) := by
  refine .bind (always_integer (by decide)) (fun x hx => ?_)
  rw [if_neg (by omega)]
  by_cases hdelivery : x ≤ 4 + 0
  · rw [if_pos hdelivery]
    exact .bind (always_delivery hP now) (fun param h => .pure ⟨_, rfl, h⟩)
  · rw [if_neg hdelivery, if_neg (by omega)]
    split
    · exact .bind (always_payment hP now) (fun param h => .pure ⟨_, rfl, h⟩)
    · exact .bind (always_newOrder hP now) (fun param h => .pure ⟨_, rfl, h⟩)

private theorem filterMap_tuple {pushed : List Pushed}
    (h : ∀ q ∈ pushed, ∃ tuple, q = .tuple tuple ∧ tuple.InScale P) :
    (pushed.filterMap Pushed.tuple?).length = pushed.length ∧
      ∀ tuple ∈ pushed.filterMap Pushed.tuple?, tuple.InScale P := by
  induction pushed with
  | nil => simp
  | cons q pushed ih =>
    obtain ⟨⟨tuple, rfl, htuple⟩, hrest⟩ := List.forall_mem_cons.mp h
    obtain ⟨hlength, hall⟩ := ih hrest
    have hone : Pushed.tuple? (.tuple tuple) = some tuple := rfl
    rw [List.filterMap_cons_some hone]
    exact ⟨by simp [hlength], List.forall_mem_cons.mpr ⟨htuple, hall⟩⟩

theorem always_start (hP : Drawable P) (C : NonuniformConstants) (clock : ℕ → ℤ)
    (numTransactions : ℕ) : (start P C clock numTransactions).Always (fun queue =>
      ∃ tuples, queue = tuples ++ [.endExecution] ∧ tuples.length = numTransactions ∧
        ∀ tuple ∈ tuples, tuple.InScale P) := by
  refine .bind (.collect (fun i => always_transaction hP (clock i))) (fun pushed hpushed => .pure ?_)
  obtain ⟨hlength, hall⟩ := filterMap_tuple hpushed.2
  exact ⟨_, rfl, by rw [hlength, hpushed.1, List.length_range], hall⟩

end TpccSource

open TpccBatchProcessor in
/-- From the population on: whatever the source draws, the queue has a tuple for every transaction,
and the serial processor, the batch processor and the one with a thread pool all leave the same tables
and the same draws, for any number of threads, tables and batches. -/
theorem tpccMain_processors_agree {K : Constants} {P : ScaleParams} (hP : Drawable P) {clock : Clock}
    {t₀ : State} (hpop : PopulatedState K P clock t₀) (C : NonuniformConstants) (time : ℕ → ℤ)
    (numTransactions : ℕ) : ∃ tuples r,
    (TpccSource.start P C time numTransactions).run t₀.2 = some (tuples ++ [.endExecution], r) ∧
    tuples.length = numTransactions ∧ (∀ tuple ∈ tuples, tuple.Valid t₀.1) ∧
    ∀ batches, Cut (tuples ++ [.endExecution]) batches → ∀ (orders : ℕ → IterationOrder) (v : Vectors),
      ∃ u v', (TpccSerialProcessor.start K orders 0 (tuples ++ [.endExecution])).run (t₀.1, r) =
          some ((), u) ∧
        (∀ executor : Executor, Determinate (executor.limit K)
          ⟨TpccBatchProcessor.start K P 0 batches, [], ((t₀.1, r), v)⟩ (u, v')) ∧
        (PooledConfig.start K.kParallelism (TpccBatchProcessor.start K P 0 batches)
          ((t₀.1, r), v)).Determinate (u, v') := by
  obtain ⟨_, r, hrun, tuples, rfl, hlength, hall⟩ := always_start hP C time numTransactions t₀.2
  have hvalid : ∀ tuple ∈ tuples, tuple.Valid t₀.1 :=
    fun tuple htuple => hpop.ledger.valid_iff.mpr (hall tuple htuple)
  refine ⟨tuples, r, hrun, hlength, hvalid, fun batches hcut orders v => ?_⟩
  exact queue_reproduces_serial (t := (t₀.1, r)) hpop.ledger hvalid hcut orders v

theorem drawable_small : Drawable .small := ⟨by decide, by decide, by decide⟩

open TpccBatchProcessor in
/-- Three transactions on a small database, all in one batch. -/
theorem tpccMain_processors_agree_small : ∃ t₀ tuples r u v',
    PopulatedState .unpartitioned .small (fun _ => 0) t₀ ∧
    (TpccSource.start .small zeroConstants (fun _ => 0) 3).run t₀.2 =
      some (tuples ++ [.endExecution], r) ∧ tuples.length = 3 ∧
    (TpccSerialProcessor.start .unpartitioned (fun _ => .listed) 0 (tuples ++ [.endExecution])).run
      (t₀.1, r) = some ((), u) ∧
    (PooledConfig.start 1 (TpccBatchProcessor.start .unpartitioned .small 0
      [tuples ++ [.endExecution]]) ((t₀.1, r), fun _ => [])).Determinate (u, v') := by
  obtain ⟨t₀, ht₀⟩ := exists_small
  obtain ⟨tuples, r, hsource, hlength, hvalid, hall⟩ :=
    tpccMain_processors_agree drawable_small ht₀ zeroConstants (fun _ => 0) 3
  have hcut : Cut (tuples ++ [.endExecution]) [tuples ++ [.endExecution]] :=
    .last (fun hend => hvalid _ hend)
  obtain ⟨u, v', hserial, -, hpool⟩ := hall _ hcut (fun _ => .listed) (fun _ => [])
  exact ⟨t₀, tuples, r, u, v', ht₀, hsource, hlength, hserial, hpool⟩

end ImdbD.Benchmark.TPCC
