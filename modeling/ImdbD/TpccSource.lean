import ImdbD.TpccProcessor

/-!
# The transactions that the source of TPC-C generates

The draws of a transaction are numbered, so that each of its values is a
function of the stream. A sum that leaves the range of `int` is undefined.
-/
namespace ImdbD.Benchmark.TPCC
open AtomicProgram RandomGenerator

namespace RandomGenerator

/-- The constants drawn when the program starts. -/
structure NonuniformConstants where
  cId : ℤ
  orderlineItemId : ℤ
  cId_range : 0 ≤ cId ∧ cId ≤ 1023
  orderlineItemId_range : 0 ≤ orderlineItemId ∧ orderlineItemId ≤ 8191

/-- `generateNonuniformInteger` on `int`s; `c` is the constant that belongs to `a`. -/
def generateNonuniformInt (a c x y : ℤ) : Program Rand ℤ := do
  let n ← generateInteger 0 a
  let m ← generateInteger x y
  let sum := ((n.toNat ||| m.toNat : ℕ) : ℤ) + c
  Program.assert (sum < 2 ^ 31)
  return sum % (y - x + 1) + x

def generateIntegerExcluding (min max excluding : ℤ) : Program Rand ℤ := do
  let num ← generateInteger min (max - 1)
  return if num > excluding then num + 1 else num

def generateWarehouseId (startingWarehouse endingWarehouse : ℤ) : Program Rand ℤ :=
  generateInteger startingWarehouse endingWarehouse

def generateDistrictId (numDistrictsPerWarehouse : ℤ) : Program Rand ℤ :=
  generateInteger 1 numDistrictsPerWarehouse

def generateCustomerId (C : NonuniformConstants) (numCustomersPerDistrict : ℤ) : Program Rand ℤ :=
  generateNonuniformInt 1023 C.cId 1 numCustomersPerDistrict

def generateItemId (C : NonuniformConstants) (numItems : ℤ) : Program Rand ℤ :=
  generateNonuniformInt 8191 C.orderlineItemId 1 numItems

end RandomGenerator

namespace TpccSource
variable (params : ScaleParams) (C : NonuniformConstants)

def startingWarehouse : ℤ := 1
def endingWarehouse : ℤ := startingWarehouse + params.numWarehouses - 1

/-- The vectors of a new order, and which of its lines have taken the remote branch. -/
structure OrderLines where
  iIds : List ℤ
  iWIds : List ℤ
  iQtys : List ℤ
  remote : List Bool

/-- The loop over the lines. -/
def generateLines (wId : ℤ) : ℕ → OrderLines → Program Rand OrderLines
  | 0, lines => pure lines
  | n + 1, lines => do
    let iId ← generateItemId C params.numItems
    let percent ← generateInteger 1 100
    if params.numWarehouses > 1 ∧ percent = 1 then
      let iWId ← generateIntegerExcluding startingWarehouse (endingWarehouse params) wId
      let iQty ← generateInteger 1 10
      generateLines wId n
        ⟨lines.iIds ++ [iId], lines.iWIds ++ [iWId], lines.iQtys ++ [iQty], lines.remote ++ [true]⟩
    else
      let iQty ← generateInteger 1 10
      generateLines wId n
        ⟨lines.iIds ++ [iId], lines.iWIds ++ [wId], lines.iQtys ++ [iQty], lines.remote ++ [false]⟩

/-- `generateNewOrderParam`, with the branches of its lines; `now` is the time it reads. -/
def generateNewOrderParam (now : ℤ) : Program Rand (NewOrderParam × List Bool) := do
  let wId ← generateWarehouseId startingWarehouse (endingWarehouse params)
  let dId ← generateDistrictId DISTRICTS_PER_WAREHOUSE
  let cId ← generateCustomerId C params.numCustomersPerDistrict
  let olCnt ← generateInteger 5 15
  let lines ← generateLines params C wId olCnt.toNat ⟨[], [], [], []⟩
  return (⟨wId, dId, cId, now, lines.iIds, lines.iWIds, lines.iQtys⟩, lines.remote)

/-- `generatePaymentParam`, with its branch. -/
def generatePaymentParam (now : ℤ) : Program Rand (PaymentParam × Bool) := do
  let x ← generateInteger 1 100
  let wId ← generateWarehouseId startingWarehouse (endingWarehouse params)
  let dId ← generateDistrictId DISTRICTS_PER_WAREHOUSE
  let hAmount ← generateFixedPoint 2 1 5000
  if params.numWarehouses = 1 ∨ x ≤ 85 then
    let cId ← generateCustomerId C params.numCustomersPerDistrict
    return (⟨wId, dId, hAmount, wId, dId, cId, now⟩, false)
  else
    let cWId ← generateIntegerExcluding startingWarehouse (endingWarehouse params) wId
    let cDId ← generateDistrictId DISTRICTS_PER_WAREHOUSE
    let cId ← generateCustomerId C params.numCustomersPerDistrict
    return (⟨wId, dId, hAmount, cWId, cDId, cId, now⟩, true)

/-- The warehouse drawn on a remote branch is another one, and may be any other one. -/
structure Remote (wId : ℤ) (drawn : Option ℤ) : Prop where
  other : ∃ w, drawn = some w ∧ w ≠ wId
  possible : ∀ w : ℤ, 1 ≤ w → w ≤ params.numWarehouses → w ≠ wId → ∃ (r r' : Rand),
    (generateIntegerExcluding startingWarehouse (endingWarehouse params) wId).run r = some (w, r')

structure NewOrderWell (param : NewOrderParam) (taken : List Bool) : Prop where
  warehouse : 1 ≤ param.wId ∧ param.wId ≤ params.numWarehouses
  district : 1 ≤ param.dId ∧ param.dId ≤ DISTRICTS_PER_WAREHOUSE
  customer : 1 ≤ param.cId ∧ param.cId ≤ params.numCustomersPerDistrict
  lengths : param.iWIds.length = param.iIds.length ∧ param.iQtys.length = param.iIds.length ∧
    taken.length = param.iIds.length
  count : 5 ≤ param.iIds.length ∧ param.iIds.length ≤ 15
  items : ∀ i ∈ param.iIds, 1 ≤ i ∧ i ≤ params.numItems
  supply : ∀ w ∈ param.iWIds, 1 ≤ w ∧ w ≤ params.numWarehouses
  quantities : ∀ q ∈ param.iQtys, 1 ≤ q ∧ q ≤ 10
  remote : ∀ i : ℕ, taken[i]? = some true → Remote params param.wId param.iWIds[i]?

structure PaymentWell (param : PaymentParam) (taken : Bool) : Prop where
  warehouse : 1 ≤ param.wId ∧ param.wId ≤ params.numWarehouses
  district : 1 ≤ param.dId ∧ param.dId ≤ DISTRICTS_PER_WAREHOUSE
  customer : 1 ≤ param.cId ∧ param.cId ≤ params.numCustomersPerDistrict
  customerWarehouse : 1 ≤ param.cWId ∧ param.cWId ≤ params.numWarehouses
  customerDistrict : 1 ≤ param.cDId ∧ param.cDId ≤ DISTRICTS_PER_WAREHOUSE
  remote : taken = true → Remote params param.wId (some param.cWId)

end TpccSource

namespace RandomGenerator

/-- The stream behind the first `k` draws. -/
def ahead (r : Rand) (k : ℕ) : Rand := fun n => r (k + n)

/-- The integer of draw `k`. -/
def integerAt (r : Rand) (k : ℕ) (min max : ℤ) : ℤ := (r k : ℤ) % (max - min + 1) + min

def sumAt (r : Rand) (k : ℕ) (a c x y : ℤ) : ℤ :=
  (((integerAt r k 0 a).toNat ||| (integerAt r (k + 1) x y).toNat : ℕ) : ℤ) + c

def nonuniformAt (r : Rand) (k : ℕ) (a c x y : ℤ) : ℤ := sumAt r k a c x y % (y - x + 1) + x

def excludingAt (r : Rand) (k : ℕ) (min max excluding : ℤ) : ℤ :=
  if integerAt r k min (max - 1) > excluding then integerAt r k min (max - 1) + 1
  else integerAt r k min (max - 1)

variable {r : Rand} {k : ℕ} {min max a c x y : ℤ}

@[simp] theorem ahead_zero (r : Rand) : ahead r 0 = r := by
  funext n
  rw [ahead, Nat.zero_add]

theorem integerAt_mem (r : Rand) (k : ℕ) (h : min ≤ max) :
    min ≤ integerAt r k min max ∧ integerAt r k min max ≤ max := by
  have hnonneg := Int.emod_nonneg (r k : ℤ) (show max - min + 1 ≠ 0 by omega)
  have hlt := Int.emod_lt_of_pos (r k : ℤ) (show 0 < max - min + 1 by omega)
  unfold integerAt
  omega

theorem nonuniformAt_mem (r : Rand) (k : ℕ) (a c : ℤ) (h : x ≤ y) :
    x ≤ nonuniformAt r k a c x y ∧ nonuniformAt r k a c x y ≤ y := by
  have hnonneg := Int.emod_nonneg (sumAt r k a c x y) (show y - x + 1 ≠ 0 by omega)
  have hlt := Int.emod_lt_of_pos (sumAt r k a c x y) (show 0 < y - x + 1 by omega)
  unfold nonuniformAt
  omega

theorem run_integerAt (r : Rand) (k : ℕ) (min max : ℤ) :
    (generateInteger min max).run (ahead r k) = some (integerAt r k min max, ahead r (k + 1)) := by
  rw [run_generateInteger]
  refine congrArg some (Prod.ext rfl ?_)
  funext n
  change r (k + (n + 1)) = r (k + 1 + n)
  congr 1
  omega

theorem run_fixedPoint (r : Rand) (k decimalPlaces : ℕ) (min max : ℚ) : ∃ q,
    (generateFixedPoint decimalPlaces min max).run (ahead r k) = some (q, ahead r (k + 1)) :=
  ⟨_, by rw [generateFixedPoint, Program.run_bind, run_integerAt]; rfl⟩

private theorem run_nonuniformAt (r : Rand) (k : ℕ) (a c x y : ℤ) :
    (generateNonuniformInt a c x y).run (ahead r k) =
      if sumAt r k a c x y < 2 ^ 31 then some (nonuniformAt r k a c x y, ahead r (k + 2))
      else none := by
  rw [generateNonuniformInt, Program.run_bind, run_integerAt, Option.bind_some, Program.run_bind,
    run_integerAt, Option.bind_some, Program.run_bind, Program.run_assert]
  change ((if decide (sumAt r k a c x y < 2 ^ 31) = true then some _ else none).bind _) = _
  simp only [decide_eq_true_eq]
  split
  · rfl
  · rfl

theorem run_excludingAt (r : Rand) (k : ℕ) (min max excluding : ℤ) :
    (generateIntegerExcluding min max excluding).run (ahead r k) =
      some (excludingAt r k min max excluding, ahead r (k + 1)) := by
  rw [generateIntegerExcluding, Program.run_bind, run_integerAt]
  rfl

/-- The number behind the excluded one is never drawn. -/
theorem excludingAt_ne (r : Rand) (k : ℕ) (min max excluding : ℤ) :
    excludingAt r k min max excluding ≠ excluding + 1 := by
  unfold excludingAt
  split <;> omega

theorem excludingAt_mem (r : Rand) (k : ℕ) (excluding : ℤ) (h : min < max) :
    min ≤ excludingAt r k min max excluding ∧ excludingAt r k min max excluding ≤ max := by
  have hmem := integerAt_mem r k (show min ≤ max - 1 by omega)
  unfold excludingAt
  split <;> omega

/-- The last number is excluded as it should be. -/
theorem excludingAt_last (r : Rand) (k : ℕ) (h : min < max) :
    excludingAt r k min max max = integerAt r k min (max - 1) := by
  have hmem := integerAt_mem r k (show min ≤ max - 1 by omega)
  exact if_neg (by omega)

end RandomGenerator

namespace TpccSource
variable {params : ScaleParams} {C : NonuniformConstants}

/-- A remote branch keeps its promise exactly when the own warehouse is the last one. -/
theorem remote_iff {wId : ℤ} (r : Rand) (k : ℕ) (hmany : 1 < params.numWarehouses) (hwId : 1 ≤ wId)
    (hle : wId ≤ params.numWarehouses) :
    Remote params wId (some (excludingAt r k startingWarehouse (endingWarehouse params) wId)) ↔
      wId = params.numWarehouses := by
  have hlast : endingWarehouse params = params.numWarehouses := by
    unfold endingWarehouse startingWarehouse
    omega
  rw [hlast]
  constructor
  · intro hremote
    by_contra hne
    obtain ⟨r', r'', hrun⟩ := hremote.possible (wId + 1) (by omega) (by omega) (by omega)
    rw [hlast, ← ahead_zero r', run_excludingAt] at hrun
    exact excludingAt_ne r' 0 _ _ _ (congrArg Prod.fst (Option.some.inj hrun))
  · rintro rfl
    have hlt : startingWarehouse < params.numWarehouses := by
      unfold startingWarehouse
      omega
    refine ⟨⟨_, rfl, ?_⟩, fun w hw hwle hne => ?_⟩
    · have hmem := integerAt_mem r k (show startingWarehouse ≤ params.numWarehouses - 1 by omega)
      rw [excludingAt_last r k hlt]
      omega
    · refine ⟨fun _ => (w - 1).toNat, ahead (fun _ => (w - 1).toNat) 1, ?_⟩
      have hvalue : integerAt (fun _ => (w - 1).toNat) 0 startingWarehouse
          (params.numWarehouses - 1) = w := by
        unfold integerAt startingWarehouse
        rw [Int.toNat_of_nonneg (by omega), Int.emod_eq_of_lt (by omega) (by omega)]
        omega
      have hrun := run_excludingAt (fun _ => (w - 1).toNat) 0 startingWarehouse
        params.numWarehouses params.numWarehouses
      rw [ahead_zero, excludingAt_last _ _ hlt, hvalue] at hrun
      rw [hlast]
      exact hrun

/-- The line whose draws begin with draw `k`. -/
def itemSum (params : ScaleParams) (C : NonuniformConstants) (r : Rand) (k : ℕ) : ℤ :=
  sumAt r k 8191 C.orderlineItemId 1 params.numItems

def RemoteAt (params : ScaleParams) (r : Rand) (k : ℕ) : Prop :=
  params.numWarehouses > 1 ∧ integerAt r (k + 2) 1 100 = 1

instance (params : ScaleParams) (r : Rand) (k : ℕ) : Decidable (RemoteAt params r k) :=
  inferInstanceAs (Decidable (_ ∧ _))

def itemAt (params : ScaleParams) (C : NonuniformConstants) (r : Rand) (k : ℕ) : ℤ :=
  nonuniformAt r k 8191 C.orderlineItemId 1 params.numItems

def supplyAt (params : ScaleParams) (wId : ℤ) (r : Rand) (k : ℕ) : ℤ :=
  if RemoteAt params r k then
    excludingAt r (k + 3) startingWarehouse (endingWarehouse params) wId else wId

/-- The draw with which line `n` begins; a remote line takes one more. -/
def lineStart (params : ScaleParams) (r : Rand) : ℕ → ℕ
  | 0 => 5
  | n + 1 => lineStart params r n + if RemoteAt params r (lineStart params r n) then 5 else 4

def quantityAt (params : ScaleParams) (r : Rand) (n : ℕ) : ℤ :=
  integerAt r (lineStart params r (n + 1) - 1) 1 10

variable (params C) in
/-- The first `n` lines of a new order. -/
def linesAt (wId : ℤ) (r : Rand) (n : ℕ) : OrderLines where
  iIds := (List.range n).map (fun i => itemAt params C r (lineStart params r i))
  iWIds := (List.range n).map (fun i => supplyAt params wId r (lineStart params r i))
  iQtys := (List.range n).map (quantityAt params r)
  remote := (List.range n).map (fun i => decide (RemoteAt params r (lineStart params r i)))

private theorem linesAt_succ (wId : ℤ) (r : Rand) (n : ℕ) : linesAt params C wId r (n + 1) =
    ⟨(linesAt params C wId r n).iIds ++ [itemAt params C r (lineStart params r n)],
      (linesAt params C wId r n).iWIds ++ [supplyAt params wId r (lineStart params r n)],
      (linesAt params C wId r n).iQtys ++ [quantityAt params r n],
      (linesAt params C wId r n).remote ++ [decide (RemoteAt params r (lineStart params r n))]⟩ := by
  simp [linesAt, List.range_succ]

private theorem run_itemAt (r : Rand) (k : ℕ) : (generateItemId C params.numItems).run (ahead r k) =
    if itemSum params C r k < 2 ^ 31 then some (itemAt params C r k, ahead r (k + 2)) else none :=
  run_nonuniformAt r k 8191 C.orderlineItemId 1 params.numItems

private theorem run_generateLines_succ (wId : ℤ) (r : Rand) (n m : ℕ)
    (hfits : itemSum params C r (lineStart params r n) < 2 ^ 31) :
    (generateLines params C wId (m + 1) (linesAt params C wId r n)).run
        (ahead r (lineStart params r n)) =
      (generateLines params C wId m (linesAt params C wId r (n + 1))).run
        (ahead r (lineStart params r (n + 1))) := by
  rw [generateLines, Program.run_bind, run_itemAt, if_pos hfits, Option.bind_some,
    Program.run_bind, run_integerAt, Option.bind_some, linesAt_succ]
  dsimp only
  by_cases hremote : RemoteAt params r (lineStart params r n)
  · have hnext : lineStart params r (n + 1) = lineStart params r n + 5 := by
      rw [lineStart, if_pos hremote]
    rw [if_pos (show _ ∧ _ from hremote), Program.run_bind, run_excludingAt,
      Option.bind_some, Program.run_bind, run_integerAt, Option.bind_some, quantityAt, hnext,
      supplyAt, if_pos hremote, decide_eq_true hremote]
    rfl
  · have hnext : lineStart params r (n + 1) = lineStart params r n + 4 := by
      rw [lineStart, if_neg hremote]
    rw [if_neg (show ¬ (_ ∧ _) from hremote), Program.run_bind, run_integerAt,
      Option.bind_some, quantityAt, hnext, supplyAt, if_neg hremote, decide_eq_false hremote]
    rfl

private theorem run_generateLines_overflow (wId : ℤ) (r : Rand) (n m : ℕ)
    (hfits : ¬ itemSum params C r (lineStart params r n) < 2 ^ 31) :
    (generateLines params C wId (m + 1) (linesAt params C wId r n)).run
        (ahead r (lineStart params r n)) = none := by
  rw [generateLines, Program.run_bind, run_itemAt, if_neg hfits]
  rfl

variable (params C) in
theorem run_generateLines (wId : ℤ) (r : Rand) (n m : ℕ) :
    (generateLines params C wId m (linesAt params C wId r n)).run
        (ahead r (lineStart params r n)) =
      if ∀ i < m, itemSum params C r (lineStart params r (n + i)) < 2 ^ 31 then
        some (linesAt params C wId r (n + m), ahead r (lineStart params r (n + m))) else none := by
  induction m generalizing n with
  | zero =>
    rw [if_pos (fun i hi => absurd hi (Nat.not_lt_zero i))]
    rfl
  | succ m ih =>
    by_cases hfits : itemSum params C r (lineStart params r n) < 2 ^ 31
    · have hall : (∀ i < m, itemSum params C r (lineStart params r (n + 1 + i)) < 2 ^ 31) ↔
          ∀ i < m + 1, itemSum params C r (lineStart params r (n + i)) < 2 ^ 31 := by
        constructor
        · intro h i hi
          cases i with
          | zero => exact hfits
          | succ i =>
            have hi' := h i (Nat.lt_of_succ_lt_succ hi)
            rwa [Nat.add_right_comm] at hi'
        · intro h i hi
          have hi' := h (i + 1) (Nat.succ_lt_succ hi)
          rwa [← Nat.add_assoc, Nat.add_right_comm] at hi'
      rw [run_generateLines_succ wId r n m hfits, ih, if_congr hall rfl rfl, Nat.add_right_comm]
      rfl
    · rw [run_generateLines_overflow wId r n m hfits, if_neg (fun h => hfits (h 0 (Nat.succ_pos m)))]

def warehouseAt (params : ScaleParams) (r : Rand) (k : ℕ) : ℤ :=
  integerAt r k startingWarehouse (endingWarehouse params)

def customerSum (params : ScaleParams) (C : NonuniformConstants) (r : Rand) (k : ℕ) : ℤ :=
  sumAt r k 1023 C.cId 1 params.numCustomersPerDistrict

def customerAt (params : ScaleParams) (C : NonuniformConstants) (r : Rand) (k : ℕ) : ℤ :=
  nonuniformAt r k 1023 C.cId 1 params.numCustomersPerDistrict

theorem run_customerAt (r : Rand) (k : ℕ) :
    (generateCustomerId C params.numCustomersPerDistrict).run (ahead r k) =
      if customerSum params C r k < 2 ^ 31 then some (customerAt params C r k, ahead r (k + 2))
      else none :=
  run_nonuniformAt r k 1023 C.cId 1 params.numCustomersPerDistrict

/-- The number of lines. -/
def lineCount (r : Rand) : ℕ := (integerAt r 4 5 15).toNat

variable (params C) in
/-- The new order that the stream holds. -/
def newOrderAt (now : ℤ) (r : Rand) : NewOrderParam :=
  ⟨warehouseAt params r 0, integerAt r 1 1 DISTRICTS_PER_WAREHOUSE, customerAt params C r 2, now,
    (linesAt params C (warehouseAt params r 0) r (lineCount r)).iIds,
    (linesAt params C (warehouseAt params r 0) r (lineCount r)).iWIds,
    (linesAt params C (warehouseAt params r 0) r (lineCount r)).iQtys⟩

variable (params C) in
/-- No sum of a new order overflows. -/
def OrderFits (r : Rand) : Prop :=
  customerSum params C r 2 < 2 ^ 31 ∧
    ∀ i < lineCount r, itemSum params C r (lineStart params r i) < 2 ^ 31

theorem run_generateNewOrderParam (now : ℤ) (r : Rand) (hfits : OrderFits params C r) :
    (generateNewOrderParam params C now).run r = some ((newOrderAt params C now r,
      (linesAt params C (warehouseAt params r 0) r (lineCount r)).remote),
        ahead r (lineStart params r (lineCount r))) := by
  have hlines := run_generateLines params C (warehouseAt params r 0) r 0 (lineCount r)
  simp only [Nat.zero_add] at hlines
  rw [if_pos hfits.2] at hlines
  conv_lhs => rw [← ahead_zero r]
  rw [generateNewOrderParam, Program.run_bind, generateWarehouseId, run_integerAt, Option.bind_some,
    Program.run_bind, generateDistrictId, run_integerAt, Option.bind_some, Program.run_bind,
    run_customerAt, if_pos hfits.1, Option.bind_some, Program.run_bind, run_integerAt,
    Option.bind_some, Program.run_bind]
  dsimp only
  change ((generateLines params C (warehouseAt params r 0) (lineCount r)
    (linesAt params C (warehouseAt params r 0) r 0)).run (ahead r (lineStart params r 0))).bind _ = _
  rw [hlines]
  rfl

theorem run_generateNewOrderParam_overflow (now : ℤ) (r : Rand) (hfits : ¬ OrderFits params C r) :
    (generateNewOrderParam params C now).run r = none := by
  conv_lhs => rw [← ahead_zero r]
  rw [generateNewOrderParam, Program.run_bind, generateWarehouseId, run_integerAt, Option.bind_some,
    Program.run_bind, generateDistrictId, run_integerAt, Option.bind_some, Program.run_bind,
    run_customerAt]
  by_cases hcustomer : customerSum params C r 2 < 2 ^ 31
  · rw [if_pos hcustomer, Option.bind_some, Program.run_bind, run_integerAt, Option.bind_some,
      Program.run_bind]
    dsimp only
    have hlines := run_generateLines params C (warehouseAt params r 0) r 0 (lineCount r)
    simp only [Nat.zero_add] at hlines
    rw [if_neg (fun hitems => hfits ⟨hcustomer, hitems⟩)] at hlines
    change ((generateLines params C (warehouseAt params r 0) (lineCount r)
      (linesAt params C (warehouseAt params r 0) r 0)).run (ahead r (lineStart params r 0))).bind _ = _
    rw [hlines]
    rfl
  · rw [if_neg hcustomer]
    rfl

end TpccSource
end ImdbD.Benchmark.TPCC
