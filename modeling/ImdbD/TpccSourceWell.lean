import ImdbD.TpccSource

/-!
# When the transactions of TPC-C are well formed

Everything but the remote branch keeps its range. A remote branch may return the
excluded warehouse and never the one behind it, so only the last warehouse is
served as promised.
-/
namespace ImdbD.Benchmark.TPCC
open AtomicProgram RandomGenerator

namespace TpccSource
variable {params : ScaleParams} {C : NonuniformConstants}

private theorem warehouseAt_mem (r : Rand) (k : ℕ) (hwarehouses : 1 ≤ params.numWarehouses) :
    1 ≤ warehouseAt params r k ∧ warehouseAt params r k ≤ params.numWarehouses := by
  have hmem := integerAt_mem r k (show startingWarehouse ≤ endingWarehouse params by
    unfold endingWarehouse startingWarehouse
    omega)
  unfold warehouseAt
  unfold endingWarehouse startingWarehouse at *
  omega

/-- Draw `k` falls on the last warehouse. -/
def DrawsLast (params : ScaleParams) (r : Rand) (k : ℕ) : Prop :=
  r k % params.numWarehouses = params.numWarehouses - 1

private theorem warehouseAt_eq (r : Rand) (k : ℕ) :
    warehouseAt params r k = ((r k % params.numWarehouses : ℕ) : ℤ) + 1 := by
  have hrange : (1 : ℤ) + params.numWarehouses - 1 - 1 + 1 = params.numWarehouses := by omega
  rw [warehouseAt, integerAt, endingWarehouse, startingWarehouse, hrange]
  rfl

private theorem warehouseAt_eq_last_iff (r : Rand) (k : ℕ) (hwarehouses : 1 ≤ params.numWarehouses) :
    warehouseAt params r k = params.numWarehouses ↔ DrawsLast params r k := by
  rw [warehouseAt_eq, DrawsLast]
  omega

theorem districtAt_mem (r : Rand) (k : ℕ) : 1 ≤ integerAt r k 1 DISTRICTS_PER_WAREHOUSE ∧
    integerAt r k 1 DISTRICTS_PER_WAREHOUSE ≤ DISTRICTS_PER_WAREHOUSE :=
  integerAt_mem r k (by decide)

theorem customerAt_mem (r : Rand) (k : ℕ) (hcustomers : 1 ≤ params.numCustomersPerDistrict) :
    1 ≤ customerAt params C r k ∧ customerAt params C r k ≤ params.numCustomersPerDistrict :=
  nonuniformAt_mem r k _ _ (by omega)

private theorem itemAt_mem (r : Rand) (k : ℕ) (hitems : 1 ≤ params.numItems) :
    1 ≤ itemAt params C r k ∧ itemAt params C r k ≤ params.numItems :=
  nonuniformAt_mem r k _ _ (by omega)

private theorem lineCount_mem (r : Rand) : 5 ≤ lineCount r ∧ lineCount r ≤ 15 := by
  have hmem := integerAt_mem r 4 (show (5 : ℤ) ≤ 15 by decide)
  unfold lineCount
  omega

private theorem supplyAt_mem {wId : ℤ} (r : Rand) (k : ℕ) (hwId : 1 ≤ wId ∧ wId ≤ params.numWarehouses) :
    1 ≤ supplyAt params wId r k ∧ supplyAt params wId r k ≤ params.numWarehouses := by
  unfold supplyAt
  by_cases hremote : RemoteAt params r k
  · have hmany := hremote.1
    have hmem := excludingAt_mem r (k + 3) wId (show startingWarehouse < endingWarehouse params by
      unfold endingWarehouse startingWarehouse
      omega)
    rw [if_pos hremote]
    unfold endingWarehouse startingWarehouse at *
    omega
  · rw [if_neg hremote]
    exact hwId

section
variable {wId : ℤ} {r : Rand} {n : ℕ}

private theorem getElem?_remote {i : ℕ} : (linesAt params C wId r n).remote[i]? = some true ↔
    i < n ∧ RemoteAt params r (lineStart params r i) := by
  simp only [linesAt, List.getElem?_map, Option.map_eq_some_iff, decide_eq_true_eq,
    List.getElem?_eq_some_iff, List.getElem_range, List.length_range]
  constructor
  · rintro ⟨a, ⟨hi, rfl⟩, hremote⟩
    exact ⟨hi, hremote⟩
  · rintro ⟨hi, hremote⟩
    exact ⟨i, ⟨hi, rfl⟩, hremote⟩

private theorem getElem?_supply {i : ℕ} (hi : i < n) : (linesAt params C wId r n).iWIds[i]? =
    some (supplyAt params wId r (lineStart params r i)) := by
  simp [linesAt, List.getElem?_range hi]

variable (C) in
private theorem remote_line_iff {i : ℕ} (hwId : 1 ≤ wId ∧ wId ≤ params.numWarehouses) (hi : i < n)
    (hremote : RemoteAt params r (lineStart params r i)) :
    Remote params wId (linesAt params C wId r n).iWIds[i]? ↔ wId = params.numWarehouses := by
  rw [getElem?_supply hi, supplyAt, if_pos hremote]
  exact remote_iff r _ hremote.1 hwId.1 hwId.2

end

variable (C) in
/-- The new order of the stream is well formed up to its remote lines. -/
theorem newOrderWell_iff (now : ℤ) (r : Rand) (hwarehouses : 1 ≤ params.numWarehouses)
    (hitems : 1 ≤ params.numItems) (hcustomers : 1 ≤ params.numCustomersPerDistrict) :
    NewOrderWell params (newOrderAt params C now r)
        (linesAt params C (warehouseAt params r 0) r (lineCount r)).remote ↔
      DrawsLast params r 0 ∨ ∀ i < lineCount r, ¬ RemoteAt params r (lineStart params r i) := by
  rw [← warehouseAt_eq_last_iff r 0 hwarehouses]
  have hwId := warehouseAt_mem r 0 hwarehouses
  constructor
  · intro hwell
    by_contra hnot
    rw [not_or] at hnot
    obtain ⟨hhome, hall⟩ := hnot
    push Not at hall
    obtain ⟨i, hi, hremote⟩ := hall
    exact hhome ((remote_line_iff C hwId hi hremote).mp
      (hwell.remote i (getElem?_remote.mpr ⟨hi, hremote⟩)))
  · intro hremotes
    refine ⟨hwId, districtAt_mem r 1, customerAt_mem r 2 hcustomers, ?_, ?_, ?_, ?_, ?_, ?_⟩
    · simp [newOrderAt, linesAt]
    · have hcount := lineCount_mem r
      simpa [newOrderAt, linesAt] using hcount
    · intro item hitem
      obtain ⟨i, -, rfl⟩ := List.mem_map.mp hitem
      exact itemAt_mem r _ hitems
    · intro w hw
      obtain ⟨i, -, rfl⟩ := List.mem_map.mp hw
      exact supplyAt_mem r _ hwId
    · intro quantity hquantity
      obtain ⟨i, -, rfl⟩ := List.mem_map.mp hquantity
      exact integerAt_mem r _ (by decide)
    · intro i htaken
      obtain ⟨hi, hremote⟩ := getElem?_remote.mp htaken
      refine (remote_line_iff C hwId hi hremote).mpr ?_
      exact hremotes.resolve_right (fun hall => hall i hi hremote)

/-- The branch that keeps the customer at home. -/
def Local (params : ScaleParams) (r : Rand) : Prop :=
  params.numWarehouses = 1 ∨ integerAt r 0 1 100 ≤ 85

instance (params : ScaleParams) (r : Rand) : Decidable (Local params r) :=
  inferInstanceAs (Decidable (_ ∨ _))

/-- The draw with which the customer begins. -/
def customerStart (params : ScaleParams) (r : Rand) : ℕ := if Local params r then 4 else 6

variable (params C) in
/-- The payment that the stream holds. -/
def paymentAt (now : ℤ) (amount : ℚ) (r : Rand) : PaymentParam :=
  ⟨warehouseAt params r 1, integerAt r 2 1 DISTRICTS_PER_WAREHOUSE, amount,
    if Local params r then warehouseAt params r 1 else
      excludingAt r 4 startingWarehouse (endingWarehouse params) (warehouseAt params r 1),
    if Local params r then integerAt r 2 1 DISTRICTS_PER_WAREHOUSE else
      integerAt r 5 1 DISTRICTS_PER_WAREHOUSE,
    customerAt params C r (customerStart params r), now⟩

variable (params C) in
theorem run_generatePaymentParam (now : ℤ) (r : Rand) : ∃ amount,
    (generatePaymentParam params C now).run r =
      if customerSum params C r (customerStart params r) < 2 ^ 31 then
        some ((paymentAt params C now amount r, !decide (Local params r)),
          ahead r (customerStart params r + 2)) else none := by
  obtain ⟨amount, hamount⟩ := run_fixedPoint r 3 2 1 5000
  refine ⟨amount, ?_⟩
  conv_lhs => rw [← ahead_zero r]
  rw [generatePaymentParam, Program.run_bind, run_integerAt, Option.bind_some, Program.run_bind,
    generateWarehouseId, run_integerAt, Option.bind_some, Program.run_bind, generateDistrictId,
    run_integerAt, Option.bind_some, Program.run_bind, hamount, Option.bind_some]
  dsimp only
  by_cases hlocal : Local params r
  · rw [if_pos (show _ ∨ _ from hlocal), Program.run_bind, run_customerAt, customerStart,
      if_pos hlocal]
    split
    · rw [Option.bind_some, paymentAt, if_pos hlocal, if_pos hlocal, customerStart, if_pos hlocal,
        decide_eq_true hlocal]
      rfl
    · rfl
  · rw [if_neg (show ¬ (_ ∨ _) from hlocal), Program.run_bind, run_excludingAt, Option.bind_some,
      Program.run_bind, run_integerAt, Option.bind_some, Program.run_bind, run_customerAt,
      customerStart, if_neg hlocal]
    split
    · rw [Option.bind_some, paymentAt, if_neg hlocal, if_neg hlocal, customerStart, if_neg hlocal,
        decide_eq_false hlocal]
      rfl
    · rfl

variable (C) in
/-- The payment of the stream is well formed up to its remote branch. -/
theorem paymentWell_iff (now : ℤ) (amount : ℚ) (r : Rand) (hwarehouses : 1 ≤ params.numWarehouses)
    (hcustomers : 1 ≤ params.numCustomersPerDistrict) :
    PaymentWell params (paymentAt params C now amount r) (!decide (Local params r)) ↔
      Local params r ∨ DrawsLast params r 1 := by
  rw [← warehouseAt_eq_last_iff r 1 hwarehouses]
  have hwId := warehouseAt_mem r 1 hwarehouses
  by_cases hlocal : Local params r
  · refine iff_of_true ?_ (Or.inl hlocal)
    refine ⟨hwId, districtAt_mem r 2, customerAt_mem r _ hcustomers, ?_, ?_, ?_⟩
    · rw [paymentAt, if_pos hlocal]
      exact hwId
    · simp only [paymentAt, if_pos hlocal]
      exact districtAt_mem r 2
    · intro htaken
      simp [hlocal] at htaken
  · have hmany : 1 < params.numWarehouses := by
      have hne : params.numWarehouses ≠ 1 := fun hone => hlocal (Or.inl hone)
      omega
    have hcustomer : (paymentAt params C now amount r).cWId =
        excludingAt r 4 startingWarehouse (endingWarehouse params) (warehouseAt params r 1) :=
      if_neg hlocal
    have hremote := remote_iff r 4 hmany hwId.1 hwId.2
    constructor
    · intro hwell
      have hpromise := hwell.remote (by rw [decide_eq_false hlocal]; rfl)
      rw [hcustomer] at hpromise
      exact Or.inr (hremote.mp hpromise)
    · intro hlast
      have hhome := hlast.resolve_left hlocal
      have hmem := excludingAt_mem r 4 (warehouseAt params r 1)
        (show startingWarehouse < endingWarehouse params by
          unfold endingWarehouse startingWarehouse
          omega)
      refine ⟨hwId, districtAt_mem r 2, customerAt_mem r _ hcustomers, ?_, ?_, ?_⟩
      · rw [hcustomer]
        unfold endingWarehouse startingWarehouse at *
        omega
      · simp only [paymentAt, if_neg hlocal]
        exact districtAt_mem r 5
      · intro _
        rw [hcustomer]
        exact hremote.mpr hhome

variable (params C) in
/-- Both transactions return well-formed parameters exactly when no sum overflows and a remote branch
finds its home at the last warehouse. -/
theorem transactions_wellFormed_iff (now : ℤ) (r : Rand) (hwarehouses : 1 ≤ params.numWarehouses)
    (hitems : 1 ≤ params.numItems) (hcustomers : 1 ≤ params.numCustomersPerDistrict) :
    ((∃ param taken r', (generateNewOrderParam params C now).run r = some ((param, taken), r') ∧
        NewOrderWell params param taken) ↔
      OrderFits params C r ∧ (DrawsLast params r 0 ∨
        ∀ i < lineCount r, ¬ RemoteAt params r (lineStart params r i))) ∧
    ((∃ param taken r', (generatePaymentParam params C now).run r = some ((param, taken), r') ∧
        PaymentWell params param taken) ↔
      customerSum params C r (customerStart params r) < 2 ^ 31 ∧
        (Local params r ∨ DrawsLast params r 1)) := by
  constructor
  · rw [← newOrderWell_iff C now r hwarehouses hitems hcustomers]
    by_cases hfits : OrderFits params C r
    · rw [run_generateNewOrderParam now r hfits]
      constructor
      · rintro ⟨param, taken, r', hrun, hwell⟩
        cases hrun
        exact ⟨hfits, hwell⟩
      · rintro ⟨-, hwell⟩
        exact ⟨_, _, _, rfl, hwell⟩
    · rw [run_generateNewOrderParam_overflow now r hfits]
      simp [hfits]
  · obtain ⟨amount, hrun⟩ := run_generatePaymentParam params C now r
    rw [← paymentWell_iff C now amount r hwarehouses hcustomers, hrun]
    split
    next hfits =>
      constructor
      · rintro ⟨param, taken, r', hresult, hwell⟩
        cases hresult
        exact ⟨hfits, hwell⟩
      · rintro ⟨-, hwell⟩
        exact ⟨_, _, _, rfl, hwell⟩
    next hfits => exact iff_of_false (fun ⟨_, _, _, hnone, _⟩ => nomatch hnone) (fun h => hfits h.1)

def zeroConstants : NonuniformConstants := ⟨0, 0, by decide, by decide⟩

/-- Two warehouses with a hundredth of their rows. -/
def twoWarehouses : ScaleParams := ScaleParams.new 2 100 (by norm_num)

theorem twoWarehouses_numItems : twoWarehouses.numItems = 1000 := by
  norm_num [twoWarehouses, ScaleParams.new]

theorem twoWarehouses_numCustomersPerDistrict : twoWarehouses.numCustomersPerDistrict = 30 := by
  norm_num [twoWarehouses, ScaleParams.new]

/-- A stream of one value. -/
def constant (n : ℕ) : Rand := fun _ => n

private theorem sumAt_constant_zero (k : ℕ) (a : ℤ) (n : ℕ) : sumAt (constant 0) k a 0 1 n = 1 := by
  simp [sumAt, integerAt, constant]

theorem twoWarehouses_wellFormed_of_ones :
    (∃ param taken r', (generateNewOrderParam twoWarehouses zeroConstants 0).run (constant 1) =
      some ((param, taken), r') ∧ NewOrderWell twoWarehouses param taken) ∧
    ∃ param taken r', (generatePaymentParam twoWarehouses zeroConstants 0).run (constant 1) =
      some ((param, taken), r') ∧ PaymentWell twoWarehouses param taken := by
  have hcustomer : ∀ k, customerSum twoWarehouses zeroConstants (constant 1) k = 3 := by
    intro k
    rw [customerSum, twoWarehouses_numCustomersPerDistrict]
    norm_num [sumAt, integerAt, constant, zeroConstants]
    rfl
  have hitem : ∀ k, itemSum twoWarehouses zeroConstants (constant 1) k = 3 := by
    intro k
    rw [itemSum, twoWarehouses_numItems]
    norm_num [sumAt, integerAt, constant, zeroConstants]
    rfl
  obtain ⟨horder, hpayment⟩ := transactions_wellFormed_iff twoWarehouses zeroConstants 0 (constant 1)
    (by decide) (by rw [twoWarehouses_numItems]; decide)
    (by rw [twoWarehouses_numCustomersPerDistrict]; decide)
  refine ⟨horder.mpr ⟨⟨?_, ?_⟩, Or.inl rfl⟩, hpayment.mpr ⟨?_, Or.inr rfl⟩⟩
  · rw [hcustomer]
    decide
  · intro i _
    rw [hitem]
    decide
  · rw [hcustomer]
    decide

/-- Of two warehouses the first one is drawn as the other warehouse of itself. -/
theorem remote_zeros_not_wellFormed :
    ∃ param taken r', (generateNewOrderParam twoWarehouses zeroConstants 0).run (constant 0) =
      some ((param, taken), r') ∧ ¬ NewOrderWell twoWarehouses param taken := by
  have hfits : OrderFits twoWarehouses zeroConstants (constant 0) := by
    refine ⟨?_, fun i _ => ?_⟩
    · rw [customerSum, show zeroConstants.cId = 0 from rfl, sumAt_constant_zero]
      decide
    · rw [itemSum, show zeroConstants.orderlineItemId = 0 from rfl, sumAt_constant_zero]
      decide
  refine ⟨_, _, _, run_generateNewOrderParam 0 (constant 0) hfits, fun hwell => ?_⟩
  rcases (newOrderWell_iff zeroConstants 0 (constant 0) (by decide) (by rw [twoWarehouses_numItems]; decide)
    (by rw [twoWarehouses_numCustomersPerDistrict]; decide)).mp hwell with hlast | hlocal
  · exact absurd hlast (by unfold DrawsLast; decide)
  · exact hlocal 0 (by decide) ⟨by decide, rfl⟩

end TpccSource
end ImdbD.Benchmark.TPCC
