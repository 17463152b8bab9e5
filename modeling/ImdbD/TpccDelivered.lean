import ImdbD.TpccSerialRun
import ImdbD.StoreTotals

/-!
# A delivery from end to end

In every state that a run reaches, a delivery serves each district of its
warehouse by itself: it takes the waiting order with the smallest number, or
leaves the district as it is.
-/
namespace ImdbD.Benchmark.TPCC
open AtomicProgram KeyedStore GuardedRun TpccSerialProcessor

/-- The orders of a district that have a row in NEW_ORDER. -/
def waitingOrders (s : Tables) (d w : ℤ) : Set ℤ :=
  {o | ∃ off, (s.row (.newOrder off) (o, d, w)).isSome}

/-- The sum of the amounts of the lines of an order. -/
def orderAmount (s : Tables) (o d w : ℤ) : ℚ :=
  ∑ off ∈ Finset.range MAX_PARTITION_CNT, s.total (.orderLine off) (fun k (x : OrderLineRecord) =>
    if (k.1, k.2.1, k.2.2.1) = (o, d, w) then x.olAmount else 0)

/-- The district that a row belongs to. -/
def districtOf : ∀ id, Key id → Option (ℤ × ℤ)
  | .district, (d, w) => some (d, w)
  | .districtNewOrder, (w, d) => some (d, w)
  | .customer, (_, d, w) => some (d, w)
  | .order _, (_, d, w) => some (d, w)
  | .newOrder _, (_, d, w) => some (d, w)
  | .orderLine _, (_, d, w, _) => some (d, w)
  | .item, _ | .warehouse, _ | .history, _ | .stock, _ => none

/-- The order `o` of the district `d` is delivered, and nothing else of the district changes. -/
structure OrderDelivered (param : DeliveryParam) (s s' : Tables) (d o : ℤ) : Prop where
  newOrder : ∀ off o', s'.row (.newOrder off) (o', d, param.wId) =
    if o' = o then none else s.row (.newOrder off) (o', d, param.wId)
  pointer : ∃ y, s.row .districtNewOrder (param.wId, d) = some y ∧
    s'.row .districtNewOrder (param.wId, d) = some { y with oId := y.oId + 1 }
  order : ∀ off o', s'.row (.order off) (o', d, param.wId) =
    if o' = o then (s.row (.order off) (o, d, param.wId)).map (fun r =>
      { r with oCarrierId := param.oCarrierId }) else s.row (.order off) (o', d, param.wId)
  line : ∀ off o' i, s'.row (.orderLine off) (o', d, param.wId, i) =
    if o' = o then (s.row (.orderLine off) (o, d, param.wId, i)).map (fun x =>
      { x with olDeliveryD := param.olDeliveryD }) else s.row (.orderLine off) (o', d, param.wId, i)
  customer : ∃ off r x, s.row (.order off) (o, d, param.wId) = some r ∧
    s.row .customer (r.oCId, d, param.wId) = some x ∧
    ∀ c, s'.row .customer (c, d, param.wId) = if c = r.oCId then
      some { x with cBalance := x.cBalance + orderAmount s o d param.wId }
      else s.row .customer (c, d, param.wId)
  district : s'.row .district (d, param.wId) = s.row .district (d, param.wId)

/-- A delivery serves the districts of its warehouse one by one and touches nothing else. -/
structure DeliveryDone (param : DeliveryParam) (s s' : Tables) : Prop where
  served : ∀ d, 1 ≤ d ∧ d ≤ DISTRICTS_PER_WAREHOUSE →
    (∃ o, IsLeast (waitingOrders s d param.wId) o ∧ OrderDelivered param s s' d o) ∨
    (waitingOrders s d param.wId = ∅ ∧
      ∀ id k, districtOf id k = some (d, param.wId) → s'.row id k = s.row id k)
  others : ∀ id k, (∀ d, 1 ≤ d ∧ d ≤ DISTRICTS_PER_WAREHOUSE →
    districtOf id k ≠ some (d, param.wId)) → s'.row id k = s.row id k
  groups : s'.groups = s.groups
  heap : s'.heap = s.heap

variable {K : Constants} {P : ScaleParams} {param : DeliveryParam} {s s' : Tables}
  {d w o next first : ℤ}

private theorem OrderBook.waitingOrders_eq (h : OrderBook K s d w next first) :
    waitingOrders s d w = Set.Ico first next := by
  ext o
  constructor
  · rintro ⟨off, ho⟩
    exact ((h.newOrder off o).mp ho).2
  · exact fun ho => ⟨_, (h.newOrder _ o).mpr ⟨rfl, ho⟩⟩

/-- An order and its lines are in the copy of the tables that holds the district. -/
theorem OrderBook.row_eq_none (h : OrderBook K s d w next first) {off : ℕ}
    (hoff : off ≠ K.offset w d) (o : ℤ) : s.row (.order off) (o, d, w) = none ∧
      s.row (.newOrder off) (o, d, w) = none ∧ ∀ i, s.row (.orderLine off) (o, d, w, i) = none := by
  have horder : s.row (.order off) (o, d, w) = none := by
    rw [← Option.not_isSome_iff_eq_none, h.order]
    exact fun he => hoff he.1
  refine ⟨horder, ?_, fun i => ?_⟩
  · rw [← Option.not_isSome_iff_eq_none, h.newOrder]
    exact fun he => hoff he.1
  · rw [← Option.not_isSome_iff_eq_none, h.line]
    simp [orderEntry, horder]

/-- What the second pass of a delivery adds up. -/
theorem OrderBook.orderAmount_eq (h : OrderBook K s d w next first) (o : ℤ) :
    orderAmount s o d w = (lineAmounts K s o d w).sum := by
  have hcopy : ∀ off, s.total (.orderLine off) (fun k (x : OrderLineRecord) =>
      if (k.1, k.2.1, k.2.2.1) = (o, d, w) then x.olAmount else 0) =
        if off = K.offset w d then (lineAmounts K s o d w).sum else 0 := by
    intro off
    have hshare : ∀ k : ℤ × ℤ × ℤ × ℤ, s.share (.orderLine off) (fun k (x : OrderLineRecord) =>
        if (k.1, k.2.1, k.2.2.1) = (o, d, w) then x.olAmount else 0) k =
          if (k.1, k.2.1, k.2.2.1) = (o, d, w) then
            ((s.row (.orderLine off) k).map OrderLineRecord.olAmount).getD 0 else 0 := by
      intro k
      rw [Store.share]
      cases s.row (.orderLine off) k <;> simp
    split
    · rename_i hoff
      subst hoff
      obtain ⟨hnodup, hmem⟩ := h.group (K.offset w d) o
      rw [Store.total_eq_list_sum (hnodup.map (f := fun i => (o, d, w, i))
        (fun _ _ he => by simpa using he)), List.map_map, lineAmounts]
      · congr 1
        refine List.map_congr_left (fun i _ => ?_)
        rw [Function.comp_apply, hshare, if_pos rfl]
      · rintro ⟨o', d', w', i⟩ hsome hnot
        rw [hshare, if_neg]
        intro hk
        cases hk
        exact hnot (List.mem_map.mpr ⟨i, (hmem i).mpr hsome, rfl⟩)
    · rename_i hoff
      refine Finset.sum_eq_zero (fun k _ => ?_)
      obtain ⟨o', d', w', i⟩ := k
      rw [hshare]
      split
      · rename_i hk
        cases hk
        rw [(h.row_eq_none hoff _).2.2 i]
        rfl
      · rfl
  simp only [orderAmount, hcopy]
  rw [Finset.sum_ite_eq', if_pos (Finset.mem_range.mpr (K.offset_lt w d))]

section Delivered
variable (h : DeliveryStage K param s (upTo DISTRICTS_PER_WAREHOUSE) (upTo DISTRICTS_PER_WAREHOUSE)
  (upTo DISTRICTS_PER_WAREHOUSE) (upTo DISTRICTS_PER_WAREHOUSE) s')
include h

theorem DeliveryStage.orderDelivered (hbook : OrderBook K s d param.wId next first)
    (hd : d ∈ upTo DISTRICTS_PER_WAREHOUSE) (hlt : first < next) :
    OrderDelivered param s s' d first where
  newOrder off o' := by
    have hnone := fun hoff : off ≠ _ => (hbook.row_eq_none hoff o').2.1
    rw [h.row]
    simp only [deliveryRow, hbook.nextOrder_eq, if_pos hlt]
    grind
  pointer := by
    obtain ⟨y, hy, -⟩ := hbook.pointer
    refine ⟨y, hy, ?_⟩
    rw [h.row]
    simp only [deliveryRow, hbook.nextOrder_eq, if_pos hlt, hy]
    rw [if_pos ⟨trivial, hd, rfl⟩]
    rfl
  order off o' := by
    have hnone := fun hoff : off ≠ _ => (hbook.row_eq_none hoff o').1
    rw [h.row]
    simp only [deliveryRow, hbook.nextOrder_eq, if_pos hlt]
    grind
  line off o' i := by
    have hnone := fun hoff : off ≠ _ => (hbook.row_eq_none hoff o').2.2 i
    rw [h.row]
    simp only [deliveryRow, hbook.nextOrder_eq, if_pos hlt]
    grind
  customer := by
    obtain ⟨r, hr⟩ := Option.isSome_iff_exists.mp
      ((hbook.order (K.offset param.wId d) first).mpr ⟨rfl, hbook.first_pos, hlt⟩)
    obtain ⟨x, hx⟩ := Option.isSome_iff_exists.mp
      (hbook.buyer (K.offset param.wId d) first (r.oCId, r.oOlCnt) (by simp [orderEntry, hr]))
    refine ⟨_, r, x, hr, hx, fun c => ?_⟩
    rw [h.row, hbook.orderAmount_eq]
    simp only [deliveryRow, if_pos (And.intro trivial hd), due, hbook.nextOrder_eq, if_pos hlt, hr,
      Option.map_some, Option.some.injEq]
    by_cases hc : c = r.oCId
    · subst hc
      rw [if_pos rfl, hx, if_pos rfl]
      rfl
    · rw [if_neg hc, if_neg (fun he => hc he.symm)]
      simp
  district := h.row _ _

private theorem DeliveryStage.district_unchanged (hbook : OrderBook K s d param.wId next first)
    (hle : ¬ first < next) {id : TableId} (k : Key id)
    (hk : districtOf id k = some (d, param.wId)) : s'.row id k = s.row id k := by
  have hnext : nextOrder K s param.wId d = none := by rw [hbook.nextOrder_eq, if_neg hle]
  rw [h.row]
  cases id with
  | districtNewOrder => simp only [deliveryRow, districtOf] at hk ⊢; grind
  | newOrder off => simp only [deliveryRow, districtOf] at hk ⊢; grind
  | order off => simp only [deliveryRow, districtOf] at hk ⊢; grind
  | orderLine off => simp only [deliveryRow, districtOf] at hk ⊢; grind
  | customer =>
    obtain ⟨c, d', w'⟩ := k
    cases hk
    simp [deliveryRow, due, hnext]
  | _ => rfl

private theorem DeliveryStage.others_unchanged {id : TableId} (k : Key id)
    (hk : ∀ d, 1 ≤ d ∧ d ≤ DISTRICTS_PER_WAREHOUSE → districtOf id k ≠ some (d, param.wId)) :
    s'.row id k = s.row id k := by
  have hk' : ∀ d w, districtOf id k = some (d, w) →
      ¬ (w = param.wId ∧ d ∈ upTo DISTRICTS_PER_WAREHOUSE) := by
    rintro d w he ⟨rfl, hd⟩
    exact hk d (mem_upTo.mp hd) he
  rw [h.row]
  cases id with
  | districtNewOrder => simp only [deliveryRow]; rw [if_neg (fun he => hk' _ _ rfl ⟨he.1, he.2.1⟩)]
  | newOrder off => simp only [deliveryRow]; rw [if_neg (fun he => hk' _ _ rfl ⟨he.1, he.2.1⟩)]
  | order off => simp only [deliveryRow]; rw [if_neg (fun he => hk' _ _ rfl ⟨he.1, he.2.1⟩)]
  | orderLine off => simp only [deliveryRow]; rw [if_neg (fun he => hk' _ _ rfl ⟨he.1, he.2.1⟩)]
  | customer => simp only [deliveryRow]; rw [if_neg (hk' _ _ rfl)]
  | _ => rfl

private theorem DeliveryStage.deliveryDone (hledger : Ledger K P s)
    (hw : (s.row .warehouse param.wId).isSome) : DeliveryDone param s s' where
  served d hd := by
    obtain ⟨hw₁, hw₂⟩ := (hledger.warehouse param.wId).mp hw
    obtain ⟨next, first, hbook⟩ := hledger.book d param.wId ⟨hd.1, hd.2, hw₁, hw₂⟩
    rw [hbook.waitingOrders_eq]
    by_cases hlt : first < next
    · refine .inl ⟨first, isLeast_Ico hlt, h.orderDelivered hbook (mem_upTo.mpr hd) hlt⟩
    · exact .inr ⟨Set.Ico_eq_empty hlt, fun _ k hk => h.district_unchanged hbook hlt k hk⟩
  others _ k hk := h.others_unchanged k hk
  groups := h.groups
  heap := h.heap

end Delivered

/-- A delivery in a state that a run reaches. -/
theorem delivery_end_to_end {clock : Clock} {t u : State} {txns : List Txn}
    (hpop : PopulatedState K P clock t) (hv : ValidRun K t txns)
    (hrun : run (step K) t txns = some u) (hw : (u.1.row .warehouse param.wId).isSome)
    (order : IterationOrder) :
    ∃ v, (processDelivery K order param).run u = some ((), v) ∧ v.2 = u.2 ∧
      DeliveryDone param u.1 v.1 := by
  have hledger := (hpop.ledger.reached (I := fun _ => True) trivial
    (fun _ _ _ _ _ _ _ => trivial) hv hrun).1
  have hspec : Program.Ensures True (processDelivery K order param) (u.1, u.2) _ :=
    processDelivery_spec order (hledger.deliverable hw)
  obtain ⟨_, v, hv, hrand, hstage⟩ := hspec.exists_run trivial
  exact ⟨v, hv, hrand, hstage.deliveryDone hledger hw⟩

theorem delivery_end_to_end_shortRun : ∃ t u v,
    PopulatedState .unpartitioned .small (fun _ => 0) t ∧
    run (step .unpartitioned) t shortRun = some u ∧
    (processDelivery .unpartitioned .listed ⟨2, 4, 9⟩).run u = some ((), v) ∧ v.2 = u.2 ∧
    DeliveryDone ⟨2, 4, 9⟩ u.1 v.1 := by
  obtain ⟨t, ht⟩ := exists_small
  have hv := ht.validRun_iff.mpr shortRun_inScale
  obtain ⟨u, hrun, hledger⟩ := ht.ledger.exists_run hv
  have hw : (u.1.row .warehouse (DeliveryParam.mk 2 4 9).wId).isSome :=
    (hledger.warehouse 2).mpr (by decide)
  obtain ⟨v, h⟩ := delivery_end_to_end ht hv hrun hw .listed
  exact ⟨t, u, v, ht, hrun, h⟩

end ImdbD.Benchmark.TPCC
