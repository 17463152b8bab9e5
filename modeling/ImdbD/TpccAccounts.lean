import ImdbD.TpccSerialRun
import ImdbD.StoreTotals

/-!
# The accounts of customers, districts and warehouses

What a customer owes is told twice: in the columns of the customer, and by the
lines of the delivered orders and the rows of HISTORY. The two agree as long as
a payment charges the customer that it records.
-/
namespace ImdbD.Benchmark.TPCC
open AtomicProgram KeyedStore GuardedRun TpccSerialProcessor

/-- What a line adds to the deliveries of a customer: its amount, if the order was placed by the
customer and no longer waits for its delivery. -/
def deliveredLine (s : Tables) (c d w : ℤ) (off : ℕ) : Key (.orderLine off) → OrderLineRecord → ℚ
  | (o, d', w', _), r =>
    if (d', w') = (d, w) ∧ (s.row (.order off) (o, d, w)).map OrderRecord.oCId = some c ∧
      (s.row (.newOrder off) (o, d, w)).isNone then r.olAmount else 0

/-- The sum of the amounts of a customer's delivered lines. -/
def deliveredAmount (s : Tables) (c d w : ℤ) : ℚ :=
  ∑ off ∈ Finset.range MAX_PARTITION_CNT, s.total (.orderLine off) (deliveredLine s c d w off)

/-- The columns of a customer say what the lines and the rows of HISTORY say. -/
def Reconciled (s : Tables) (c d w : ℤ) (r : CustomerRecord) : Prop :=
  r.cBalance = deliveredAmount s c d w - (paymentsOf s (c, d, w)).sum ∧
  r.cYtdPayment = (paymentsOf s (c, d, w)).sum ∧
  r.cPaymentCnt = (paymentsOf s (c, d, w)).length

def AccountsReconcile (s : Tables) : Prop :=
  ∀ c d w r, s.row .customer (c, d, w) = some r → Reconciled s c d w r

variable {K : Constants} {P : ScaleParams} {s s' : Tables} {t : State} {c d w next first : ℤ}

theorem share_deliveredLine (s s₀ : Tables) (c d w : ℤ) (off : ℕ) (o d' w' i : ℤ) :
    s.share (.orderLine off) (deliveredLine s₀ c d w off) (o, d', w', i) =
      if (d', w') = (d, w) ∧ (s₀.row (.order off) (o, d, w)).map OrderRecord.oCId = some c ∧
        (s₀.row (.newOrder off) (o, d, w)).isNone then
        ((s.row (.orderLine off) (o, d', w', i)).map OrderLineRecord.olAmount).getD 0
      else 0 := by
  rw [Store.share]
  cases s.row (.orderLine off) (o, d', w', i) <;> simp [deliveredLine]

section Delivery
variable {param : DeliveryParam} {ds : List ℤ}

private theorem DeliveryStage.amount_eq (h : DeliveryStage K param s ds ds ds ds s') (off : ℕ)
    (k : ℤ × ℤ × ℤ × ℤ) : (s'.row (.orderLine off) k).map OrderLineRecord.olAmount =
      (s.row (.orderLine off) k).map OrderLineRecord.olAmount := by
  rw [h.row]
  simp only [deliveryRow]
  split
  · rw [Option.map_map]
    rfl
  · rfl

private theorem DeliveryStage.buyer_eq (h : DeliveryStage K param s ds ds ds ds s') (off : ℕ)
    (k : ℤ × ℤ × ℤ) : (s'.row (.order off) k).map OrderRecord.oCId =
      (s.row (.order off) k).map OrderRecord.oCId := by
  rw [h.row]
  simp only [deliveryRow]
  split
  · rw [Option.map_map]
    rfl
  · rfl

private theorem OrderBook.sum_lines (h : OrderBook K s d w next first) (hlt : first < next) :
    ∑ k ∈ ((s.groups (.orderLine (K.offset w d)) (first, d, w)).map
        (fun i => (first, d, w, i))).toFinset,
      (if (s.row (.order (K.offset w d)) (first, d, w)).map OrderRecord.oCId = some c then
        ((s.row (.orderLine (K.offset w d)) k).map OrderLineRecord.olAmount).getD 0 else 0) =
      due K s c d w := by
  have hnodup := (h.group (K.offset w d) first).1
  rw [List.sum_toFinset _ (hnodup.map (fun _ _ he => by simpa using he)), List.map_map, due,
    h.nextOrder_eq, if_pos hlt]
  by_cases hbuyer : (s.row (.order (K.offset w d)) (first, d, w)).map OrderRecord.oCId = some c
  · simp only [hbuyer, if_true, lineAmounts]
    rfl
  · simp [hbuyer, Function.comp_def]

/-- What a delivery adds to one copy of the table of lines. -/
theorem DeliveryStage.total_deliveredLine (h : DeliveryStage K param s ds ds ds ds s')
    (hbook : OrderBook K s d w next first) (off : ℕ) :
    s'.total (.orderLine off) (deliveredLine s' c d w off) =
      s.total (.orderLine off) (deliveredLine s c d w off) +
        if off = K.offset w d then (if w = param.wId ∧ d ∈ ds then due K s c d w else 0) else 0 := by
  -- the only order whose lines begin to count is the one that was taken from the queue
  by_cases hhit : off = K.offset w d ∧ (w = param.wId ∧ d ∈ ds) ∧ first < next
  · obtain ⟨rfl, hd, hlt⟩ := hhit
    rw [if_pos rfl, if_pos hd, ← hbook.sum_lines hlt]
    refine Store.total_eq_add _ _ (fun k => ?_)
    obtain ⟨o, d', w', i⟩ := k
    rw [share_deliveredLine, share_deliveredLine, h.amount_eq, h.buyer_eq, h.row]
    simp only [deliveryRow, hbook.nextOrder_eq, if_pos hlt]
    by_cases hk : (o, d', w') = (first, d, w)
    · cases hk
      have hwaits := (hbook.newOrder (K.offset w d) first).mpr ⟨rfl, le_refl _, hlt⟩
      obtain ⟨n, hn⟩ := Option.isSome_iff_exists.mp hwaits
      rw [if_pos (show w = param.wId ∧ d ∈ ds ∧ some first = some first ∧ True from
        ⟨hd.1, hd.2, rfl, trivial⟩)]
      by_cases hi : i ∈ s.groups (.orderLine (K.offset w d)) (first, d, w)
      · simp [hn, hi]
      · have hnone : s.row (.orderLine (K.offset w d)) (first, d, w, i) = none := by
          rw [← Option.not_isSome_iff_eq_none, ← (hbook.group _ _).2]
          exact hi
        simp [hnone]
    · have hT : (o, d', w', i) ∉ ((s.groups (.orderLine (K.offset w d)) (first, d, w)).map
          (fun i => (first, d, w, i))).toFinset := by
        simp only [List.mem_toFinset, List.mem_map, not_exists, not_and]
        rintro j - he
        cases he
        exact hk rfl
      rw [if_neg hT, add_zero]
      by_cases hd' : (d', w') = (d, w)
      · have ho : ¬ first = o := fun ho => hk (by rw [ho, hd'])
        simp [ho]
      · simp [hd']
  · have hsum : (if off = K.offset w d then
        (if w = param.wId ∧ d ∈ ds then due K s c d w else 0) else 0) = 0 := by
      by_cases hlt : first < next
      · grind
      · simp [due, hbook.nextOrder_eq, hlt]
    rw [hsum, add_zero]
    refine Store.total_congr (fun k => ?_)
    obtain ⟨o, d', w', i⟩ := k
    rw [share_deliveredLine, share_deliveredLine, h.amount_eq, h.buyer_eq, h.row]
    have hsame : ¬ (w = param.wId ∧ d ∈ ds ∧ nextOrder K s w d = some o ∧ off = K.offset w d) := by
      rw [hbook.nextOrder_eq]
      grind
    simp only [deliveryRow, if_neg hsame]

theorem DeliveryStage.deliveredAmount_eq (h : DeliveryStage K param s ds ds ds ds s')
    (hbook : OrderBook K s d w next first) :
    deliveredAmount s' c d w =
      deliveredAmount s c d w + if w = param.wId ∧ d ∈ ds then due K s c d w else 0 := by
  simp only [deliveredAmount, h.total_deliveredLine hbook, Finset.sum_add_distrib]
  rw [Finset.sum_ite_eq', if_pos (Finset.mem_range.mpr (K.offset_lt w d))]

theorem DeliveryStage.reconciled (h : DeliveryStage K param s ds ds ds ds s')
    (hledger : Ledger K P s) (hs : AccountsReconcile s) : AccountsReconcile s' := by
  intro c d w r' hr'
  rw [h.row] at hr'
  have hpayments : paymentsOf s' (c, d, w) = paymentsOf s (c, d, w) := by
    simp only [paymentsOf, h.heap]
  obtain ⟨r, hr⟩ : ∃ r, s.row .customer (c, d, w) = some r := by
    rw [← Option.isSome_iff_exists, ← h.isSome_row (by simp), h.row, hr']
    rfl
  obtain ⟨next, first, hbook⟩ := hledger.book d w ((hledger.customer c d w).mp (by simp [hr])).1
  obtain ⟨hbalance, hytd, hcnt⟩ := hs c d w r hr
  rw [Reconciled, hpayments, h.deliveredAmount_eq hbook]
  simp only [deliveryRow, hr] at hr'
  split at hr' <;> rename_i hd
  · cases hr'
    rw [if_pos hd]
    refine ⟨?_, hytd, hcnt⟩
    change r.cBalance + _ = _
    rw [hbalance]
    ring
  · cases hr'
    rw [if_neg hd, add_zero]
    exact ⟨hbalance, hytd, hcnt⟩

end Delivery

section NewOrder
variable {param : NewOrderParam}

/-- The lines of a new order wait for their delivery. -/
theorem NewOrderStage.deliveredAmount_eq
    (h : NewOrderStage K param s next param.iIds.length param.iIds.length s')
    (hs : Orderable K param s next) : deliveredAmount s' c d w = deliveredAmount s c d w := by
  refine Finset.sum_congr rfl (fun off _ => Store.total_congr (fun k => ?_))
  obtain ⟨o, d', w', i⟩ := k
  rw [share_deliveredLine, share_deliveredLine]
  by_cases hk : off = K.offset param.wId param.dId ∧ (o, d', w') = (next, param.dId, param.wId)
  · obtain ⟨rfl, hk⟩ := hk
    cases hk
    rw [hs.noLine, h.row (.newOrder _)]
    by_cases hd : (param.dId, param.wId) = (d, w)
    · cases hd
      simp [newOrderRow]
    · simp [hd]
  · have hline : s'.row (.orderLine off) (o, d', w', i) = s.row (.orderLine off) (o, d', w', i) := by
      rw [h.row]
      simp only [newOrderRow]
      rw [if_neg (fun he => hk ⟨he.1, he.2.1⟩)]
    rw [hline]
    by_cases hd : (d', w') = (d, w)
    · cases hd
      rw [h.row (.order _), h.row (.newOrder _)]
      simp only [newOrderRow, if_neg hk]
    · simp [hd]

theorem NewOrderStage.reconciled
    (h : NewOrderStage K param s next param.iIds.length param.iIds.length s')
    (hs : Orderable K param s next) (hrec : AccountsReconcile s) : AccountsReconcile s' := by
  intro c d w r hr
  have hpayments : paymentsOf s' (c, d, w) = paymentsOf s (c, d, w) := by
    simp only [paymentsOf, h.heap]
  rw [Reconciled, hpayments, h.deliveredAmount_eq hs]
  exact hrec c d w r ((h.row _ _).symm.trans hr)

end NewOrder

section Payment
variable {param : PaymentParam}

/-- The payment is recorded for a customer of the paying district. -/
def PaymentParam.Local (param : PaymentParam) : Prop :=
  (param.cDId, param.cWId) = (param.dId, param.wId)

private theorem Paid.paymentsOf_eq (h : Paid param s s') (c d w : ℤ) :
    paymentsOf s' (c, d, w) = paymentsOf s (c, d, w) ++
      if (c, d, w) = (param.cId, param.cDId, param.cWId) then [param.hAmount] else [] := by
  obtain ⟨hData, hheap⟩ := h.history
  have happend := paymentsOf_append s (historyRecord param hData) c d w
  have hsame : paymentsOf s' (c, d, w) =
      paymentsOf (s.append .history (historyRecord param hData)) (c, d, w) := by
    rw [paymentsOf, paymentsOf, hheap, Store.heap_append_self]
  rw [hsame, happend]
  congr 1
  simp only [historyRecord, Prod.mk.injEq, eq_comm]

theorem Paid.deliveredAmount_eq (h : Paid param s s') :
    deliveredAmount s' c d w = deliveredAmount s c d w := by
  refine Finset.sum_congr rfl (fun off _ => Store.total_congr (fun k => ?_))
  obtain ⟨o, d', w', i⟩ := k
  rw [share_deliveredLine, share_deliveredLine, h.row, h.row, h.row]
  rfl

theorem Paid.reconciled (h : Paid param s s') (hlocal : param.Local)
    (hs : AccountsReconcile s) : AccountsReconcile s' := by
  intro c d w r' hr'
  obtain ⟨r, hr⟩ : ∃ r, s.row .customer (c, d, w) = some r := by
    rw [← Option.isSome_iff_exists, ← h.isSome_row, hr']
    rfl
  obtain ⟨hbalance, hytd, hcnt⟩ := hs c d w r hr
  obtain ⟨hd, hw⟩ := Prod.mk.inj hlocal
  rw [h.row] at hr'
  simp only [paymentRow, hr] at hr'
  rw [Reconciled, h.paymentsOf_eq, h.deliveredAmount_eq, hd, hw]
  split at hr' <;> rename_i hk
  · cases hr'
    rw [if_pos hk, List.sum_append, List.length_append]
    refine ⟨?_, ?_, ?_⟩
    · change r.cBalance - _ = _
      rw [hbalance]
      simp
      ring
    · change r.cYtdPayment + _ = _
      rw [hytd]
      simp
    · change r.cPaymentCnt + 1 = _
      rw [hcnt]
      simp
  · cases hr'
    rw [if_neg hk, List.append_nil]
    exact ⟨hbalance, hytd, hcnt⟩

/-- A payment that charges another customer than it records breaks the accounts. -/
theorem Paid.local_of_reconciled (h : Paid param s s') (hs : AccountsReconcile s)
    (hc : (s.row .customer (param.cId, param.dId, param.wId)).isSome)
    (hs' : AccountsReconcile s') : param.Local := by
  obtain ⟨r, hr⟩ := Option.isSome_iff_exists.mp hc
  obtain ⟨-, -, hcnt⟩ := hs _ _ _ r hr
  by_contra hne
  have hr' := h.row .customer (param.cId, param.dId, param.wId)
  simp only [paymentRow, if_true, hr] at hr'
  obtain ⟨-, -, hcnt'⟩ := hs' _ _ _ _ hr'
  rw [h.paymentsOf_eq, if_neg (fun he => hne (by
    simp only [Prod.mk.injEq] at he
    exact Prod.ext he.2.1.symm he.2.2.symm)), List.append_nil, ← hcnt] at hcnt'
  simp at hcnt'

end Payment
/-- At first nothing is delivered that costs, and every customer has paid 10. -/
theorem PopulationStage.reconciled {C : ℤ → Prop}
    (h : PopulationStage P C (populationKeys K P) (lineCnt s) s) : AccountsReconcile s := by
  intro c d w r hr
  have hamount : deliveredAmount s c d w = 0 := by
    refine Finset.sum_eq_zero (fun off _ => Finset.sum_eq_zero (fun k _ => ?_))
    obtain ⟨o, d', w', i⟩ := k
    rw [share_deliveredLine]
    split
    · rename_i hk
      obtain ⟨hd, hbuyer, hwaits⟩ := hk
      cases hd
      cases hline : s.row (.orderLine off) (o, d, w, i) with
      | none => rfl
      | some x =>
        have horder := (h.isSome_order off o d w).mp (by
          obtain ⟨y, hy, -⟩ := Option.map_eq_some_iff.mp hbuyer
          rw [hy]
          rfl)
        have hdelivered : o < P.initialNewOrderId := by
          by_contra hle
          have hwaits' := (h.isSome_newOrder off o d w).mpr
            ⟨horder.1, horder.2.1, by omega, horder.2.2.2⟩
          rw [← Option.not_isSome, hwaits'] at hwaits
          cases hwaits
        exact ((h.good _ _ _ hline).2 hdelivered).2
    · rfl
  have hkey : ⟨.customer, (c, d, w)⟩ ∈ populationKeys K P :=
    (h.exact_ .customer (c, d, w) (by simp)).mp (by rw [hr]; rfl)
  obtain ⟨hbalance, hytd, hcnt⟩ := h.good _ _ _ hr
  rw [Reconciled, hamount, h.paid _ hkey, hbalance, hytd, hcnt]
  norm_num

/-- A payment is for a customer of the paying district. -/
def EventTuple.PaysLocally : EventTuple → Prop
  | .payment param => param.Local
  | _ => True

private theorem Ledger.accountsReconcile_iff {txns : List Txn} (h : Ledger K P t.1)
    (hs : AccountsReconcile t.1) (hv : ValidRun K t txns) :
    Throughout K AccountsReconcile t txns ↔ ∀ txn ∈ txns, txn.1.PaysLocally := by
  refine h.throughout_iff (A := fun _ => True) hs ?_ ?_ (fun _ _ hs => hs) (fun _ _ => trivial) hv
  · intro s e s' h hs hv _ hlocal heffect
    cases e with
    | delivery param => exact DeliveryStage.reconciled heffect h hs
    | newOrder param =>
      obtain ⟨next, first, hbook, hstage⟩ := heffect
      exact hstage.reconciled (hbook.orderable hv) hs
    | payment param => exact Paid.reconciled heffect hlocal hs
    | endExecution => exact hv.elim
  · intro s e s' h hs hv _ heffect hs'
    cases e with
    | payment param => exact Paid.local_of_reconciled heffect hs (h.charged hv) hs'
    | _ => trivial

/-- The accounts reconcile in every state of exactly the runs without a remote payment. -/
theorem accounts_reconcile_iff {clock : Clock} {txns : List Txn} (hpop : PopulatedState K P clock t)
    (hv : ValidRun K t txns) :
    Throughout K AccountsReconcile t txns ↔ ∀ txn ∈ txns, txn.1.PaysLocally :=
  hpop.ledger.accountsReconcile_iff (hpop.stage (C := fun _ => True) (fun _ => trivial)).reconciled hv

theorem accounts_reconcile_small : ∃ t, PopulatedState .unpartitioned .small (fun _ => 0) t ∧
    (Throughout .unpartitioned AccountsReconcile t shortRun ↔
      ∀ txn ∈ shortRun, txn.1.PaysLocally) := by
  obtain ⟨t, ht⟩ := exists_small
  exact ⟨t, ht, accounts_reconcile_iff ht (ht.validRun_iff.mpr shortRun_inScale)⟩

/-- The first district of warehouse 1 takes the payment of a customer of warehouse 2. -/
theorem remotePayment_not_reconciled : ∃ t, PopulatedState .unpartitioned .small (fun _ => 0) t ∧
    ValidRun .unpartitioned t [(.payment ⟨1, 1, 10, 2, 1, 1, 8⟩, .listed)] ∧
    ¬ Throughout .unpartitioned AccountsReconcile t
      [(.payment ⟨1, 1, 10, 2, 1, 1, 8⟩, .listed)] := by
  obtain ⟨t, ht⟩ := exists_small
  have hv : ValidRun .unpartitioned t [(.payment ⟨1, 1, 10, 2, 1, 1, 8⟩, .listed)] :=
    ht.validRun_iff.mpr (by decide)
  have hs := (ht.stage (C := fun _ => True) (fun _ => trivial)).reconciled
  refine ⟨t, ht, hv, fun hall => ?_⟩
  have hlocal := (ht.ledger.accountsReconcile_iff hs hv).mp hall _ List.mem_cons_self
  exact absurd hlocal (by simp [EventTuple.PaysLocally, PaymentParam.Local])

/-- The amounts that HISTORY has for a district. -/
def districtPayments (s : Tables) (d w : ℤ) : List ℚ :=
  ((s.heap .history).filter (fun r => r.hDId = d ∧ r.hWId = w)).map HistoryRecord.hAmount

/-- What the districts of a warehouse have taken. -/
def districtsYtd (s : Tables) (w : ℤ) : ℚ :=
  s.total .district (fun k r => if k.2 = w then r.dYtd else 0)

/-- Since `s₀` the totals agree with each other and with HISTORY. -/
structure YtdReconcile (s₀ s : Tables) : Prop where
  warehouse : ∀ w r, s.row .warehouse w = some r → r.wYtd = districtsYtd s w
  district : ∀ d w r₀, s₀.row .district (d, w) = some r₀ → ∃ r, s.row .district (d, w) = some r ∧
    r.dYtd - (districtPayments s d w).sum = r₀.dYtd - (districtPayments s₀ d w).sum

variable {s₀ : Tables}

theorem share_ytd (s : Tables) (w : ℤ) (k : ℤ × ℤ) :
    s.share .district (fun k (r : DistrictRecord) => if k.2 = w then r.dYtd else 0) k =
      if k.2 = w then ((s.row .district k).map DistrictRecord.dYtd).getD 0 else 0 := by
  rw [Store.share]
  cases s.row .district k <;> simp

/-- A transaction that takes no money. -/
theorem YtdReconcile.of_eq (h : YtdReconcile s₀ s)
    (hwarehouse : ∀ k, s'.row .warehouse k = s.row .warehouse k)
    (hdistrict : ∀ k, (s'.row .district k).map DistrictRecord.dYtd =
      (s.row .district k).map DistrictRecord.dYtd)
    (hheap : s'.heap = s.heap) : YtdReconcile s₀ s' where
  warehouse w r hr := by
    rw [hwarehouse] at hr
    rw [h.warehouse w r hr]
    refine (Store.total_congr (fun k => ?_)).symm
    rw [share_ytd, share_ytd, hdistrict]
  district d w r₀ hr₀ := by
    obtain ⟨r, hr, hsum⟩ := h.district d w r₀ hr₀
    have hytd := hdistrict (d, w)
    rw [hr] at hytd
    obtain ⟨r', hr', hsame⟩ := Option.map_eq_some_iff.mp hytd
    refine ⟨r', hr', ?_⟩
    rw [hsame, ← hsum, districtPayments, hheap, districtPayments]

private theorem Paid.districtPayments_eq {param : PaymentParam} (h : Paid param s s') (d w : ℤ) :
    districtPayments s' d w = districtPayments s d w ++
      if (d, w) = (param.dId, param.wId) then [param.hAmount] else [] := by
  obtain ⟨hData, hheap⟩ := h.history
  rw [districtPayments, hheap, List.filter_append, List.map_append, districtPayments]
  congr 1
  by_cases hk : (d, w) = (param.dId, param.wId)
  · cases hk
    simp [historyRecord]
  · rw [if_neg hk]
    have hne : ¬ (param.dId = d ∧ param.wId = w) := fun he => hk (by rw [he.1, he.2])
    simp [historyRecord, hne]

private theorem Paid.districtsYtd_eq {param : PaymentParam} (h : Paid param s s')
    (hd : (s.row .district (param.dId, param.wId)).isSome) (w : ℤ) :
    districtsYtd s' w = districtsYtd s w + if w = param.wId then param.hAmount else 0 := by
  obtain ⟨r, hr⟩ := Option.isSome_iff_exists.mp hd
  have hsum : districtsYtd s' w = districtsYtd s w +
      ∑ k ∈ {(param.dId, param.wId)}, if w = param.wId then param.hAmount else 0 := by
    refine Store.total_eq_add _ _ (fun k => ?_)
    rw [share_ytd, share_ytd, h.row]
    by_cases hk : k = (param.dId, param.wId)
    · subst hk
      by_cases hw : w = param.wId
      · subst hw
        simp [paymentRow, hr]
      · simp [hw, Ne.symm hw]
    · simp [paymentRow, hk]
  rw [hsum, Finset.sum_singleton]

theorem Paid.ytdReconcile {param : PaymentParam} (h : Paid param s s')
    (hd : (s.row .district (param.dId, param.wId)).isSome) (hs : YtdReconcile s₀ s) :
    YtdReconcile s₀ s' where
  warehouse w r' hr' := by
    obtain ⟨r, hr⟩ : ∃ r, s.row .warehouse w = some r := by
      rw [← Option.isSome_iff_exists, ← h.isSome_row, hr']
      rfl
    rw [h.row] at hr'
    simp only [paymentRow, hr] at hr'
    rw [h.districtsYtd_eq hd, ← hs.warehouse w r hr]
    split at hr' <;> rename_i hk
    · cases hr'
      rw [if_pos hk]
    · cases hr'
      rw [if_neg hk, add_zero]
  district d w r₀ hr₀ := by
    obtain ⟨r, hr, hsum⟩ := hs.district d w r₀ hr₀
    rw [h.row, h.districtPayments_eq]
    simp only [paymentRow, hr]
    split
    · refine ⟨_, rfl, ?_⟩
      rw [← hsum]
      simp
    · refine ⟨r, rfl, ?_⟩
      rw [List.append_nil, hsum]

/-- At first every district has taken the tenth part of its warehouse. -/
theorem PopulationStage.ytdReconcile {C : ℤ → Prop}
    (h : PopulationStage P C (populationKeys K P) (lineCnt s) s) : YtdReconcile s s where
  warehouse w r hr := by
    have hw := (h.ledger.warehouse w).mp (by rw [hr]; rfl)
    have hnodup : ((upTo DISTRICTS_PER_WAREHOUSE).map (fun d => (d, w))).Nodup :=
      (nodup_upTo _).map (fun _ _ he => by simpa using he)
    have hempty : districtsYtd Store.empty w = 0 := rfl
    have hsum : districtsYtd s w = districtsYtd Store.empty w +
        ∑ k ∈ ((upTo DISTRICTS_PER_WAREHOUSE).map (fun d => (d, w))).toFinset, (30000 : ℚ) := by
      refine Store.total_eq_add _ _ (fun k => ?_)
      obtain ⟨d, w'⟩ := k
      have hd := h.isSome_district d w'
      have hnone : (Store.empty : Tables).row .district (d, w') = none := rfl
      rw [share_ytd, share_ytd, hnone]
      by_cases hk : w' = w
      · subst hk
        cases hx : s.row .district (d, w') with
        | none =>
          have hno : ¬ P.HasDistrict d w' := fun hd' => by simpa [hx] using hd.mpr hd'
          have hd' : ¬ (1 ≤ d ∧ d ≤ DISTRICTS_PER_WAREHOUSE) := fun he => hno ⟨he.1, he.2, hw⟩
          simpa using hd'
        | some x =>
          obtain ⟨hd₁, hd₂, -⟩ := hd.mp (by rw [hx]; rfl)
          simp [hd₁, hd₂, (h.good _ _ _ hx).1]
      · simp [hk, Ne.symm hk]
    rw [h.good _ _ _ hr, hsum, hempty, List.sum_toFinset _ hnodup]
    simp only [List.map_map, Function.comp_def, List.map_const', List.sum_replicate, length_upTo]
    norm_num [show DISTRICTS_PER_WAREHOUSE.toNat = 10 from rfl]
  district d w r₀ hr₀ := ⟨r₀, hr₀, rfl⟩

/-- The totals reconcile in every state of a run. -/
theorem ytd_reconcile {clock : Clock} {txns : List Txn} (hpop : PopulatedState K P clock t)
    (hv : ValidRun K t txns) : Throughout K (YtdReconcile t.1) t txns := by
  have hs := (hpop.stage (C := fun _ => True) (fun _ => trivial)).ytdReconcile
  refine hpop.ledger.throughout (A := fun _ => True) hs ?_ (fun _ _ hs => hs) (fun _ _ => trivial) hv
  intro s e s' h hs hv _ heffect
  cases e with
  | delivery param =>
    exact hs.of_eq (fun k => heffect.row _ k) (fun k => congrArg _ (heffect.row _ k)) heffect.heap
  | newOrder param =>
    obtain ⟨next, first, hbook, hstage⟩ := heffect
    refine hs.of_eq (fun k => hstage.row _ k) (fun k => ?_) hstage.heap
    rw [hstage.row]
    simp only [newOrderRow]
    split
    · rw [Option.map_map]
      rfl
    · rfl
  | payment param => exact Paid.ytdReconcile heffect hv.district hs
  | endExecution => exact hv.elim

theorem ytd_reconcile_shortRun : ∃ t, PopulatedState .unpartitioned .small (fun _ => 0) t ∧
    Throughout .unpartitioned (YtdReconcile t.1) t shortRun := by
  obtain ⟨t, ht⟩ := exists_small
  exact ⟨t, ht, ytd_reconcile ht (ht.validRun_iff.mpr shortRun_inScale)⟩

end ImdbD.Benchmark.TPCC
