import ImdbD.TpccSerialRun

/-!
# The numbers of the orders along a run

In every state of a serial run the orders of a district are numbered without a
gap and the last of them wait for their delivery. The orders that a run delivers
in a district come in the order of their numbers.
-/
namespace ImdbD.Benchmark.TPCC
open AtomicProgram KeyedStore GuardedRun TpccSerialProcessor

/-- The rows of a district, with its two counters, agree on its orders. -/
def Booked (K : Constants) (s : Tables) (d w : ℤ) : Prop :=
  ∃ x y, s.row .district (d, w) = some x ∧ s.row .districtNewOrder (w, d) = some y ∧
    y.oId ≤ x.dNextOId ∧
    (∀ off o, (s.row (.order off) (o, d, w)).isSome ↔
      off = K.offset w d ∧ 1 ≤ o ∧ o ≤ x.dNextOId - 1) ∧
    (∀ off o, (s.row (.newOrder off) (o, d, w)).isSome ↔
      off = K.offset w d ∧ y.oId ≤ o ∧ o ≤ x.dNextOId - 1) ∧
    ∀ off o r, s.row (.order off) (o, d, w) = some r → ∀ i,
      (s.row (.orderLine off) (o, d, w, i)).isSome ↔ 1 ≤ i ∧ i ≤ r.oOlCnt

/-- The orders of a district that the first pass of a delivery takes from the queue. -/
def deliveredBy (K : Constants) (d w : ℤ) (s : Tables) : EventTuple → List ℤ
  | .delivery param =>
    if param.wId = w then
      match (deliverySubTxn1 K param).run s with
      | some (noOIds, _) => (noOIds.filter (fun e => e.1 = d)).map Prod.snd
      | none => []
    else []
  | _ => []

/-- The orders of a district that a run delivers. -/
def delivered (K : Constants) (d w : ℤ) : State → List Txn → List ℤ
  | _, [] => []
  | t, txn :: txns => deliveredBy K d w t.1 txn.1 ++
      (step K t txn).elim [] (fun t' => delivered K d w t' txns)

variable {K : Constants} {P : ScaleParams} {s s' : Tables} {t : State} {d w next first : ℤ}

private theorem OrderBook.booked (h : OrderBook K s d w next first) : Booked K s d w := by
  obtain ⟨x, hx, rfl⟩ := h.district
  obtain ⟨y, hy, rfl⟩ := h.pointer
  refine ⟨x, y, hx, hy, h.first_le, fun off o => ?_, fun off o => ?_, fun off o r hr i => ?_⟩
  · rw [h.order, Int.le_sub_one_iff]
  · rw [h.newOrder, Int.le_sub_one_iff]
  · rw [h.line]
    simp [orderEntry, hr]

private theorem filter_foundOrders (f : ℤ → Option ℤ) {ds : List ℤ} (hds : ds.Nodup) :
    (((ds.map (fun d => (f d).map (fun o => (d, o)))).reduceOption).filter
      (fun e => e.1 = d)).map Prod.snd = if d ∈ ds then (f d).toList else [] := by
  induction ds with
  | nil => rfl
  | cons a ds ih =>
    obtain ⟨ha, hds⟩ := List.nodup_cons.mp hds
    have hrest := ih hds
    by_cases hd : a = d
    · subst hd
      rw [if_neg ha] at hrest
      cases hf : f a with
      | none => simpa [hf] using hrest
      | some o => simpa [hf] using hrest
    · have hne : d ≠ a := fun h => hd h.symm
      cases hf : f a with
      | none => simpa [hf, hne] using hrest
      | some o => simpa [hf, hne, hd] using hrest

private theorem deliveredBy_delivery {param : DeliveryParam}
    (hs : ∀ d ∈ upTo DISTRICTS_PER_WAREHOUSE, Deliverable K s param.wId d) :
    deliveredBy K d w s (.delivery param) =
      if w = param.wId ∧ d ∈ upTo DISTRICTS_PER_WAREHOUSE then (nextOrder K s w d).toList else [] := by
  have hspec : Program.Ensures True (deliverySubTxn1 K param) s _ := DeliveryStage.deliverySubTxn1 hs
  obtain ⟨_, s', hrun, rfl, -⟩ := hspec.exists_run trivial
  rw [deliveredBy, hrun]
  by_cases hw : param.wId = w
  · subst hw
    simp only [foundOrders, if_true, true_and]
    exact filter_foundOrders _ (nodup_upTo _)
  · rw [if_neg hw, if_neg (fun h => hw h.1.symm)]

private theorem OrderBook.next_unique (h : OrderBook K s d w next first) {next' first' : ℤ}
    (h' : OrderBook K s d w next' first') : next = next' := by
  obtain ⟨x, hx, rfl⟩ := h.district
  obtain ⟨y, hy, rfl⟩ := h'.district
  rw [hx] at hy
  cases hy
  rfl

/-- Every transaction keeps the book; what it delivers is what the pointer passes. -/
theorem OrderBook.effect (h : OrderBook K s d w next first) (hledger : Ledger K P s)
    {e : EventTuple} (hv : e.Valid s) (he : Effect K s e s') :
    ∃ next' first', OrderBook K s' d w next' first' ∧ first ≤ first' ∧
      (deliveredBy K d w s e).Pairwise (· < ·) ∧
      ∀ o ∈ deliveredBy K d w s e, first ≤ o ∧ o < first' := by
  cases e with
  | delivery param =>
    have hd : ∀ d ∈ upTo DISTRICTS_PER_WAREHOUSE, Deliverable K s param.wId d :=
      hledger.deliverable hv
    refine ⟨_, _, h.delivery he, ?_, ?_⟩
    · split <;> omega
    · rw [deliveredBy_delivery hd, h.nextOrder_eq]
      split
      · rename_i hw
        split
        · rename_i hlt
          simp [hw, hlt]
        · simp
      · simp
  | newOrder param =>
    obtain ⟨next', first', hbook, hstage⟩ := he
    by_cases hk : (d, w) = (param.dId, param.wId)
    · cases hk
      obtain rfl := h.next_unique hbook
      exact ⟨_, _, h.newOrder_self hv hstage, by omega, .nil, nofun⟩
    · exact ⟨_, _, h.newOrder_other hstage hk, le_refl _, .nil, nofun⟩
  | payment param => exact ⟨_, _, h.payment he, le_refl _, .nil, nofun⟩
  | endExecution => exact hv.elim

theorem delivered_sorted {txns : List Txn} (hledger : Ledger K P t.1)
    (h : OrderBook K t.1 d w next first) (hv : ValidRun K t txns) :
    (delivered K d w t txns).Pairwise (· < ·) ∧ ∀ o ∈ delivered K d w t txns, first ≤ o := by
  induction txns generalizing t next first with
  | nil => exact ⟨.nil, nofun⟩
  | cons txn txns ih =>
    obtain ⟨t', hstep, heffect, hledger'⟩ := hledger.succeeds hv.1
    obtain ⟨next', first', h', hle, hsorted, hbounds⟩ := h.effect hledger hv.1 heffect
    obtain ⟨hrest, hge⟩ := ih hledger' h' (hv.2 t' hstep)
    rw [delivered, hstep, Option.elim_some]
    refine ⟨List.pairwise_append.mpr ⟨hsorted, hrest, fun a ha b hb => ?_⟩, fun o ho => ?_⟩
    · exact lt_of_lt_of_le (hbounds a ha).2 (hge b hb)
    · rcases List.mem_append.mp ho with ho | ho
      · exact (hbounds o ho).1
      · exact hle.trans (hge o ho)

/-- The bookkeeping of the orders, from the population on. -/
theorem orders_booked {clock : Clock} {txns : List Txn} (hpop : PopulatedState K P clock t)
    (hv : ValidRun K t txns) :
    Throughout K (fun s => ∀ d w, (s.row .district (d, w)).isSome → Booked K s d w) t txns ∧
    ∀ d w, (t.1.row .district (d, w)).isSome → (delivered K d w t txns).Pairwise (· < ·) := by
  have hledger := hpop.ledger
  refine ⟨hledger.throughout (I := fun _ => True) (A := fun _ => True) trivial
    (fun _ _ _ _ _ _ _ _ => trivial) ?_ (fun _ _ => trivial) hv, ?_⟩
  · intro s h _ d w hd
    obtain ⟨next, first, hbook⟩ := h.book d w ((h.district d w).mp hd)
    exact hbook.booked
  · intro d w hd
    obtain ⟨next, first, hbook⟩ := hledger.book d w ((hledger.district d w).mp hd)
    exact (delivered_sorted hledger hbook hv).1

theorem orders_booked_shortRun : ∃ t,
    PopulatedState .unpartitioned .small (fun _ => 0) t ∧ ValidRun .unpartitioned t shortRun ∧
    Throughout .unpartitioned (fun s => ∀ d w, (s.row .district (d, w)).isSome →
      Booked .unpartitioned s d w) t shortRun ∧
    ∀ d w, (t.1.row .district (d, w)).isSome →
      (delivered .unpartitioned d w t shortRun).Pairwise (· < ·) := by
  obtain ⟨t, ht⟩ := exists_small
  have hv := ht.validRun_iff.mpr shortRun_inScale
  exact ⟨t, ht, hv, orders_booked ht hv⟩

end ImdbD.Benchmark.TPCC
