import ImdbD.TpccSerialRun

/-!
# The marks of a delivery

Whether an order waits for its delivery is written three times: as a row of
NEW_ORDER, as the carrier of the order and as the date of its lines. A new order
writes its own date into the column of the delivery date, so the three agree
only as long as that date is the mark of an undelivered line.
-/
namespace ImdbD.Benchmark.TPCC
open AtomicProgram KeyedStore GuardedRun TpccSerialProcessor

/-- The delivery date that the populator gives to a line that is not delivered. -/
def UNDELIVERED_DATE : ℤ := -1

/-- The three marks of an order agree, and a delivered order has a carrier and dates. -/
structure MarksAgree (s : Tables) (off : ℕ) (o d w : ℤ) (r : OrderRecord) : Prop where
  carrier : (s.row (.newOrder off) (o, d, w)).isSome ↔ r.oCarrierId = NULL_CARRIER_ID
  lines : (s.row (.newOrder off) (o, d, w)).isSome ↔
    ∀ i x, s.row (.orderLine off) (o, d, w, i) = some x → x.olDeliveryD = UNDELIVERED_DATE
  delivered : s.row (.newOrder off) (o, d, w) = none → (1 ≤ r.oCarrierId ∧ r.oCarrierId ≤ 10) ∧
    ∀ i x, s.row (.orderLine off) (o, d, w, i) = some x → 0 ≤ x.olDeliveryD

def AllMarksAgree (s : Tables) : Prop :=
  ∀ off o d w r, s.row (.order off) (o, d, w) = some r → MarksAgree s off o d w r

/-- A delivery has a carrier and a date. -/
def EventTuple.Dated : EventTuple → Prop
  | .delivery param => (1 ≤ param.oCarrierId ∧ param.oCarrierId ≤ 10) ∧ 0 ≤ param.olDeliveryD
  | _ => True

/-- The date of a new order is the mark of an undelivered line. -/
def EventTuple.EntersUndelivered : EventTuple → Prop
  | .newOrder param => param.oEntryD = UNDELIVERED_DATE
  | _ => True

variable {K : Constants} {P : ScaleParams} {s s' : Tables} {t : State} {next first : ℤ}

theorem DeliveryStage.marksAgree {param : DeliveryParam}
    (h : DeliveryStage K param s (upTo DISTRICTS_PER_WAREHOUSE) (upTo DISTRICTS_PER_WAREHOUSE)
      (upTo DISTRICTS_PER_WAREHOUSE) (upTo DISTRICTS_PER_WAREHOUSE) s')
    (hledger : Ledger K P s) (hv : (EventTuple.delivery param).Valid s)
    (hdated : (EventTuple.delivery param).Dated) (hs : AllMarksAgree s) : AllMarksAgree s' := by
  intro off o d w r' hr'
  rw [h.row] at hr'
  by_cases hhit : w = param.wId ∧ d ∈ upTo DISTRICTS_PER_WAREHOUSE ∧
      nextOrder K s w d = some o ∧ off = K.offset w d
  · -- the order is delivered
    obtain ⟨r, hr, rfl⟩ : ∃ r, s.row (.order off) (o, d, w) = some r ∧
        { r with oCarrierId := param.oCarrierId } = r' := by
      simpa only [deliveryRow, if_pos hhit, Option.map_eq_some_iff] using hr'
    have hgone : s'.row (.newOrder off) (o, d, w) = none := by
      rw [h.row]
      simp only [deliveryRow, if_pos hhit]
    have hline : ∀ i, s'.row (.orderLine off) (o, d, w, i) =
        (s.row (.orderLine off) (o, d, w, i)).map (fun x =>
          { x with olDeliveryD := param.olDeliveryD }) := by
      intro i
      rw [h.row]
      simp only [deliveryRow, if_pos hhit]
    have hdate : ∀ i x, s'.row (.orderLine off) (o, d, w, i) = some x → 0 ≤ x.olDeliveryD := by
      intro i x hx
      rw [hline] at hx
      obtain ⟨y, -, rfl⟩ := Option.map_eq_some_iff.mp hx
      exact hdated.2
    have hfirst : (s'.row (.orderLine off) (o, d, w, 1)).isSome := by
      obtain ⟨hd₁, hd₂⟩ := mem_upTo.mp hhit.2.1
      obtain ⟨hw₁, hw₂⟩ := (hledger.warehouse w).mp (hhit.1 ▸ hv)
      obtain ⟨next, first, hbook⟩ := hledger.book d w ⟨hd₁, hd₂, hw₁, hw₂⟩
      have hentry : orderEntry s off (o, d, w) = some (r.oCId, r.oOlCnt) := by simp [orderEntry, hr]
      rw [hline, Option.isSome_map]
      exact (hbook.line off o 1).mpr ⟨_, hentry, le_refl 1, hbook.count_pos _ _ _ hentry⟩
    obtain ⟨x, hx⟩ := Option.isSome_iff_exists.mp hfirst
    have hcarrier : param.oCarrierId ≠ NULL_CARRIER_ID := by
      have := hdated.1.1
      unfold NULL_CARRIER_ID
      omega
    constructor
    · simpa [hgone] using hcarrier
    · rw [hgone]
      refine ⟨fun hno => by simp at hno, fun hall => ?_⟩
      have hpos := hdate 1 x hx
      rw [hall 1 x hx] at hpos
      exact absurd hpos (by decide)
    · exact fun _ => ⟨hdated.1, hdate⟩
  · have hnew : s'.row (.newOrder off) (o, d, w) = s.row (.newOrder off) (o, d, w) := by
      rw [h.row]
      simp only [deliveryRow, if_neg hhit]
    have hline : ∀ i, s'.row (.orderLine off) (o, d, w, i) = s.row (.orderLine off) (o, d, w, i) := by
      intro i
      rw [h.row]
      simp only [deliveryRow, if_neg hhit]
    simp only [deliveryRow, if_neg hhit] at hr'
    have hold := hs off o d w r' hr'
    constructor
    · rw [hnew]
      exact hold.carrier
    · simp only [hnew, hline]
      exact hold.lines
    · simp only [hnew, hline]
      exact hold.delivered

section NewOrder
variable {param : NewOrderParam}

private theorem NewOrderStage.line_of_new
    (h : NewOrderStage K param s next param.iIds.length param.iIds.length s')
    (hs : Orderable K param s next) {i : ℤ} {x : OrderLineRecord}
    (hx : s'.row (.orderLine (K.offset param.wId param.dId)) (next, param.dId, param.wId, i) = some x) :
    x.olDeliveryD = param.oEntryD := by
  rw [h.row] at hx
  simp only [newOrderRow, hs.noLine] at hx
  split at hx
  · obtain ⟨it, -, rfl⟩ := Option.map_eq_some_iff.mp hx
    rfl
  · cases hx

theorem NewOrderStage.newOrder_self
    (h : NewOrderStage K param s next param.iIds.length param.iIds.length s') :
    (s'.row (.newOrder (K.offset param.wId param.dId)) (next, param.dId, param.wId)).isSome := by
  rw [h.row]
  simp [newOrderRow]

theorem NewOrderStage.marksAgree
    (h : NewOrderStage K param s next param.iIds.length param.iIds.length s')
    (hs : Orderable K param s next) (hdate : param.oEntryD = UNDELIVERED_DATE)
    (hmarks : AllMarksAgree s) : AllMarksAgree s' := by
  intro off o d w r hr
  by_cases hk : off = K.offset param.wId param.dId ∧ (o, d, w) = (next, param.dId, param.wId)
  · obtain ⟨rfl, hk⟩ := hk
    cases hk
    have hwaits := h.newOrder_self
    have hr' : orderRecord param next = r := by
      have hrow := h.row (.order (K.offset param.wId param.dId)) (next, param.dId, param.wId)
      rw [hr] at hrow
      simpa [newOrderRow, eq_comm] using hrow
    subst hr'
    constructor
    · exact ⟨fun _ => rfl, fun _ => hwaits⟩
    · exact ⟨fun _ i x hx => (h.line_of_new hs hx).trans hdate, fun _ => hwaits⟩
    · intro hnone
      rw [hnone] at hwaits
      cases hwaits
  · have hline : ∀ i, s'.row (.orderLine off) (o, d, w, i) = s.row (.orderLine off) (o, d, w, i) := by
      intro i
      rw [h.row]
      simp only [newOrderRow]
      rw [if_neg (fun he => hk ⟨he.1, he.2.1⟩)]
    have hnew : s'.row (.newOrder off) (o, d, w) = s.row (.newOrder off) (o, d, w) := by
      rw [h.row]
      simp only [newOrderRow, if_neg hk]
    rw [h.row] at hr
    simp only [newOrderRow, if_neg hk] at hr
    have hold := hmarks off o d w r hr
    constructor
    · rw [hnew]
      exact hold.carrier
    · simp only [hnew, hline]
      exact hold.lines
    · simp only [hnew, hline]
      exact hold.delivered

/-- A new order with another date has lines that look delivered. -/
theorem NewOrderStage.date_of_marksAgree
    (h : NewOrderStage K param s next param.iIds.length param.iIds.length s')
    (hs : Orderable K param s next) (hne : param.iIds ≠ []) (hmarks : AllMarksAgree s') :
    param.oEntryD = UNDELIVERED_DATE := by
  have hrow : s'.row (.order (K.offset param.wId param.dId)) (next, param.dId, param.wId) =
      some (orderRecord param next) := by
    rw [h.row]
    simp [newOrderRow]
  have hfirst : (s'.row (.orderLine (K.offset param.wId param.dId))
      (next, param.dId, param.wId, 1)).isSome := by
    have hlen := List.length_pos_iff.mpr hne
    rw [h.isSome_line]
    exact .inl ⟨rfl, rfl, le_refl 1, by omega⟩
  obtain ⟨x, hx⟩ := Option.isSome_iff_exists.mp hfirst
  rw [← h.line_of_new hs hx]
  exact (hmarks _ _ _ _ _ hrow).lines.mp h.newOrder_self 1 x hx

end NewOrder

theorem Paid.marksAgree {param : PaymentParam} (h : Paid param s s') (hs : AllMarksAgree s) :
    AllMarksAgree s' := by
  intro off o d w r hr
  have hold := hs off o d w r ((h.row _ _).symm.trans hr)
  have hnew : s'.row (.newOrder off) (o, d, w) = s.row (.newOrder off) (o, d, w) := h.row _ _
  have hline : ∀ i, s'.row (.orderLine off) (o, d, w, i) = s.row (.orderLine off) (o, d, w, i) :=
    fun i => h.row _ _
  constructor
  · rw [hnew]
    exact hold.carrier
  · simp only [hnew, hline]
    exact hold.lines
  · simp only [hnew, hline]
    exact hold.delivered

theorem PopulationStage.marksAgree
    (h : PopulationStage P (0 ≤ ·) (populationKeys K P) (lineCnt s) s) : AllMarksAgree s := by
  intro off o d w r hr
  obtain ⟨hd, hoff, ho₁, ho₂⟩ := (h.isSome_order off o d w).mp (by rw [hr]; rfl)
  obtain ⟨-, hcnt, -, hnull, hcarrier⟩ := h.good _ _ _ hr
  have hwaits : (s.row (.newOrder off) (o, d, w)).isSome ↔ P.initialNewOrderId ≤ o := by
    rw [h.isSome_newOrder]
    exact ⟨fun hk => hk.2.2.1, fun hle => ⟨hd, hoff, hle, ho₂⟩⟩
  have hfirst : (s.row (.orderLine off) (o, d, w, 1)).isSome := by
    rw [h.line]
    simp only [lineCnt, hr, Option.map_some, Option.getD_some]
    omega
  obtain ⟨x, hx⟩ := Option.isSome_iff_exists.mp hfirst
  have hnone : ¬ P.initialNewOrderId ≤ o → ∀ i x, s.row (.orderLine off) (o, d, w, i) = some x →
      0 ≤ x.olDeliveryD := fun hlt i x hx => ((h.good _ _ _ hx).2 (by omega)).1
  constructor
  · rw [hwaits]
    refine ⟨hnull, fun hc => ?_⟩
    by_contra hlt
    have := hcarrier (by omega)
    rw [hc] at this
    exact absurd this.1 (by decide)
  · rw [hwaits]
    refine ⟨fun hle i x hx => (h.good _ _ _ hx).1 hle, fun hall => ?_⟩
    by_contra hlt
    have hpos := hnone hlt 1 x hx
    rw [hall 1 x hx] at hpos
    exact absurd hpos (by decide)
  · intro hgone
    have hlt : ¬ P.initialNewOrderId ≤ o := fun hle => by
      have := hwaits.mpr hle
      rw [hgone] at this
      cases this
    exact ⟨hcarrier (by omega), hnone hlt⟩

private theorem Ledger.marksAgree_iff {txns : List Txn} (h : Ledger K P t.1) (hs : AllMarksAgree t.1)
    (hdated : ∀ txn ∈ txns, txn.1.Dated) (hv : ValidRun K t txns) :
    Throughout K AllMarksAgree t txns ↔ ∀ txn ∈ txns, txn.1.EntersUndelivered := by
  refine h.throughout_iff hs ?_ ?_ (fun _ _ hs => hs) hdated hv
  · intro s e s' h hs hv hdated hdate heffect
    cases e with
    | delivery param => exact DeliveryStage.marksAgree heffect h hv hdated hs
    | newOrder param =>
      obtain ⟨next, first, hbook, hstage⟩ := heffect
      exact hstage.marksAgree (hbook.orderable hv) hdate hs
    | payment param => exact Paid.marksAgree heffect hs
    | endExecution => exact hv.elim
  · intro s e s' h hs hv _ heffect hs'
    cases e with
    | newOrder param =>
      obtain ⟨next, first, hbook, hstage⟩ := heffect
      exact hstage.date_of_marksAgree (hbook.orderable hv) hv.nonempty hs'
    | _ => trivial

/-- The marks agree in every state of exactly the runs whose new orders all have the date of an
undelivered line. -/
theorem marks_agree_iff {clock : Clock} {txns : List Txn} (hpop : PopulatedState K P clock t)
    (hclock : ∀ n, 0 ≤ clock n) (hdated : ∀ txn ∈ txns, txn.1.Dated) (hv : ValidRun K t txns) :
    Throughout K AllMarksAgree t txns ↔ ∀ txn ∈ txns, txn.1.EntersUndelivered :=
  hpop.ledger.marksAgree_iff (hpop.stage hclock).marksAgree hdated hv

theorem marks_agree_shortRun : ∃ t, PopulatedState .unpartitioned .small (fun _ => 0) t ∧
    (Throughout .unpartitioned AllMarksAgree t shortRun ↔
      ∀ txn ∈ shortRun, txn.1.EntersUndelivered) := by
  obtain ⟨t, ht⟩ := exists_small
  refine ⟨t, ht, marks_agree_iff ht (fun _ => le_refl 0) ?_ (ht.validRun_iff.mpr shortRun_inScale)⟩
  simp [shortRun, EventTuple.Dated]

/-- A new order of the date 5. -/
theorem datedOrder_not_agree : ∃ t, PopulatedState .unpartitioned .small (fun _ => 0) t ∧
    ValidRun .unpartitioned t [(.newOrder ⟨1, 1, 1, 5, [1], [1], [3]⟩, .listed)] ∧
    ¬ Throughout .unpartitioned AllMarksAgree t
      [(.newOrder ⟨1, 1, 1, 5, [1], [1], [3]⟩, .listed)] := by
  obtain ⟨t, ht⟩ := exists_small
  have hv : ValidRun .unpartitioned t [(.newOrder ⟨1, 1, 1, 5, [1], [1], [3]⟩, .listed)] :=
    ht.validRun_iff.mpr (by decide)
  have hs := (ht.stage (C := (0 ≤ ·)) (fun _ => le_refl 0)).marksAgree
  refine ⟨t, ht, hv, fun hall => ?_⟩
  have hdate := (ht.ledger.marksAgree_iff hs (by simp [EventTuple.Dated]) hv).mp hall _
    List.mem_cons_self
  exact absurd hdate (by simp [EventTuple.EntersUndelivered, UNDELIVERED_DATE])

end ImdbD.Benchmark.TPCC
