import ImdbD.TpccSerialRun
import ImdbD.StoreTotals
import ImdbD.Lists
import Mathlib.Data.Int.ModEq

/-!
# The stock and the lines that were taken from it

The counters of a stock row are tied to the lines that the run writes into
another table, and its quantity stays in its range because of the 91 that a
restock adds.
-/
namespace ImdbD.Benchmark.TPCC
open AtomicProgram KeyedStore GuardedRun TpccSerialProcessor

/-- What a line that was not there in `s₀` adds to a sum for the stock of an item. -/
def writtenLine (s₀ : Tables) (i w : ℤ) (f : OrderLineRecord → ℤ) (off : ℕ)
    (k : Key (.orderLine off)) (r : OrderLineRecord) : ℤ :=
  if (s₀.row (.orderLine off) k).isNone ∧ (r.olIId, r.olSupplyWId) = (i, w) then f r else 0

/-- The sum over the lines written since `s₀` for the stock of an item. -/
def written (s₀ s : Tables) (i w : ℤ) (f : OrderLineRecord → ℤ) : ℤ :=
  ∑ off ∈ Finset.range MAX_PARTITION_CNT, s.total (.orderLine off) (writtenLine s₀ i w f off)

/-- A stock row beside what it was in `s₀`. -/
structure StockKept (s₀ s : Tables) (i w : ℤ) (r₀ r : StockRecord) : Prop where
  low : 10 ≤ r.sQuantity
  high : r.sQuantity ≤ 100
  ytd : r.sYtd = written s₀ s i w OrderLineRecord.olQuantity
  orderCnt : r.sOrderCnt = written s₀ s i w (fun _ => 1)
  remoteCnt : r.sRemoteCnt = written s₀ s i w (fun x => if x.olSupplyWId ≠ x.olWId then 1 else 0)
  quantity : r.sQuantity ≡ r₀.sQuantity - r.sYtd [ZMOD 91]

def AllStockKept (s₀ s : Tables) : Prop :=
  ∀ i w r₀, s₀.row .stock (i, w) = some r₀ →
    ∃ r, s.row .stock (i, w) = some r ∧ StockKept s₀ s i w r₀ r

/-- The lines of `s₀` are still there. -/
def LinesKept (s₀ s : Tables) : Prop :=
  ∀ off k, (s₀.row (.orderLine off) k).isSome → (s.row (.orderLine off) k).isSome

/-- The quantities of an order are between 1 and 10. -/
def EventTuple.SmallQuantities : EventTuple → Prop
  | .newOrder param => ∀ q ∈ param.iQtys, 1 ≤ q ∧ q ≤ 10
  | _ => True

section Take
variable {wId : ℤ} {r : StockRecord}

/-- The quantity stays in its range and keeps its residue. -/
theorem StockRecord.take_quantity (wId : ℤ) {it : OrderItem} (hq : 1 ≤ it.qty ∧ it.qty ≤ 10)
    (hlow : 10 ≤ r.sQuantity) (hhigh : r.sQuantity ≤ 100) :
    10 ≤ (r.take wId it).sQuantity ∧ (r.take wId it).sQuantity ≤ 100 ∧
      (r.take wId it).sQuantity ≡ r.sQuantity - it.qty [ZMOD 91] := by
  simp only [StockRecord.take]
  split
  · exact ⟨by omega, by omega, .refl _⟩
  · refine ⟨by omega, by omega, ?_⟩
    rw [show r.sQuantity + 91 - it.qty = r.sQuantity - it.qty + 91 by ring]
    exact Int.add_modEq_right

theorem StockRecord.foldl_take (wId : ℤ) {its : List OrderItem} (hq : ∀ it ∈ its, 1 ≤ it.qty ∧ it.qty ≤ 10)
    (hlow : 10 ≤ r.sQuantity) (hhigh : r.sQuantity ≤ 100) :
    10 ≤ (its.foldl (fun r it => r.take wId it) r).sQuantity ∧
    (its.foldl (fun r it => r.take wId it) r).sQuantity ≤ 100 ∧
    (its.foldl (fun r it => r.take wId it) r).sQuantity ≡
      r.sQuantity - (its.map OrderItem.qty).sum [ZMOD 91] ∧
    (its.foldl (fun r it => r.take wId it) r).sYtd = r.sYtd + (its.map OrderItem.qty).sum ∧
    (its.foldl (fun r it => r.take wId it) r).sOrderCnt =
      r.sOrderCnt + (its.map (fun _ => (1 : ℤ))).sum ∧
    (its.foldl (fun r it => r.take wId it) r).sRemoteCnt =
      r.sRemoteCnt + (its.map (fun it => if it.wId ≠ wId then (1 : ℤ) else 0)).sum := by
  induction its generalizing r with
  | nil => simp [hlow, hhigh, Int.ModEq.refl]
  | cons it its ih =>
    obtain ⟨hit, hits⟩ := List.forall_mem_cons.mp hq
    obtain ⟨hlow', hhigh', hmod⟩ := StockRecord.take_quantity wId hit hlow hhigh
    obtain ⟨h₁, h₂, h₃, h₄, h₅, h₆⟩ := ih hits hlow' hhigh'
    refine ⟨h₁, h₂, h₃.trans ?_, h₄.trans ?_, h₅.trans ?_, h₆.trans ?_⟩
    · rw [List.map_cons, List.sum_cons, ← sub_sub]
      exact hmod.sub_right _
    · rw [List.map_cons, List.sum_cons, ← add_assoc]
      rfl
    · rw [List.map_cons, List.sum_cons, ← add_assoc]
      rfl
    · rw [List.map_cons, List.sum_cons, ← add_assoc]
      congr 1
      simp only [StockRecord.take]
      split <;> simp

end Take
variable {K : Constants} {P : ScaleParams} {s₀ s s' : Tables} {t : State} {i w next : ℤ}
  {f : OrderLineRecord → ℤ}

theorem share_of_map_eq {off : ℕ} {k : Key (.orderLine off)}
    (h : (s'.row (.orderLine off) k).map (writtenLine s₀ i w f off k) =
      (s.row (.orderLine off) k).map (writtenLine s₀ i w f off k)) :
    s'.share (.orderLine off) (writtenLine s₀ i w f off) k =
      s.share (.orderLine off) (writtenLine s₀ i w f off) k := by
  rw [Store.share, h, Store.share]

section Delivery
variable {param : DeliveryParam} {ds : List ℤ}

/-- A delivery writes no line and changes nothing but dates. -/
theorem DeliveryStage.written_eq (h : DeliveryStage K param s ds ds ds ds s')
    (hf : ∀ x date, f { x with olDeliveryD := date } = f x) :
    written s₀ s' i w f = written s₀ s i w f := by
  refine Finset.sum_congr rfl (fun off _ => Store.total_congr (fun k => share_of_map_eq ?_))
  rw [h.row]
  simp only [deliveryRow]
  split
  · rw [Option.map_map]
    congr 1
    funext x
    simp [writtenLine, hf]
  · rfl

end Delivery

section NewOrder
variable {param : NewOrderParam}

/-- The shares of the lines of a new order. -/
theorem NewOrderStage.sum_share
    (h : NewOrderStage K param s next param.iIds.length param.iIds.length s')
    (hfresh : ∀ j, s₀.row (.orderLine (K.offset param.wId param.dId))
      (next, param.dId, param.wId, j) = none)
    {g : OrderItem → ℤ} (hf : ∀ j it, f (lineRecord param s next j it) = g it) :
    ∑ k ∈ ((List.range param.iIds.length).map (fun j : ℕ =>
        (next, param.dId, param.wId, (j : ℤ) + 1))).toFinset,
      s'.share (.orderLine (K.offset param.wId param.dId))
        (writtenLine s₀ i w f (K.offset param.wId param.dId)) k =
      ((param.items.filter (fun it => (it.iId, it.wId) = (i, w))).map g).sum := by
  have hnodup : ((List.range param.iIds.length).map (fun j : ℕ =>
      (next, param.dId, param.wId, (j : ℤ) + 1))).Nodup :=
    List.nodup_range.map (fun _ _ he => by simpa using he)
  rw [List.sum_toFinset _ hnodup, Lists.sum_map_filter, List.map_map, NewOrderParam.items, List.map_map]
  congr 1
  refine List.map_congr_left (fun j hj => ?_)
  have hlt := List.mem_range.mp hj
  have hit : param.items[j]? = some ⟨(param.iIds[j]?).getD 0, (param.iWIds[j]?).getD 0,
      (param.iQtys[j]?).getD 0⟩ := by
    rw [NewOrderParam.items, List.getElem?_map, List.getElem?_range hlt]
    rfl
  have hrow : s'.row (.orderLine (K.offset param.wId param.dId))
      (next, param.dId, param.wId, (j : ℤ) + 1) =
        some (lineRecord param s next j ⟨(param.iIds[j]?).getD 0, (param.iWIds[j]?).getD 0,
          (param.iQtys[j]?).getD 0⟩) := by
    rw [h.row]
    simp only [newOrderRow]
    rw [if_pos ⟨trivial, trivial, by omega, by omega⟩, Int.add_sub_cancel, Int.toNat_natCast, hit]
    rfl
  rw [Function.comp_apply, Store.share_of_some hrow, writtenLine, hfresh]
  simp only [Option.isNone_none, true_and, hf, Function.comp_apply]
  rfl

/-- A new order writes one line for every item. -/
theorem NewOrderStage.written_eq
    (h : NewOrderStage K param s next param.iIds.length param.iIds.length s')
    (hs : Orderable K param s next) (hkept : LinesKept s₀ s) {g : OrderItem → ℤ}
    (hf : ∀ j it, f (lineRecord param s next j it) = g it) :
    written s₀ s' i w f = written s₀ s i w f +
      ((param.items.filter (fun it => (it.iId, it.wId) = (i, w))).map g).sum := by
  have hfresh : ∀ j, s₀.row (.orderLine (K.offset param.wId param.dId))
      (next, param.dId, param.wId, j) = none := by
    intro j
    rw [← Option.not_isSome_iff_eq_none]
    intro hsome
    have hline := hkept _ _ hsome
    rw [hs.noLine] at hline
    cases hline
  have htotal : ∀ off, s'.total (.orderLine off) (writtenLine s₀ i w f off) =
      s.total (.orderLine off) (writtenLine s₀ i w f off) +
        if off = K.offset param.wId param.dId then
          ((param.items.filter (fun it => (it.iId, it.wId) = (i, w))).map g).sum else 0 := by
    intro off
    by_cases hoff : off = K.offset param.wId param.dId
    · subst hoff
      rw [if_pos rfl, ← h.sum_share hfresh hf]
      refine Store.total_eq_add _ _ (fun k => ?_)
      obtain ⟨o, d, w', j⟩ := k
      split
      · rename_i hmem
        obtain ⟨m, hm, he⟩ := List.mem_map.mp (List.mem_toFinset.mp hmem)
        cases he
        rw [Store.share_of_none (hs.noLine _), zero_add]
      · rename_i hmem
        rw [add_zero]
        refine share_of_map_eq ?_
        rw [h.row]
        simp only [newOrderRow]
        rw [if_neg]
        rintro ⟨-, he, hj₁, hj₂⟩
        cases he
        refine hmem (List.mem_toFinset.mpr (List.mem_map.mpr ⟨(j - 1).toNat, ?_, ?_⟩))
        · rw [List.mem_range]
          omega
        · rw [Int.toNat_of_nonneg (by omega), Int.sub_add_cancel]
    · rw [if_neg hoff, add_zero]
      refine Store.total_congr (fun k => share_of_map_eq ?_)
      rw [h.row]
      simp only [newOrderRow]
      rw [if_neg (fun he => hoff he.1)]
  simp only [written, htotal, Finset.sum_add_distrib]
  rw [Finset.sum_ite_eq', if_pos (Finset.mem_range.mpr (K.offset_lt _ _))]

private theorem Orderable.qty_mem (hs : Orderable K param s next) {it : OrderItem}
    (hit : it ∈ param.items) : it.qty ∈ param.iQtys := by
  obtain ⟨j, hj⟩ := List.mem_iff_getElem?.mp hit
  obtain ⟨hlt, -⟩ := List.getElem?_eq_some_iff.mp hj
  rw [param.length_items] at hlt
  obtain ⟨it', hit', -, -, hq⟩ := hs.fetch hlt
  rw [hj] at hit'
  cases hit'
  exact List.mem_of_getElem? hq

theorem NewOrderStage.stockKept
    (h : NewOrderStage K param s next param.iIds.length param.iIds.length s')
    (hs : Orderable K param s next) (hq : ∀ q ∈ param.iQtys, 1 ≤ q ∧ q ≤ 10)
    (hkept : LinesKept s₀ s) (hstock : AllStockKept s₀ s) : AllStockKept s₀ s' := by
  intro i w r₀ hr₀
  obtain ⟨r, hr, hold⟩ := hstock i w r₀ hr₀
  have hrow := h.row .stock (i, w)
  simp only [newOrderRow, hr, Option.map_some,
    List.take_of_length_le (Nat.le_of_eq param.length_items)] at hrow
  have hqs : ∀ it ∈ param.items.filter (fun it => (it.iId, it.wId) = (i, w)),
      1 ≤ it.qty ∧ it.qty ≤ 10 := fun it hit => hq _ (hs.qty_mem (List.mem_filter.mp hit).1)
  obtain ⟨hlow, hhigh, hmod, hytd, hcnt, hremote⟩ :=
    StockRecord.foldl_take param.wId hqs hold.low hold.high
  refine ⟨_, hrow, hlow, hhigh, ?_, ?_, ?_, ?_⟩
  · rw [hytd, hold.ytd, h.written_eq hs hkept (fun _ _ => rfl)]
  · rw [hcnt, hold.orderCnt, h.written_eq hs hkept (fun _ _ => rfl)]
  · rw [hremote, hold.remoteCnt, h.written_eq (g := fun it => if it.wId ≠ param.wId then 1 else 0)
      hs hkept (fun _ _ => rfl)]
  · refine hmod.trans ?_
    rw [hytd, ← sub_sub]
    exact hold.quantity.sub_right _

private theorem NewOrderStage.linesKept
    (h : NewOrderStage K param s next param.iIds.length param.iIds.length s')
    (hkept : LinesKept s₀ s) : LinesKept s₀ s' := by
  rintro off ⟨o, d, w', j⟩ hsome
  rw [h.isSome_line]
  exact .inr (hkept _ _ hsome)

end NewOrder

theorem AllStockKept.of_eq (h : AllStockKept s₀ s)
    (hrow : ∀ k, s'.row .stock k = s.row .stock k)
    (hwritten : ∀ i w f, (∀ x date, f { x with olDeliveryD := date } = f x) →
      written s₀ s' i w f = written s₀ s i w f) : AllStockKept s₀ s' := by
  intro i w r₀ hr₀
  obtain ⟨r, hr, hold⟩ := h i w r₀ hr₀
  refine ⟨r, (hrow _).trans hr, hold.low, hold.high, ?_, ?_, ?_, hold.quantity⟩
  · rw [hwritten i w _ (fun _ _ => rfl)]
    exact hold.ytd
  · rw [hwritten i w _ (fun _ _ => rfl)]
    exact hold.orderCnt
  · rw [hwritten i w _ (fun _ _ => rfl)]
    exact hold.remoteCnt

theorem PopulationStage.stockKept {C : ℤ → Prop}
    (h : PopulationStage P C (populationKeys K P) (lineCnt s) s) : AllStockKept s s := by
  intro i w r hr
  have hwritten : ∀ f, written s s i w f = 0 := by
    intro f
    refine Finset.sum_eq_zero (fun off _ => Finset.sum_eq_zero (fun k _ => ?_))
    cases hx : s.row (.orderLine off) k with
    | none => exact Store.share_of_none hx
    | some x => simp [Store.share_of_some hx, writtenLine, hx]
  obtain ⟨hlow, hhigh, hytd, hcnt, hremote, -⟩ := h.good _ _ _ hr
  refine ⟨r, hr, hlow, hhigh, ?_, ?_, ?_, ?_⟩
  · rw [hytd, hwritten]
  · rw [hcnt, hwritten]
  · rw [hremote, hwritten]
  · rw [hytd, sub_zero]

/-- The stock rows agree with the written lines in every state of a run. -/
theorem stock_kept {clock : Clock} {txns : List Txn} (hpop : PopulatedState K P clock t)
    (hq : ∀ txn ∈ txns, txn.1.SmallQuantities) (hv : ValidRun K t txns) :
    Throughout K (AllStockKept t.1) t txns := by
  have hs := (hpop.stage (C := fun _ => True) (fun _ => trivial)).stockKept
  refine hpop.ledger.throughout (I := fun s => LinesKept t.1 s ∧ AllStockKept t.1 s)
    ⟨fun _ _ h => h, hs⟩ ?_ (fun _ _ hs => hs.2) hq hv
  rintro s e s' h ⟨hkept, hs⟩ hv hq heffect
  cases e with
  | delivery param =>
    refine ⟨fun off k hsome => ?_, hs.of_eq (fun k => heffect.row _ k) (fun i w f hf =>
      DeliveryStage.written_eq heffect hf)⟩
    rw [DeliveryStage.isSome_row heffect (by simp)]
    exact hkept off k hsome
  | newOrder param =>
    obtain ⟨next, first, hbook, hstage⟩ := heffect
    exact ⟨hstage.linesKept hkept, hstage.stockKept (hbook.orderable hv) hq hkept hs⟩
  | payment param =>
    refine ⟨fun off k hsome => ?_, hs.of_eq (fun k => heffect.row _ k) (fun i w f _ => ?_)⟩
    · rw [Paid.isSome_row heffect]
      exact hkept off k hsome
    · refine Finset.sum_congr rfl (fun off _ => Store.total_congr (fun k => share_of_map_eq ?_))
      rw [heffect.row]
      rfl
  | endExecution => exact hv.elim

theorem stock_kept_shortRun : ∃ t, PopulatedState .unpartitioned .small (fun _ => 0) t ∧
    Throughout .unpartitioned (AllStockKept t.1) t shortRun := by
  obtain ⟨t, ht⟩ := exists_small
  refine ⟨t, ht, stock_kept ht ?_ (ht.validRun_iff.mpr shortRun_inScale)⟩
  simp [shortRun, EventTuple.SmallQuantities]

end ImdbD.Benchmark.TPCC
