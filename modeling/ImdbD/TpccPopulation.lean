import ImdbD.TpccPopulator
import ImdbD.TpccOrderBook
import Mathlib.Data.Set.Lattice
import Mathlib.Order.CompletePartialOrder

/-!
# What the populator leaves behind

Every program of the populator adds the rows of a known set of keys to the
tables and keeps what is said here of each of its rows. Programs that add to
different keys can be put together, one after the other or in a loop.
-/
namespace ImdbD.Benchmark.TPCC
open AtomicProgram KeyedStore RandomGenerator TpccPopulator

/-- The first order of every district that is not delivered. -/
def ScaleParams.initialNewOrderId (P : ScaleParams) : ℤ :=
  P.numCustomersPerDistrict - P.numNewOrdersPerDistrict + 1

/-- A text for a district. -/
def DistText (text : String) : Prop :=
  text.toList.length = 24 ∧ ∀ c ∈ text.toList, 'a' ≤ c ∧ c ≤ 'z'

/-- There is a text for every district. -/
def StockRecord.Labelled (r : StockRecord) : Prop :=
  r.sDists.length = DISTRICTS_PER_WAREHOUSE.toNat ∧ ∀ text ∈ r.sDists, DistText text

theorem StockRecord.Labelled.dist {r : StockRecord} (h : r.Labelled) {dId : ℤ}
    (hd : 1 ≤ dId ∧ dId ≤ DISTRICTS_PER_WAREHOUSE) : DistText (r.dist (dId + 2)) := by
  have hlt : (dId + 2 - 3).toNat < r.sDists.length := by
    rw [h.1]
    omega
  rw [StockRecord.dist, List.getElem?_eq_getElem hlt]
  exact h.2 _ (List.getElem_mem hlt)

/-- What a row shows after the population. Every reading of the clock is known to satisfy `C`. -/
def PopulatedRow (P : ScaleParams) (C : ℤ → Prop) : ∀ id, Key id → Row id → Prop
  | .warehouse, _, r => r.wYtd = 300000
  | .district, _, r => r.dYtd = 30000 ∧ r.dNextOId = P.numCustomersPerDistrict + 1
  | .customer, _, r => r.cBalance = -10 ∧ r.cYtdPayment = 10 ∧ r.cPaymentCnt = 1
  | .stock, _, r =>
    10 ≤ r.sQuantity ∧ r.sQuantity ≤ 100 ∧ r.sYtd = 0 ∧ r.sOrderCnt = 0 ∧ r.sRemoteCnt = 0 ∧
      r.Labelled
  | .districtNewOrder, _, r => r.oId = P.initialNewOrderId
  | .order _, (o, _, _), r => r.oCId = o ∧ 5 ≤ r.oOlCnt ∧ r.oOlCnt ≤ 15 ∧
    (P.initialNewOrderId ≤ o → r.oCarrierId = NULL_CARRIER_ID) ∧
    (o < P.initialNewOrderId → 1 ≤ r.oCarrierId ∧ r.oCarrierId ≤ 10)
  | .orderLine _, (o, _, _, _), r => (P.initialNewOrderId ≤ o → r.olDeliveryD = -1) ∧
    (o < P.initialNewOrderId → C r.olDeliveryD ∧ r.olAmount = 0)
  | .item, _, _ | .history, _, _ | .newOrder _, _, _ => True

/-- The amounts that HISTORY has for a customer. -/
def paymentsOf (s : Tables) : ℤ × ℤ × ℤ → List ℚ
  | (c, d, w) => ((s.heap .history).filter (fun r => r.hCId = c ∧ r.hCDId = d ∧ r.hCWId = w)).map
      HistoryRecord.hAmount

/-- A row added to HISTORY belongs to one customer. -/
theorem paymentsOf_append (s : Tables) (x : HistoryRecord) (c d w : ℤ) :
    paymentsOf (s.append .history x) (c, d, w) = paymentsOf s (c, d, w) ++
      if x.hCId = c ∧ x.hCDId = d ∧ x.hCWId = w then [x.hAmount] else [] := by
  rw [paymentsOf, Store.heap_append_self, List.filter_append, List.map_append, paymentsOf]
  congr 1
  by_cases hx : x.hCId = c ∧ x.hCDId = d ∧ x.hCWId = w <;> simp [hx]

/-- How many lines an order is to have. -/
def lineCnt (s : Tables) (off : ℕ) (g : ℤ × ℤ × ℤ) : ℤ :=
  ((s.row (.order off) g).map OrderRecord.oOlCnt).getD 0

/-- The tables when the rows of the keys in `E` were inserted, and `cnt` lines of each order. -/
structure PopulationStage (P : ScaleParams) (C : ℤ → Prop) (E : Set (Σ id, Key id))
    (cnt : ℕ → ℤ × ℤ × ℤ → ℤ) (s : Tables) : Prop where
  exact_ : ∀ id k, (∀ off, id ≠ .orderLine off) → ((s.row id k).isSome ↔ ⟨id, k⟩ ∈ E)
  good : ∀ id k r, s.row id k = some r → PopulatedRow P C id k r
  line : ∀ off o d w i, (s.row (.orderLine off) (o, d, w, i)).isSome ↔
    1 ≤ i ∧ i ≤ cnt off (o, d, w)
  group : ∀ off o d w, (s.groups (.orderLine off) (o, d, w)).Nodup ∧
    ∀ i, i ∈ s.groups (.orderLine off) (o, d, w) ↔ (s.row (.orderLine off) (o, d, w, i)).isSome
  paid : ∀ k, ⟨.customer, k⟩ ∈ E → paymentsOf s k = [10]
  unpaid : ∀ k, ⟨.customer, k⟩ ∉ E → paymentsOf s k = []

variable {K : Constants} {P : ScaleParams} {C : ℤ → Prop} {E : Set (Σ id, Key id)}
  {cnt : ℕ → ℤ × ℤ × ℤ → ℤ} {s : Tables} {id : TableId} {k : Key id} {r : Row id} {ok : Prop}

theorem PopulationStage.empty : PopulationStage P C ∅ (lineCnt Store.empty) (Store.empty : Tables) where
  exact_ id k _ := by simp [Store.empty, Store.row]
  good id k r h := by simp [Store.empty, Store.row] at h
  line off o d w i := by
    simp [Store.empty, Store.row, lineCnt]
    omega
  group off o d w := by simp [Store.empty, Store.row]
  paid k h := h.elim
  unpaid k _ := by simp [Store.empty, paymentsOf]

/-- A new row of a table without a secondary index. -/
theorem PopulationStage.setRow (h : PopulationStage P C E cnt s)
    (hid : id ≠ .customer ∧ ∀ off, id ≠ .orderLine off) (hgood : PopulatedRow P C id k r) :
    PopulationStage P C (insert ⟨id, k⟩ E) cnt (s.setRow id k r) where
  exact_ id' k' hid' := by
    by_cases hk : (⟨id', k'⟩ : Σ id, Key id) = ⟨id, k⟩
    · cases hk
      simp
    · rw [Store.row_setRow_of_ne _ _ hk, Set.mem_insert_iff, h.exact_ id' k' hid']
      simp only [hk, false_or]
  good id' k' r' hr' := by
    by_cases hk : (⟨id', k'⟩ : Σ id, Key id) = ⟨id, k⟩
    · cases hk
      rw [Store.row_setRow_self] at hr'
      cases hr'
      exact hgood
    · rw [Store.row_setRow_of_ne _ _ hk] at hr'
      exact h.good id' k' r' hr'
  line off o d w i := by
    rw [Store.row_setRow_other _ _ (hid.2 off).symm]
    exact h.line off o d w i
  group off o d w := by
    refine ⟨(h.group off o d w).1, fun i => ?_⟩
    rw [Store.row_setRow_other _ _ (hid.2 off).symm]
    exact (h.group off o d w).2 i
  paid k' hk' := h.paid k' (by
    rcases hk' with hk' | hk'
    · cases hk'
      exact absurd rfl hid.1
    · exact hk')
  unpaid k' hk' := h.unpaid k' (fun hE => hk' (Set.mem_insert_of_mem _ hE))

/-- A new customer with a first payment of 10. -/
theorem PopulationStage.customer (h : PopulationStage P C E cnt s) {c d w : ℤ} {r : CustomerRecord}
    {x : HistoryRecord} (hnew : ⟨.customer, (c, d, w)⟩ ∉ E)
    (hgood : PopulatedRow P C .customer (c, d, w) r)
    (hx : x.hCId = c ∧ x.hCDId = d ∧ x.hCWId = w ∧ x.hAmount = 10) :
    PopulationStage P C (insert ⟨.customer, (c, d, w)⟩ E) cnt
      ((s.setRow .customer (c, d, w) r).append .history x) where
  exact_ id' k' hid' := by
    rw [Store.row_append]
    by_cases hk : (⟨id', k'⟩ : Σ id, Key id) = ⟨.customer, (c, d, w)⟩
    · cases hk
      simp
    · rw [Store.row_setRow_of_ne _ _ hk, Set.mem_insert_iff, h.exact_ id' k' hid']
      simp only [hk, false_or]
  good id' k' r' hr' := by
    rw [Store.row_append] at hr'
    by_cases hk : (⟨id', k'⟩ : Σ id, Key id) = ⟨.customer, (c, d, w)⟩
    · cases hk
      rw [Store.row_setRow_self] at hr'
      cases hr'
      exact hgood
    · rw [Store.row_setRow_of_ne _ _ hk] at hr'
      exact h.good id' k' r' hr'
  line off o d' w' i := by
    rw [Store.row_append, Store.row_setRow_other _ _ (by simp)]
    exact h.line off o d' w' i
  group off o d' w' := by
    refine ⟨(h.group off o d' w').1, fun i => ?_⟩
    rw [Store.row_append, Store.row_setRow_other _ _ (by simp)]
    exact (h.group off o d' w').2 i
  paid k' hk' := by
    obtain ⟨c', d', w'⟩ := k'
    rw [paymentsOf_append]
    by_cases hk : (c', d', w') = (c, d, w)
    · cases hk
      rw [if_pos ⟨hx.1, hx.2.1, hx.2.2.1⟩, hx.2.2.2]
      exact congrArg (· ++ [10]) (h.unpaid _ hnew)
    · rw [if_neg (fun he => hk (by simp [← he.1, ← he.2.1, ← he.2.2, hx])), List.append_nil]
      exact h.paid (c', d', w') (by simpa [hk] using hk')
  unpaid k' hk' := by
    obtain ⟨c', d', w'⟩ := k'
    have hk : (c', d', w') ≠ (c, d, w) := fun he => hk' (he ▸ Set.mem_insert _ _)
    rw [paymentsOf_append, if_neg (fun he => hk (by simp [← he.1, ← he.2.1, ← he.2.2, hx])),
      List.append_nil]
    exact h.unpaid (c', d', w') (fun hE => hk' (Set.mem_insert_of_mem _ hE))

theorem PopulationStage.insertLine (h : PopulationStage P C E cnt s) {off : ℕ} {o d w : ℤ}
    {r : OrderLineRecord} {i : ℤ} (hcnt : cnt off (o, d, w) = i - 1) (hi : 1 ≤ i)
    (hk : tpcc.primaryKey (.orderLine off) r = some (o, d, w, i))
    (hgood : PopulatedRow P C (.orderLine off) (o, d, w, i) r) :
    ∃ s', (insertRecord (C := tpcc) (.orderLine off) r).run s = some ((), s') ∧
      (∀ id' k', (∀ off', id' ≠ .orderLine off') → s'.row id' k' = s.row id' k') ∧
      PopulationStage P C E
        (fun off' g => if off' = off ∧ g = (o, d, w) then i else cnt off' g) s' := by
  have hnone : s.row (.orderLine off) (o, d, w, i) = none := by
    have hno := h.line off o d w i
    rw [hcnt] at hno
    rw [← Option.not_isSome_iff_eq_none, hno]
    omega
  have hentry : tpcc.indexed (.orderLine off) r = some ((o, d, w), i) := by
    simp only [primaryKey, Option.some.injEq, Prod.mk.injEq] at hk
    simp [indexed, hk]
  refine ⟨_, run_insertRecord hk hnone, ?_, ?_⟩
  · intro id' k' hid'
    rw [Store.row_enter, Store.row_setRow_other _ _ (hid' off)]
  rw [hentry]
  refine ⟨fun id' k' hid' => ?_, fun id' k' r' hr' => ?_, fun off' o' d' w' j => ?_,
    fun off' o' d' w' => ?_, h.paid, h.unpaid⟩
  · rw [Store.row_enter, Store.row_setRow_other _ _ (hid' off)]
    exact h.exact_ id' k' hid'
  · rw [Store.row_enter] at hr'
    by_cases hline : (⟨id', k'⟩ : Σ id, Key id) = ⟨.orderLine off, (o, d, w, i)⟩
    · cases hline
      rw [Store.row_setRow_self] at hr'
      cases hr'
      exact hgood
    · rw [Store.row_setRow_of_ne _ _ hline] at hr'
      exact h.good id' k' r' hr'
  · rw [Store.row_enter]
    by_cases hline : (⟨.orderLine off', (o', d', w', j)⟩ : Σ id, Key id) =
        ⟨.orderLine off, (o, d, w, i)⟩
    · cases hline
      simp [hi]
    · have hold := h.line off' o' d' w' j
      rw [Store.row_setRow_of_ne _ _ hline, hold]
      by_cases hg : off' = off ∧ (o', d', w') = (o, d, w)
      · obtain ⟨rfl, hg⟩ := hg
        cases hg
        have hj : j ≠ i := fun he => hline (by rw [he])
        rw [hcnt, if_pos ⟨rfl, rfl⟩]
        omega
      · rw [if_neg hg]
  · obtain ⟨hnodup, hmem⟩ := h.group off' o' d' w'
    by_cases hoff : off' = off
    · subst hoff
      by_cases hg : (o', d', w') = (o, d, w)
      · cases hg
        have hnew : i ∉ s.groups (.orderLine off') (o, d, w) := fun hi' => by
          have hsome := (hmem i).mp hi'
          rw [hnone] at hsome
          cases hsome
        rw [Store.groups_enter_self, Store.groups_setRow]
        refine ⟨List.nodup_cons.mpr ⟨hnew, hnodup⟩, fun j => ?_⟩
        rw [Store.row_enter, List.mem_cons, hmem]
        by_cases hj : j = i
        · subst hj
          simp
        · rw [Store.row_setRow_ne _ _ (by simpa using hj)]
          simp only [hj, false_or]
      · rw [Store.groups_enter_ne _ _ hg, Store.groups_setRow]
        refine ⟨hnodup, fun j => ?_⟩
        rw [Store.row_enter, Store.row_setRow_ne _ _ (by grind)]
        exact hmem j
    · rw [Store.groups_enter_other _ (by simpa using hoff), Store.groups_setRow]
      refine ⟨hnodup, fun j => ?_⟩
      rw [Store.row_enter, Store.row_setRow_other _ _ (by simpa using hoff)]
      exact hmem j

/-- Every reading of the clock satisfies `C`. -/
def Readings (C : ℤ → Prop) (s : Env) : Prop := ∀ n, C (s.2 n)

/-- A program that draws and reads the clock only, with a result of which `Q` is known. -/
def Quiet (ok : Prop) (C : ℤ → Prop) {α : Type} (p : Program Env α) (Q : α → Prop) : Prop :=
  ∀ s : Env, Readings C s →
    Program.Ensures ok p s (fun a s' => s'.1.1 = s.1.1 ∧ Readings C s' ∧ Q a)

namespace Quiet
variable {α β : Type} {p : Program Env α} {Q : α → Prop}

protected theorem pure {a : α} (h : Q a) : Quiet ok C (Pure.pure a) Q :=
  fun _ hs => .pure ⟨rfl, hs, h⟩

protected theorem bind {R : α → Prop} {f : α → Program Env β} {Q : β → Prop} (h : Quiet ok C p R)
    (hf : ∀ a, R a → Quiet ok C (f a) Q) : Quiet ok C (p >>= f) Q := by
  intro s hs
  refine .bind (h s hs) ?_
  rintro a s₁ ⟨h₁, hs₁, ha⟩
  refine (hf a ha s₁ hs₁).mono ?_
  rintro b s₂ ⟨h₂, hs₂, hb⟩
  exact ⟨h₂.trans h₁, hs₂, hb⟩

/-- Draws of which it is enough that they come to an end. -/
theorem drawn {p : Program Rand α} (h : ok → p.Total) :
    Quiet ok C (draw p) (fun _ => True) := by
  intro s hs
  cases hp : p.run s.1.2 with
  | none =>
    refine .of_not (fun hok => ?_) (by simp [draw, hp])
    obtain ⟨a, r', hrun⟩ := h hok s.1.2
    rw [hp] at hrun
    cases hrun
  | some r =>
    have hrun : (draw p).run s = some (r.1, ((s.1.1, r.2), s.2)) := by simp [draw, hp]
    exact .of_run hrun ⟨rfl, hs, trivial⟩

theorem total {p : Program Rand α} (h : p.Total) : Quiet ok C (draw p) (fun _ => True) :=
  drawn (fun _ => h)

theorem integer {min max : ℤ} (h : min ≤ max) :
    Quiet ok C (draw (generateInteger min max)) (fun n => min ≤ n ∧ n ≤ max) := by
  intro s hs
  obtain ⟨n, r', hrun, hn⟩ := generateInteger_spec h s.1.2
  have hrun' : (draw (generateInteger min max)).run s = some (n, ((s.1.1, r'), s.2)) := by
    simp [draw, hrun]
  exact .of_run hrun' ⟨rfl, hs, hn⟩

theorem currentTime : Quiet ok C generateCurrentTime C := by
  intro s hs
  exact .of_run (Program.run_atomic _ s) ⟨rfl, fun n => hs (n + 1), hs 0⟩

private theorem always {p : Program Rand α} (h : p.Always Q) : Quiet ok C (draw p) Q := by
  intro s hs
  obtain ⟨a, r', hrun, ha⟩ := h s.1.2
  have hdraw : (draw p).run s = some (a, ((s.1.1, r'), s.2)) := by simp [draw, hrun]
  exact .of_run hdraw ⟨rfl, hs, ha⟩

protected theorem collect {f : β → Program Env α} (hf : ∀ b, Quiet ok C (f b) Q) (bs : List β) :
    Quiet ok C (Program.collect f bs) (fun as => as.length = bs.length ∧ ∀ a ∈ as, Q a) := by
  induction bs with
  | nil => exact .pure ⟨rfl, by simp⟩
  | cons b bs ih =>
    exact .bind (hf b) (fun a ha => .bind ih (fun as has =>
      .pure ⟨by rw [List.length_cons, List.length_cons, has.1], List.forall_mem_cons.mpr ⟨ha, has.2⟩⟩))

theorem itemRecord (itemId : ℤ) :
    Quiet ok C (generateItemRecord itemId) (fun r => r.iId = itemId) :=
  .bind (.total (total_generateInteger _ _)) (fun _ _ =>
    .bind (.total (total_generateCString _ _)) (fun _ _ =>
      .bind (.total (total_generateFixedPoint _ _ _)) (fun _ _ =>
        .bind (.total (total_generateCString _ _)) (fun _ _ => .pure rfl))))

theorem warehouseRecord (wId : ℤ) :
    Quiet ok C (generateWarehouseRecord wId) (fun r => r.wId = wId ∧ r.wYtd = 300000) :=
  .bind (.total (total_generateCString _ _)) (fun _ _ =>
    .bind (.total total_generateAddress) (fun _ _ =>
      .bind (.total total_generateTax) (fun _ _ => .pure ⟨rfl, rfl⟩)))

theorem districtRecord (dWId dId dNextOId : ℤ) :
    Quiet ok C (generateDistrictRecord dWId dId dNextOId) (fun r =>
      (r.dId, r.dWId) = (dId, dWId) ∧ r.dYtd = 30000 ∧ r.dNextOId = dNextOId) :=
  .bind (.total (total_generateCString _ _)) (fun _ _ =>
    .bind (.total total_generateAddress) (fun _ _ =>
      .bind (.total total_generateTax) (fun _ _ => .pure ⟨rfl, rfl, rfl⟩)))

theorem customerRecord (cLast cWId cDId cId : ℤ) (badCredit : Bool) :
    Quiet ok C (generateCustomerRecord cLast cWId cDId cId badCredit) (fun r =>
      (r.cId, r.cDId, r.cWId) = (cId, cDId, cWId) ∧
      r.cBalance = -10 ∧ r.cYtdPayment = 10 ∧ r.cPaymentCnt = 1) := by
  refine .bind (.total (total_generateCString _ _)) (fun _ _ => ?_)
  refine .bind (.total ?_) (fun _ _ => ?_)
  · split
    · exact .pure _
    · exact total_generateRandomLastName _ _
  refine .bind (.total total_generateAddress) (fun _ _ => ?_)
  refine .bind (.total (total_generateNString _ _)) (fun _ _ => ?_)
  refine .bind .currentTime (fun _ _ => ?_)
  refine .bind (.total (total_generateFixedPoint _ _ _)) (fun _ _ => ?_)
  exact .bind (.total (total_generateCString _ _)) (fun _ _ => .pure ⟨rfl, rfl, rfl, rfl⟩)

theorem stockRecord (sWId sIId : ℤ) :
    Quiet ok C (generateStockRecord sWId sIId) (fun r => (r.sIId, r.sWId) = (sIId, sWId) ∧
      10 ≤ r.sQuantity ∧ r.sQuantity ≤ 100 ∧ r.sYtd = 0 ∧ r.sOrderCnt = 0 ∧ r.sRemoteCnt = 0 ∧
      r.Labelled) := by
  have htext : Quiet ok C (draw (generateCString 24 24)) DistText :=
    .always ((always_generateCString le_rfl).mono
      (fun text h => ⟨le_antisymm h.2.1 h.1, h.2.2⟩))
  refine .bind (.integer (by norm_num)) (fun n hn => ?_)
  refine .bind (.collect (fun _ => htext) _) (fun sDists hdists => ?_)
  rw [length_upTo] at hdists
  exact .bind (.total (total_generateCString _ _)) (fun _ _ =>
    .pure ⟨rfl, hn.1, hn.2, rfl, rfl, rfl, hdists⟩)

/-- Only an order that is not new has a carrier. -/
theorem orderRecord (oWId oDId oId oCId oOlCnt : ℤ) (newOrder : Bool) :
    Quiet ok C (generateOrderRecord oWId oDId oId oCId oOlCnt newOrder) (fun r =>
      (r.oId, r.oDId, r.oWId) = (oId, oDId, oWId) ∧ r.oCId = oCId ∧ r.oOlCnt = oOlCnt ∧
      (newOrder = true → r.oCarrierId = NULL_CARRIER_ID) ∧
      (newOrder = false → 1 ≤ r.oCarrierId ∧ r.oCarrierId ≤ 10)) := by
  refine .bind .currentTime (fun _ _ => ?_)
  cases newOrder with
  | true => exact .pure ⟨rfl, rfl, rfl, fun _ => rfl, nofun⟩
  | false =>
    exact .bind (.integer (by norm_num)) (fun n hn => .pure ⟨rfl, rfl, rfl, nofun, fun _ => hn⟩)

/-- Only a line of an order that is not new has a delivery date, and no amount. -/
theorem orderLineRecord (olWId olDId olOId olNumber maxItems : ℤ) (newOrder : Bool) :
    Quiet ok C (generateOrderLineRecord olWId olDId olOId olNumber maxItems newOrder) (fun r =>
      (r.olOId, r.olDId, r.olWId, r.olNumber) = (olOId, olDId, olWId, olNumber) ∧
      (newOrder = true → r.olDeliveryD = -1) ∧
      (newOrder = false → C r.olDeliveryD ∧ r.olAmount = 0)) := by
  refine .bind (.total (total_generateInteger _ _)) (fun _ _ => ?_)
  cases newOrder with
  | true =>
    refine .bind (.total (total_generateFixedPoint _ _ _)) (fun amount _ => ?_)
    refine .bind (.pure (Q := fun x : ℤ × ℚ => x = (-1, amount)) rfl) ?_
    rintro _ rfl
    exact .bind (.total (total_generateCString _ _)) (fun _ _ => .pure ⟨rfl, fun _ => rfl, nofun⟩)
  | false =>
    refine .bind .currentTime (fun now hnow => ?_)
    refine .bind (.pure (Q := fun x : ℤ × ℚ => x = (now, 0)) rfl) ?_
    rintro _ rfl
    exact .bind (.total (total_generateCString _ _)) (fun _ _ =>
      .pure ⟨rfl, nofun, fun _ => ⟨hnow, rfl⟩⟩)

theorem historyRecord (hCWId hCDId hCId : ℤ) :
    Quiet ok C (generateHistoryRecord hCWId hCDId hCId) (fun r =>
      r.hCId = hCId ∧ r.hCDId = hCDId ∧ r.hCWId = hCWId ∧ r.hDId = hCDId ∧ r.hWId = hCWId ∧
      r.hAmount = 10) :=
  .bind .currentTime (fun _ _ => .bind (.total (total_generateCString _ _)) (fun _ _ =>
    .pure ⟨rfl, rfl, rfl, rfl, rfl, rfl⟩))

end Quiet

abbrev TableKey := Σ id, Key id

/-- A program that adds the rows of the keys in `A`, with the lines of the orders among them. -/
def Populates (ok : Prop) (P : ScaleParams) (C : ℤ → Prop) (p : Program Env Unit)
    (A : Set TableKey) : Prop :=
  ∀ (E : Set TableKey) (s : Env), Disjoint E A → PopulationStage P C E (lineCnt s.1.1) s.1.1 →
    Readings C s → Program.Ensures ok p s (fun _ s' =>
      PopulationStage P C (E ∪ A) (lineCnt s'.1.1) s'.1.1 ∧ Readings C s')

namespace Populates
variable {α : Type} {p q : Program Env Unit} {A B : Set TableKey}

theorem none : Populates ok P C (pure ()) ∅ := by
  intro E s _ h hs
  rw [Set.union_empty]
  exact .pure ⟨h, hs⟩

protected theorem bind {p : Program Env α} {Q : α → Prop} {f : α → Program Env Unit}
    (hp : Quiet ok C p Q) (hf : ∀ a, Q a → Populates ok P C (f a) A) :
    Populates ok P C (p >>= f) A := by
  intro E s hE h hs
  refine .bind (hp s hs) ?_
  rintro a s₁ ⟨h₁, hs₁, ha⟩
  exact hf a ha E s₁ hE (h₁ ▸ h) hs₁

theorem seq (hp : Populates ok P C p A) (hq : Populates ok P C q B) (hAB : Disjoint A B) :
    Populates ok P C (do p; q) (A ∪ B) := by
  intro E s hE h hs
  rw [Set.disjoint_union_right] at hE
  refine .bind (hp E s hE.1 h hs) ?_
  rintro _ s₁ ⟨h₁, hs₁⟩
  rw [← Set.union_assoc]
  exact hq (E ∪ A) s₁ (Set.disjoint_union_left.mpr ⟨hE.2, hAB⟩) h₁ hs₁

protected theorem each {f : α → Program Env Unit} {A : α → Set TableKey} {as : List α}
    (hf : ∀ a ∈ as, Populates ok P C (f a) (A a)) (hA : as.Pairwise (fun a b => Disjoint (A a) (A b))) :
    Populates ok P C (Program.each f as) (⋃ a ∈ as, A a) := by
  induction as with
  | nil =>
    have hnil : Populates ok P C (Program.each f []) ∅ := none
    simpa using hnil
  | cons a as ih =>
    obtain ⟨ha, has⟩ := List.pairwise_cons.mp hA
    have hrest := ih (fun b hb => hf b (List.mem_cons_of_mem a hb)) has
    have hall : Populates ok P C (Program.each f (a :: as)) (A a ∪ ⋃ b ∈ as, A b) :=
      (hf a List.mem_cons_self).seq hrest (by simpa using ha)
    simpa [Set.iUnion_or, Set.iUnion_union_distrib] using hall

/-- One row of a table of which nothing more is counted. -/
theorem row (hid : id ≠ .customer ∧ (∀ off, id ≠ .order off) ∧ ∀ off, id ≠ .orderLine off)
    (hk : primaryKey id r = some k) (hi : indexed id r = Option.none)
    (hgood : PopulatedRow P C id k r) : Populates ok P C (insertRow id r) {⟨id, k⟩} := by
  intro E s hE h hs
  have hnone : s.1.1.row id k = Option.none := by
    rw [← Option.not_isSome_iff_eq_none, h.exact_ id k hid.2.2]
    simpa using hE
  have hrun : (insertRow id r).run s = some ((), ((s.1.1.setRow id k r, s.1.2), s.2)) := by
    simp [insertRow, run_insertRecord_plain hk hi hnone]
  have hcnt : lineCnt (s.1.1.setRow id k r) = lineCnt s.1.1 := by
    funext off g
    rw [lineCnt, Store.row_setRow_other _ _ (hid.2.1 off).symm, lineCnt]
  refine .of_run hrun ⟨?_, hs⟩
  rw [Set.union_singleton, hcnt]
  exact h.setRow ⟨hid.1, hid.2.2⟩ hgood

end Populates
end ImdbD.Benchmark.TPCC
