import ImdbD.TpccPopulation

/-!
# The populated tables

The populator run over the empty tables: which rows there are, what they show,
and that they keep an order book for every district.
-/
namespace ImdbD.Benchmark.TPCC
open AtomicProgram KeyedStore RandomGenerator TpccPopulator

section Keys
variable (K : Constants) (P : ScaleParams)

def orderKeys (w d o : ℤ) : Set TableKey :=
  {e | match e with
    | ⟨.order off, k⟩ => off = K.offset w d ∧ k = (o, d, w)
    | ⟨.newOrder off, k⟩ => off = K.offset w d ∧ k = (o, d, w) ∧ P.initialNewOrderId ≤ o
    | _ => False}

def districtKeys (w d : ℤ) : Set TableKey :=
  {e | match e with
    | ⟨.district, k⟩ => k = (d, w)
    | ⟨.districtNewOrder, k⟩ => k = (w, d)
    | ⟨.customer, (c, d', w')⟩ =>
      (d', w') = (d, w) ∧ 1 ≤ c ∧ c ≤ P.numCustomersPerDistrict
    | ⟨.order off, (o, d', w')⟩ =>
      (d', w') = (d, w) ∧ off = K.offset w d ∧ 1 ≤ o ∧ o ≤ P.numCustomersPerDistrict
    | ⟨.newOrder off, (o, d', w')⟩ =>
      (d', w') = (d, w) ∧ off = K.offset w d ∧ P.initialNewOrderId ≤ o ∧
        o ≤ P.numCustomersPerDistrict
    | _ => False}

def warehouseKeys (w : ℤ) : Set TableKey :=
  {e | match e with
    | ⟨.warehouse, k⟩ => k = w
    | ⟨.stock, (i, w')⟩ => w' = w ∧ 1 ≤ i ∧ i ≤ P.numItems
    | ⟨.item, _⟩ => False
    | ⟨.district, (d, w')⟩ => w' = w ∧ 1 ≤ d ∧ d ≤ DISTRICTS_PER_WAREHOUSE
    | ⟨.districtNewOrder, (w', d)⟩ => w' = w ∧ 1 ≤ d ∧ d ≤ DISTRICTS_PER_WAREHOUSE
    | ⟨id, k⟩ => ∃ d : ℤ, 1 ≤ d ∧ d ≤ DISTRICTS_PER_WAREHOUSE ∧ ⟨id, k⟩ ∈ districtKeys K P w d}

/-- The keys of all rows, but for the lines of the orders. -/
def populationKeys : Set TableKey :=
  {e | match e with
    | ⟨.item, i⟩ => 1 ≤ i ∧ i ≤ P.numItems
    | ⟨id, k⟩ => ∃ w : ℤ, 1 ≤ w ∧ w ≤ P.numWarehouses ∧ ⟨id, k⟩ ∈ warehouseKeys K P w}

end Keys

variable {K : Constants} {P : ScaleParams} {C : ℤ → Prop} {ok : Prop} {cLast : ℤ} {rounds : ℕ}

private theorem populates_customer (w d c : ℤ) (rows : List ℤ) :
    Populates ok P C (populateCustomer cLast w d rows c) {⟨.customer, (c, d, w)⟩} := by
  intro E s hE h hs
  refine .bind (Quiet.customerRecord cLast w d c _ s hs) ?_
  rintro r s₁ ⟨h₁, hs₁, hkey, hgood⟩
  rw [← h₁] at h
  have hnew : ⟨.customer, (c, d, w)⟩ ∉ E := by simpa using hE
  have hnone : s₁.1.1.row .customer (c, d, w) = none := by
    rw [← Option.not_isSome_iff_eq_none, h.exact_ .customer (c, d, w) (by simp)]
    exact hnew
  have hrun : (insertRow .customer r).run s₁ =
      some ((), ((s₁.1.1.setRow .customer (c, d, w) r, s₁.1.2), s₁.2)) := by
    have hk : primaryKey .customer r = some (c, d, w) := congrArg some hkey
    simp [insertRow, run_insertRecord_plain hk rfl hnone]
  refine .run_bind hrun (.bind (Quiet.historyRecord w d c _ hs₁) ?_)
  rintro x s₂ ⟨h₂, hs₂, hx⟩
  have hrun₂ : (insertRow .history x).run s₂ =
      some ((), ((s₂.1.1.append .history x, s₂.1.2), s₂.2)) := by
    have hheap : (insertRecord (C := tpcc) .history x).run s₂.1.1 =
      some ((), s₂.1.1.append .history x) := run_insertRecord_heap rfl
    simp [insertRow, hheap]
  refine .of_run hrun₂ ⟨?_, hs₂⟩
  rw [h₂, Set.union_singleton]
  exact h.customer hnew hgood ⟨hx.1, hx.2.1, hx.2.2.1, hx.2.2.2.2.2⟩

theorem populateLines_spec {E : Set TableKey} {cnt : ℕ → ℤ × ℤ × ℤ → ℤ} {s : Env} {w d o n : ℤ}
    (hn : 0 ≤ n) (h : PopulationStage P C E cnt s.1.1) (hzero : cnt (K.offset w d) (o, d, w) = 0)
    (hs : Readings C s) :
    Program.Ensures ok (Program.each (fun olNumber => do
      let orderLineRecord ← generateOrderLineRecord w d o olNumber P.numItems
        (decide (o ≥ P.initialNewOrderId))
      insertRow (.orderLine (K.offset w d)) orderLineRecord) (upTo n)) s (fun _ s' =>
      PopulationStage P C E (fun off g =>
        if off = K.offset w d ∧ g = (o, d, w) then n else cnt off g) s'.1.1 ∧ Readings C s' ∧
      ∀ id k, (∀ off, id ≠ .orderLine off) → s'.1.1.row id k = s.1.1.row id k) := by
  refine (Program.Ensures.each (I := fun before s' =>
    PopulationStage P C E (fun off g =>
      if off = K.offset w d ∧ g = (o, d, w) then (before.length : ℤ) else cnt off g) s'.1.1 ∧
    Readings C s' ∧ ∀ id k, (∀ off, id ≠ .orderLine off) → s'.1.1.row id k = s.1.1.row id k)
    ?_ ?_).mono ?_
  · rintro before i after s' hi ⟨h', hs', hsame⟩
    have hlen := upTo_split hi
    refine .bind (Quiet.orderLineRecord w d o i P.numItems _ s' hs') ?_
    rintro r s₁ ⟨h₁, hs₁, hkey, hnew, hold⟩
    rw [← h₁] at h' hsame
    have hk : tpcc.primaryKey (.orderLine (K.offset w d)) r = some (o, d, w, i) := congrArg some hkey
    have hgood : PopulatedRow P C (.orderLine (K.offset w d)) (o, d, w, i) r :=
      ⟨fun ho => hnew (by simpa using ho), fun ho => hold (by simpa using ho)⟩
    obtain ⟨t, hrun, hother, hstage⟩ := h'.insertLine (by simp [hlen]) (by omega) hk hgood
    have hrun' : (insertRow (.orderLine (K.offset w d)) r).run s₁ =
        some ((), ((t, s₁.1.2), s₁.2)) := by
      simp [insertRow, hrun]
    refine .of_run hrun' ⟨?_, hs₁, fun id k hid => (hother id k hid).trans (hsame id k hid)⟩
    have hcnt : (fun off g => if off = K.offset w d ∧ g = (o, d, w) then
          ((before ++ [i]).length : ℤ) else cnt off g) =
        fun off g => if off = K.offset w d ∧ g = (o, d, w) then i else
          if off = K.offset w d ∧ g = (o, d, w) then (before.length : ℤ) else cnt off g := by
      funext off g
      split <;> simp [hlen]
    rw [hcnt]
    exact hstage
  · refine ⟨?_, hs, fun _ _ _ => rfl⟩
    have hcnt : (fun off g => if off = K.offset w d ∧ g = (o, d, w) then
        (([] : List ℤ).length : ℤ) else cnt off g) = cnt := by
      funext off g
      split
      · rename_i hk
        rw [hk.1, hk.2, hzero]
        rfl
      · rfl
    rw [hcnt]
    exact h
  · intro _ s' hs'
    rwa [length_upTo, Int.toNat_of_nonneg hn] at hs'

theorem populates_order (w d o : ℤ) :
    Populates ok P C (populateOrder K P w d P.initialNewOrderId o) (orderKeys K P w d o) := by
  intro E s hE h hs
  refine .bind (Quiet.integer (by norm_num) s hs) ?_
  rintro n s₁ ⟨h₁, hs₁, hn⟩
  refine .bind (Quiet.orderRecord w d o o n _ s₁ hs₁) ?_
  rintro r s₂ ⟨h₂, hs₂, hkey, hbuyer, hcnt, hnew, hold⟩
  rw [← h₁, ← h₂] at h
  have hfresh : ⟨.order (K.offset w d), (o, d, w)⟩ ∉ E := fun he =>
    Set.disjoint_left.mp hE he ⟨rfl, rfl⟩
  have hnone : s₂.1.1.row (.order (K.offset w d)) (o, d, w) = none := by
    rw [← Option.not_isSome_iff_eq_none, h.exact_ (.order (K.offset w d)) (o, d, w) (by simp)]
    exact hfresh
  have hrun : (insertRow (.order (K.offset w d)) r).run s₂ =
      some ((), ((s₂.1.1.setRow (.order (K.offset w d)) (o, d, w) r, s₂.1.2), s₂.2)) := by
    have hk : primaryKey (.order (K.offset w d)) r = some (o, d, w) := congrArg some hkey
    simp [insertRow, run_insertRecord_plain hk rfl hnone]
  have hgood : PopulatedRow P C (.order (K.offset w d)) (o, d, w) r :=
    ⟨hbuyer, by omega, by omega, fun ho => hnew (by simpa using ho), fun ho => hold (by simpa using ho)⟩
  have hopen := h.setRow ⟨by simp, by simp⟩ hgood
  refine .run_bind hrun (.bind (populateLines_spec (by omega) hopen ?_ hs₂) ?_)
  · simp [lineCnt, hnone]
  rintro _ s₃ ⟨h₃, hs₃, hsame⟩
  -- the count of lines is now that of the order
  have hcnt₃ : (fun off g => if off = K.offset w d ∧ g = (o, d, w) then n else
      lineCnt s₂.1.1 off g) = lineCnt s₃.1.1 := by
    funext off g
    simp only [lineCnt, hsame (.order off) g (by simp)]
    split
    · rename_i hg
      rw [hg.1, hg.2, Store.row_setRow_self]
      exact hcnt.symm
    · rename_i hg
      rw [Store.row_setRow_of_ne _ _ (by simpa using hg)]
  rw [hcnt₃] at h₃
  by_cases ho : P.initialNewOrderId ≤ o
  · have hkeys : E ∪ orderKeys K P w d o = insert ⟨.order (K.offset w d), (o, d, w)⟩ E ∪
        {⟨.newOrder (K.offset w d), (o, d, w)⟩} := by
      ext ⟨id, k⟩
      cases id <;> simp [orderKeys, ho, or_comm]
    have hrow : Populates ok P C (insertRow (.newOrder (K.offset w d)) (generateNewOrderRecord w d o))
        {⟨.newOrder (K.offset w d), (o, d, w)⟩} := .row (by simp) rfl rfl trivial
    rw [if_pos (by simpa using ho), hkeys]
    refine hrow _ s₃ ?_ h₃ hs₃
    rw [Set.disjoint_singleton_right]
    rintro (he | he)
    · simp at he
    · exact Set.disjoint_left.mp hE he ⟨rfl, rfl, ho⟩
  · have hkeys : E ∪ orderKeys K P w d o = insert ⟨.order (K.offset w d), (o, d, w)⟩ E := by
      ext ⟨id, k⟩
      cases id <;> simp [orderKeys, ho, or_comm]
    rw [if_neg (by simpa using ho), hkeys]
    exact .pure ⟨h₃, hs₃⟩

theorem pairwise_upTo {R : ℤ → ℤ → Prop} (h : ∀ i j, i ≠ j → R i j) (n : ℤ) :
    (upTo n).Pairwise R := (nodup_upTo n).imp (fun {i j} hij => h i j hij)

private theorem disjoint_orderKeys {w d i j : ℤ} (hij : i ≠ j) :
    Disjoint (orderKeys K P w d i) (orderKeys K P w d j) := by
  rw [Set.disjoint_left]
  rintro ⟨id, k⟩ hi hj
  cases id with
  | order off => exact hij (congrArg Prod.fst (hi.2.symm.trans hj.2))
  | newOrder off => exact hij (congrArg Prod.fst (hi.2.1.symm.trans hj.2.1))
  | _ => exact hi

private theorem districtKeys_eq (w d : ℤ) : districtKeys K P w d = {⟨.district, (d, w)⟩} ∪
    ((⋃ c ∈ upTo P.numCustomersPerDistrict, {⟨.customer, (c, d, w)⟩}) ∪
      ({⟨.districtNewOrder, (w, d)⟩} ∪
        ⋃ o ∈ upTo P.numCustomersPerDistrict, orderKeys K P w d o)) := by
  ext ⟨id, k⟩
  have hinit : 1 ≤ P.initialNewOrderId := by
    have := P.newOrders_le
    unfold ScaleParams.initialNewOrderId
    omega
  cases id <;> simp [districtKeys, orderKeys]
  case customer => grind
  case order off => grind
  case newOrder off => grind

private theorem populates_district (w d : ℤ) (hrows : ok → (selectUniqueIds rounds 1
      P.numCustomersPerDistrict (P.numCustomersPerDistrict / 10) []).Total) :
    Populates ok P C (populateDistrict K P cLast rounds w d) (districtKeys K P w d) := by
  rw [districtKeys_eq]
  refine .bind (Quiet.districtRecord w d _) ?_
  rintro r ⟨hkey, hgood⟩
  refine .seq (.row (by simp) (congrArg some hkey) rfl hgood) ?_ (by simp [orderKeys])
  refine .bind (Quiet.drawn hrows) (fun rows _ => ?_)
  refine .seq (.each (fun c _ => populates_customer w d c rows) ?_) ?_ (by simp [orderKeys])
  · exact pairwise_upTo (fun i j hij => by simpa using hij) _
  · refine .seq (.row (by simp) rfl rfl rfl) ?_ (by simp [orderKeys])
    exact .each (fun o _ => populates_order w d o) (pairwise_upTo (fun _ _ => disjoint_orderKeys) _)

private theorem disjoint_districtKeys {w i j : ℤ} (hij : i ≠ j) :
    Disjoint (districtKeys K P w i) (districtKeys K P w j) := by
  rw [Set.disjoint_left]
  rintro ⟨id, k⟩ hi hj
  cases id <;> simp only [districtKeys, Set.mem_ofPred_eq] at hi hj
  all_goals grind

private theorem warehouseKeys_eq (w : ℤ) : warehouseKeys K P w = {⟨.warehouse, w⟩} ∪
    ((⋃ d ∈ upTo DISTRICTS_PER_WAREHOUSE, districtKeys K P w d) ∪
      ⋃ i ∈ upTo P.numItems, {⟨.stock, (i, w)⟩}) := by
  ext ⟨id, k⟩
  cases id <;> simp [warehouseKeys, districtKeys]
  case district => grind
  case districtNewOrder => grind
  case stock => grind
  case customer => grind
  case order off => grind
  case newOrder off => grind

private theorem disjoint_warehouseKeys {i j : ℤ} (hij : i ≠ j) :
    Disjoint (warehouseKeys K P i) (warehouseKeys K P j) := by
  rw [Set.disjoint_left]
  rintro ⟨id, k⟩ hi hj
  cases id <;> simp only [warehouseKeys, districtKeys, Set.mem_ofPred_eq] at hi hj
  all_goals grind

private theorem populationKeys_eq : populationKeys K P = (⋃ i ∈ upTo P.numItems, {⟨.item, i⟩}) ∪
    ⋃ w ∈ upTo P.numWarehouses, warehouseKeys K P w := by
  ext ⟨id, k⟩
  cases id <;> simp [populationKeys, warehouseKeys]
  all_goals grind

/-- The draws of a sample of a tenth that come to an end. -/
def SamplesEnd (rounds : ℕ) (n : ℕ) : Prop :=
  (selectUniqueIds rounds 1 n (n / 10) []).Total

private theorem populates_warehouse (w : ℤ)
    (hok : ok → SamplesEnd rounds P.numCustomersPerDistrict ∧ SamplesEnd rounds P.numItems) :
    Populates ok P C (populateWarehouse K P cLast rounds w) (warehouseKeys K P w) := by
  rw [warehouseKeys_eq]
  refine .bind (Quiet.warehouseRecord w) ?_
  rintro r ⟨hkey, hgood⟩
  refine .seq (.row (by simp) (congrArg some hkey) rfl hgood) ?_ (by simp [districtKeys])
  refine .seq (.each (fun d _ => populates_district w d (fun h => (hok h).1))
    (pairwise_upTo (fun _ _ => disjoint_districtKeys) _)) ?_ (by simp [districtKeys])
  refine .bind (Quiet.drawn (fun h => (hok h).2)) (fun _ _ => ?_)
  refine .each (fun i _ => .bind (Quiet.stockRecord w i) ?_) ?_
  · rintro r ⟨hkey, hgood⟩
    exact .row (by simp) (congrArg some hkey) rfl hgood
  · exact pairwise_upTo (fun i j hij => by simpa using hij) _

/-- The populator adds the rows of all keys. -/
theorem populates_all (cLast : ℤ) (rounds : ℕ) :
    Populates (SamplesEnd rounds P.numCustomersPerDistrict ∧ SamplesEnd rounds P.numItems) P C
      (startPopulate K P cLast rounds) (populationKeys K P) := by
  rw [populationKeys_eq]
  refine .bind (Quiet.drawn And.right) (fun _ _ => ?_)
  refine .seq (.each (fun i _ => .bind (Quiet.itemRecord i) ?_) ?_) ?_ (by simp [warehouseKeys])
  · rintro r hkey
    exact .row (by simp) (congrArg some hkey) rfl trivial
  · exact pairwise_upTo (fun i j hij => by simpa using hij) _
  · exact .each (fun w _ => populates_warehouse w id)
      (pairwise_upTo (fun _ _ => disjoint_warehouseKeys) _)

/-- The populator, with the system clock showing `clock`, leaves `s` behind. -/
def PopulatedState (K : Constants) (P : ScaleParams) (clock : Clock) (s : State) : Prop :=
  ∃ cLast rounds rand clock',
    (startPopulate K P cLast rounds).run ((Store.empty, rand), clock) = some ((), (s, clock'))

theorem PopulatedState.stage {clock : Clock} {s : State} (h : PopulatedState K P clock s)
    (hclock : ∀ n, C (clock n)) :
    PopulationStage P C (populationKeys K P) (lineCnt s.1) s.1 := by
  obtain ⟨cLast, rounds, rand, clock', hrun⟩ := h
  have hall := populates_all (K := K) (P := P) (C := C) cLast rounds ∅ ((Store.empty, rand), clock) (by simp)
    .empty hclock
  simpa using (hall.result hrun).1

/-- Where no sample is drawn the populator comes to an end. -/
theorem exists_populatedState (K : Constants) {P : ScaleParams} (clock : Clock)
    (hc : P.numCustomersPerDistrict < 10) (hi : P.numItems < 10) :
    ∃ s, PopulatedState K P clock s := by
  have hall := populates_all (K := K) (P := P) (C := fun _ => True) 0 0 ∅
    ((Store.empty, fun _ => 0), clock) (by simp) .empty (fun _ => trivial)
  have hends : ∀ n : ℕ, n < 10 → SamplesEnd 0 n := by
    intro n hn
    rw [SamplesEnd, Nat.div_eq_of_lt hn]
    exact .pure _
  obtain ⟨_, s, hrun, -⟩ := hall.exists_run ⟨hends _ hc, hends _ hi⟩
  exact ⟨s.1, 0, 0, _, s.2, hrun⟩

section Ledger
variable {s : Tables} (h : PopulationStage P C (populationKeys K P) (lineCnt s) s)
include h

theorem PopulationStage.isSome_order (off : ℕ) (o d w : ℤ) :
    (s.row (.order off) (o, d, w)).isSome ↔ P.HasDistrict d w ∧ off = K.offset w d ∧ 1 ≤ o ∧
      o ≤ P.numCustomersPerDistrict := by
  rw [h.exact_ _ _ (by simp)]
  simp [populationKeys, warehouseKeys, districtKeys, ScaleParams.HasDistrict]
  grind

theorem PopulationStage.isSome_newOrder (off : ℕ) (o d w : ℤ) :
    (s.row (.newOrder off) (o, d, w)).isSome ↔ P.HasDistrict d w ∧ off = K.offset w d ∧
      P.initialNewOrderId ≤ o ∧ o ≤ P.numCustomersPerDistrict := by
  rw [h.exact_ _ _ (by simp)]
  simp [populationKeys, warehouseKeys, districtKeys, ScaleParams.HasDistrict]
  grind

private theorem PopulationStage.isSome_customer (c d w : ℤ) :
    (s.row .customer (c, d, w)).isSome ↔ P.HasDistrict d w ∧ 1 ≤ c ∧
      c ≤ P.numCustomersPerDistrict := by
  rw [h.exact_ _ _ (by simp)]
  simp [populationKeys, warehouseKeys, districtKeys, ScaleParams.HasDistrict]
  grind

theorem PopulationStage.isSome_district (d w : ℤ) :
    (s.row .district (d, w)).isSome ↔ P.HasDistrict d w := by
  rw [h.exact_ _ _ (by simp)]
  simp [populationKeys, warehouseKeys, ScaleParams.HasDistrict]
  grind

private theorem PopulationStage.isSome_districtNewOrder (d w : ℤ) :
    (s.row .districtNewOrder (w, d)).isSome ↔ P.HasDistrict d w := by
  rw [h.exact_ _ _ (by simp)]
  simp [populationKeys, warehouseKeys, ScaleParams.HasDistrict]
  grind

theorem PopulationStage.orderBook {d w : ℤ} (hd : P.HasDistrict d w) :
    OrderBook K s d w (P.numCustomersPerDistrict + 1) P.initialNewOrderId := by
  have hle := P.newOrders_le
  have hentry : ∀ off o e, orderEntry s off (o, d, w) = some e →
      e.1 = o ∧ 1 ≤ o ∧ o ≤ P.numCustomersPerDistrict ∧ 5 ≤ e.2 ∧ e.2 = lineCnt s off (o, d, w) := by
    intro off o e he
    obtain ⟨r, hr, rfl⟩ := Option.map_eq_some_iff.mp he
    have hsome := (h.isSome_order off o d w).mp (by simp [hr])
    have hgood := h.good _ _ _ hr
    exact ⟨hgood.1, hsome.2.2.1, hsome.2.2.2, hgood.2.1, by simp [lineCnt, hr]⟩
  constructor
  · obtain ⟨r, hr⟩ := Option.isSome_iff_exists.mp ((h.isSome_district d w).mpr hd)
    exact ⟨r, hr, (h.good _ _ _ hr).2⟩
  · obtain ⟨r, hr⟩ := Option.isSome_iff_exists.mp ((h.isSome_districtNewOrder d w).mpr hd)
    exact ⟨r, hr, h.good _ _ _ hr⟩
  · unfold ScaleParams.initialNewOrderId
    omega
  · unfold ScaleParams.initialNewOrderId
    omega
  · intro off o
    rw [h.isSome_order off o d w, Int.lt_add_one_iff]
    simp only [hd, true_and]
  · intro off o
    rw [h.isSome_newOrder off o d w, Int.lt_add_one_iff]
    simp only [hd, true_and]
  · intro off o i
    rw [h.line off o d w i]
    constructor
    · intro hi
      cases hr : s.row (.order off) (o, d, w) with
      | none =>
        simp only [lineCnt, hr, Option.map_none, Option.getD_none] at hi
        omega
      | some r => exact ⟨(r.oCId, r.oOlCnt), by simp [orderEntry, hr], by simpa [lineCnt, hr] using hi⟩
    · rintro ⟨e, he, h₁, h₂⟩
      rw [← (hentry off o e he).2.2.2.2]
      exact ⟨h₁, h₂⟩
  · intro off o e he
    have := (hentry off o e he).2.2.2.1
    omega
  · intro off o
    exact h.group off o d w
  · intro off o e he
    obtain ⟨hc, h₁, h₂, -⟩ := hentry off o e he
    rw [hc, h.isSome_customer]
    exact ⟨hd, h₁, h₂⟩

theorem PopulationStage.ledger : Ledger K P s where
  item i := by
    rw [h.exact_ _ _ (by simp)]
    simp [populationKeys]
  stock i w := by
    rw [h.exact_ _ _ (by simp)]
    simp [populationKeys, warehouseKeys]
    grind
  warehouse w := by
    rw [h.exact_ _ _ (by simp)]
    simp [populationKeys, warehouseKeys]
  district := h.isSome_district
  customer := h.isSome_customer
  book _ _ hd := ⟨_, _, h.orderBook hd⟩

end Ledger
end ImdbD.Benchmark.TPCC
