import ImdbD.TpccProcessor
import Mathlib.Data.List.ReduceOption

/-!
# What a delivery does

The tables after a delivery, row by row, as one function of the tables before
it. A delivery goes four times over the districts of its warehouse; the function
says what the rows are when each of the four passes has come to some districts.
-/
namespace ImdbD.Benchmark.TPCC
open AtomicProgram KeyedStore
variable (K : Constants) (param : DeliveryParam) (s : Tables)

/-- The order to which the pointer of a district points, if it waits for its delivery. -/
def nextOrder (w d : ℤ) : Option ℤ :=
  (s.row .districtNewOrder (w, d)).bind (fun r =>
    if (s.row (.newOrder (K.offset w d)) (r.oId, d, w)).isSome then some r.oId else none)

/-- The amounts of the lines of an order. -/
def lineAmounts (o d w : ℤ) : List ℚ :=
  (s.groups (.orderLine (K.offset w d)) (o, d, w)).map (fun i =>
    ((s.row (.orderLine (K.offset w d)) (o, d, w, i)).map OrderLineRecord.olAmount).getD 0)

/-- What a delivery brings to a customer. -/
def due (c d w : ℤ) : ℚ :=
  match nextOrder K s w d with
  | some o =>
    if (s.row (.order (K.offset w d)) (o, d, w)).map OrderRecord.oCId = some c then
      (lineAmounts K s o d w).sum
    else 0
  | none => 0

/-- The rows when the first pass has come to the districts `taken`, the second to `marked`, the
third to `carried` and the last to `credited`. -/
def deliveryRow (taken marked carried credited : List ℤ) : ∀ id, Key id → Option (Row id)
  | .districtNewOrder, (w, d) =>
    if w = param.wId ∧ d ∈ taken ∧ (nextOrder K s w d).isSome then
      (s.row .districtNewOrder (w, d)).map (fun r => { r with oId := r.oId + 1 })
    else s.row .districtNewOrder (w, d)
  | .newOrder off, (o, d, w) =>
    if w = param.wId ∧ d ∈ taken ∧ nextOrder K s w d = some o ∧ off = K.offset w d then none
    else s.row (.newOrder off) (o, d, w)
  | .orderLine off, (o, d, w, i) =>
    if w = param.wId ∧ d ∈ marked ∧ nextOrder K s w d = some o ∧ off = K.offset w d then
      (s.row (.orderLine off) (o, d, w, i)).map (fun r => { r with olDeliveryD := param.olDeliveryD })
    else s.row (.orderLine off) (o, d, w, i)
  | .order off, (o, d, w) =>
    if w = param.wId ∧ d ∈ carried ∧ nextOrder K s w d = some o ∧ off = K.offset w d then
      (s.row (.order off) (o, d, w)).map (fun r => { r with oCarrierId := param.oCarrierId })
    else s.row (.order off) (o, d, w)
  | .customer, (c, d, w) =>
    if w = param.wId ∧ d ∈ credited then
      (s.row .customer (c, d, w)).map (fun r => { r with cBalance := r.cBalance + due K s c d w })
    else s.row .customer (c, d, w)
  | .item, k => s.row .item k
  | .warehouse, k => s.row .warehouse k
  | .district, k => s.row .district k
  | .history, k => s.row .history k
  | .stock, k => s.row .stock k

/-- The tables between two rounds of a delivery. -/
structure DeliveryStage (taken marked carried credited : List ℤ) (s' : Tables) : Prop where
  row : ∀ id k, s'.row id k = deliveryRow K param s taken marked carried credited id k
  groups : s'.groups = s.groups
  heap : s'.heap = s.heap

/-- A district in which a delivery finds what it looks for. -/
structure Deliverable (w d : ℤ) : Prop where
  pointer : (s.row .districtNewOrder (w, d)).isSome
  buyer : ∀ o, nextOrder K s w d = some o →
    ∃ r, s.row (.order (K.offset w d)) (o, d, w) = some r ∧ (s.row .customer (r.oCId, d, w)).isSome
  lines : ∀ o, nextOrder K s w d = some o →
    s.groups (.orderLine (K.offset w d)) (o, d, w) ≠ [] ∧
    ∀ i, i ∈ s.groups (.orderLine (K.offset w d)) (o, d, w) ↔
      (s.row (.orderLine (K.offset w d)) (o, d, w, i)).isSome

variable {K param s} {s' : Tables} {taken marked carried credited : List ℤ} {d o : ℤ} {ok : Prop}

theorem DeliveryStage.refl : DeliveryStage K param s [] [] [] [] s where
  row id k := by cases id <;> simp [deliveryRow]
  groups := rfl
  heap := rfl

theorem DeliveryStage.unique {s₁ s₂ : Tables} (h₁ : DeliveryStage K param s taken marked carried credited s₁)
    (h₂ : DeliveryStage K param s taken marked carried credited s₂) : s₁ = s₂ := by
  refine Store.ext (fun id k => ?_) (fun id g => ?_) (fun id => ?_)
  · rw [h₁.row, h₂.row]
  · rw [h₁.groups, h₂.groups]
  · rw [h₁.heap, h₂.heap]

private theorem run_deliverySubTxn1Single_found {r : DistrictNewOrderRecord} {n : NewOrderRecord}
    (h : s.row .districtNewOrder (param.wId, d) = some r)
    (hn : s.row (.newOrder (K.offset param.wId d)) (r.oId, d, param.wId) = some n) :
    (deliverySubTxn1Single K param d).run s = some (some r.oId,
      (s.eraseRow (.newOrder (K.offset param.wId d)) (r.oId, d, param.wId)).setRow
        .districtNewOrder (param.wId, d) { r with oId := r.oId + 1 }) := by
  have hr : (s.eraseRow (.newOrder (K.offset param.wId d)) (r.oId, d, param.wId)).row
      .districtNewOrder (param.wId, d) = some r := by
    rw [Store.row_eraseRow_other s (by simp), h]
  simp [deliverySubTxn1Single, h, run_getColumn h, hn, run_deleteRecord_plain hn rfl,
    run_updateRecord hr]

private theorem run_deliverySubTxn1Single_missing {r : DistrictNewOrderRecord}
    (h : s.row .districtNewOrder (param.wId, d) = some r)
    (hn : s.row (.newOrder (K.offset param.wId d)) (r.oId, d, param.wId) = none) :
    (deliverySubTxn1Single K param d).run s = some (none, s) := by
  simp [deliverySubTxn1Single, h, run_getColumn h, hn]

theorem DeliveryStage.deliverySubTxn1Single (h : DeliveryStage K param s taken [] [] [] s')
    (hd : d ∉ taken) (hs : Deliverable K s param.wId d) :
    Program.Ensures ok (deliverySubTxn1Single K param d) s' (fun found s'' =>
      found = nextOrder K s param.wId d ∧ DeliveryStage K param s (taken ++ [d]) [] [] [] s'') := by
  obtain ⟨r, hr⟩ := Option.isSome_iff_exists.mp hs.pointer
  have hr' : s'.row .districtNewOrder (param.wId, d) = some r := by
    rw [h.row, ← hr]
    simp [deliveryRow, hd]
  have hsame : ∀ o, s'.row (.newOrder (K.offset param.wId d)) (o, d, param.wId) =
      s.row (.newOrder (K.offset param.wId d)) (o, d, param.wId) := by
    intro o
    rw [h.row]
    simp [deliveryRow, hd]
  cases hn : s.row (.newOrder (K.offset param.wId d)) (r.oId, d, param.wId) with
  | none =>
    have hnext : nextOrder K s param.wId d = none := by simp [nextOrder, hr, hn]
    refine .of_run (run_deliverySubTxn1Single_missing hr' (by rw [hsame, hn])) ⟨hnext.symm, ?_⟩
    refine ⟨fun id k => ?_, h.groups, h.heap⟩
    rw [h.row]
    cases id with
    | districtNewOrder => simp only [deliveryRow]; grind
    | newOrder off => simp only [deliveryRow]; grind
    | _ => rfl
  | some n =>
    have hnext : nextOrder K s param.wId d = some r.oId := by simp [nextOrder, hr, hn]
    refine .of_run (run_deliverySubTxn1Single_found hr' (by rw [hsame, hn])) ⟨hnext.symm, ?_⟩
    refine ⟨fun id k => ?_, h.groups, h.heap⟩
    by_cases hpointer : (⟨id, k⟩ : Σ id, Key id) = ⟨.districtNewOrder, (param.wId, d)⟩
    · cases hpointer
      rw [Store.row_setRow_self]
      simp [deliveryRow, hnext, hr]
    by_cases horder : (⟨id, k⟩ : Σ id, Key id) =
        ⟨.newOrder (K.offset param.wId d), (r.oId, d, param.wId)⟩
    · cases horder
      rw [Store.row_setRow_other _ _ (by simp), Store.row_eraseRow_self]
      simp [deliveryRow, hnext]
    rw [Store.row_setRow_of_ne _ _ hpointer, Store.row_eraseRow_of_ne _ horder, h.row]
    cases id with
    | districtNewOrder => simp only [deliveryRow]; grind
    | newOrder off => simp only [deliveryRow]; grind
    | _ => rfl

/-- The rows when some lines of an order are marked. -/
def markedRow (date : ℤ) (s : Tables) (off : ℕ) (g : ℤ × ℤ × ℤ) (marked : List ℤ) :
    ∀ id, Key id → Option (Row id)
  | .orderLine off', (o, d, w, i) =>
    if off' = off ∧ (o, d, w) = g ∧ i ∈ marked then
      (s.row (.orderLine off') (o, d, w, i)).map (fun r => { r with olDeliveryD := date })
    else s.row (.orderLine off') (o, d, w, i)
  | .item, k => s.row .item k
  | .warehouse, k => s.row .warehouse k
  | .district, k => s.row .district k
  | .customer, k => s.row .customer k
  | .history, k => s.row .history k
  | .stock, k => s.row .stock k
  | .districtNewOrder, k => s.row .districtNewOrder k
  | .order off', k => s.row (.order off') k
  | .newOrder off', k => s.row (.newOrder off') k

theorem deliverySubTxn2Single_spec
    (hne : s.groups (.orderLine (K.offset param.wId d)) (o, d, param.wId) ≠ [])
    (hrow : ∀ i ∈ s.groups (.orderLine (K.offset param.wId d)) (o, d, param.wId),
      (s.row (.orderLine (K.offset param.wId d)) (o, d, param.wId, i)).isSome) :
    Program.Ensures ok (deliverySubTxn2Single K param d o) s (fun sum s' =>
      sum = (lineAmounts K s o d param.wId).sum ∧ s'.groups = s.groups ∧ s'.heap = s.heap ∧
      ∀ id k, s'.row id k = markedRow param.olDeliveryD s (K.offset param.wId d) (o, d, param.wId)
        (s.groups (.orderLine (K.offset param.wId d)) (o, d, param.wId)) id k) := by
  refine .run_bind (run_selectRecords s _ _) ?_
  refine .run_bind (by rw [Program.run_assert, if_pos]; simpa using hne) ?_
  refine .bind (.collect (I := fun before amounts s' =>
    amounts = before.map (fun i => ((s.row (.orderLine (K.offset param.wId d))
      (o, d, param.wId, i)).map OrderLineRecord.olAmount).getD 0) ∧
    s'.groups = s.groups ∧ s'.heap = s.heap ∧
    ∀ id k, s'.row id k = markedRow param.olDeliveryD s (K.offset param.wId d) (o, d, param.wId)
      before id k) ?_ ?_) ?_
  · rintro before amounts i after s' hg ⟨rfl, hgroups, hheap, hrows⟩
    obtain ⟨r, hr⟩ := Option.isSome_iff_exists.mp (hrow i (by simp [hg]))
    -- a line that is marked again keeps its amount too
    obtain ⟨r', hr', hmark, hamount⟩ : ∃ r', s'.row (.orderLine (K.offset param.wId d))
        (o, d, param.wId, i) = some r' ∧
        ({ r' with olDeliveryD := param.olDeliveryD } : OrderLineRecord) =
          { r with olDeliveryD := param.olDeliveryD } ∧ r'.olAmount = r.olAmount := by
      rw [hrows]
      simp only [markedRow, hr]
      split
      · exact ⟨_, rfl, rfl, rfl⟩
      · exact ⟨_, rfl, rfl, rfl⟩
    refine .run_bind (run_updateRecord hr' _) ?_
    refine .of_run (run_getColumn (Store.row_setRow_self _ _) _) ?_
    refine ⟨by simp [hr, hamount], hgroups, hheap, fun id k => ?_⟩
    by_cases hline : (⟨id, k⟩ : Σ id, Key id) =
        ⟨.orderLine (K.offset param.wId d), (o, d, param.wId, i)⟩
    · cases hline
      refine (Store.row_setRow_self _ _).trans ?_
      rw [hmark]
      simp [markedRow, hr]
    · refine (Store.row_setRow_of_ne _ _ hline).trans ?_
      rw [hrows]
      cases id with
      | orderLine off => simp only [markedRow]; grind
      | _ => rfl
  · exact ⟨rfl, rfl, rfl, fun id k => by cases id <;> simp [markedRow]⟩
  · rintro amounts s' ⟨rfl, hgroups, hheap, hrows⟩
    exact .pure ⟨rfl, hgroups, hheap, hrows⟩

theorem DeliveryStage.deliverySubTxn2Single (h : DeliveryStage K param s taken marked [] [] s')
    (hd : d ∉ marked) (ho : nextOrder K s param.wId d = some o)
    (hs : Deliverable K s param.wId d) :
    Program.Ensures ok (deliverySubTxn2Single K param d o) s' (fun sum s'' =>
      sum = (lineAmounts K s o d param.wId).sum ∧
      DeliveryStage K param s taken (marked ++ [d]) [] [] s'') := by
  have hline : ∀ i, s'.row (.orderLine (K.offset param.wId d)) (o, d, param.wId, i) =
      s.row (.orderLine (K.offset param.wId d)) (o, d, param.wId, i) := by
    intro i
    rw [h.row]
    simp [deliveryRow, hd]
  have hamounts : lineAmounts K s' o d param.wId = lineAmounts K s o d param.wId := by
    simp only [lineAmounts, h.groups, hline]
  obtain ⟨hne, hmem⟩ := hs.lines o ho
  refine (deliverySubTxn2Single_spec (by rwa [h.groups]) (fun i hi => ?_)).mono ?_
  · rw [h.groups] at hi
    rw [hline]
    exact (hmem i).mp hi
  · rintro sum s'' ⟨rfl, hgroups, hheap, hrows⟩
    refine ⟨by rw [hamounts], fun id k => ?_, hgroups.trans h.groups, hheap.trans h.heap⟩
    rw [hrows]
    cases id with
    | orderLine off =>
      obtain ⟨o', d', w', i⟩ := k
      have hnone : i ∉ s.groups (.orderLine (K.offset param.wId d)) (o, d, param.wId) →
          s.row (.orderLine (K.offset param.wId d)) (o, d, param.wId, i) = none := fun hi => by
        simpa using mt (hmem i).mpr hi
      by_cases hk : off = K.offset param.wId d ∧ (o', d', w') = (o, d, param.wId)
      · obtain ⟨rfl, hk⟩ := hk
        cases hk
        by_cases hi : i ∈ s.groups (.orderLine (K.offset param.wId d)) (o, d, param.wId)
        · simp [markedRow, deliveryRow, h.groups, hline, ho, hi]
        · simp [markedRow, deliveryRow, h.groups, hline, ho, hi, hnone hi]
      · simp only [markedRow, h.row, deliveryRow]
        rw [if_neg (fun he => hk ⟨he.1, he.2.1⟩)]
        grind
    | _ => exact h.row _ _

theorem run_deliverySubTxn3Single {r : OrderRecord}
    (h : s.row (.order (K.offset param.wId d)) (o, d, param.wId) = some r) :
    (deliverySubTxn3Single K param d o).run s = some (r.oCId,
      s.setRow (.order (K.offset param.wId d)) (o, d, param.wId)
        { r with oCarrierId := param.oCarrierId }) := by
  simp [deliverySubTxn3Single, h, run_updateRecord h, run_getColumn (Store.row_setRow_self s _)]

theorem DeliveryStage.deliverySubTxn3Single
    (h : DeliveryStage K param s taken marked carried [] s') (hd : d ∉ carried)
    (ho : nextOrder K s param.wId d = some o) {r : OrderRecord}
    (hr : s.row (.order (K.offset param.wId d)) (o, d, param.wId) = some r) :
    Program.Ensures ok (deliverySubTxn3Single K param d o) s' (fun cId s'' =>
      cId = r.oCId ∧ DeliveryStage K param s taken marked (carried ++ [d]) [] s'') := by
  have hr' : s'.row (.order (K.offset param.wId d)) (o, d, param.wId) = some r := by
    rw [h.row, ← hr]
    simp [deliveryRow, hd]
  refine .of_run (run_deliverySubTxn3Single hr') ⟨rfl, fun id k => ?_, h.groups, h.heap⟩
  by_cases horder : (⟨id, k⟩ : Σ id, Key id) = ⟨.order (K.offset param.wId d), (o, d, param.wId)⟩
  · cases horder
    rw [Store.row_setRow_self]
    simp [deliveryRow, ho, hr]
  · rw [Store.row_setRow_of_ne _ _ horder, h.row]
    cases id with
    | order off => simp only [deliveryRow]; grind
    | _ => rfl

private theorem run_deliverySubTxn4Single {c : ℤ} {sum : ℚ} {r : CustomerRecord}
    (h : s.row .customer (c, d, param.wId) = some r) :
    (deliverySubTxn4Single param d sum c).run s = some ((),
      s.setRow .customer (c, d, param.wId) { r with cBalance := r.cBalance + sum }) := by
  simp [deliverySubTxn4Single, h, run_getColumn h, run_updateRecord h]

theorem DeliveryStage.deliverySubTxn4Single
    (h : DeliveryStage K param s taken marked carried credited s') (hd : d ∉ credited)
    (ho : nextOrder K s param.wId d = some o) {r : OrderRecord}
    (hr : s.row (.order (K.offset param.wId d)) (o, d, param.wId) = some r)
    (hc : (s.row .customer (r.oCId, d, param.wId)).isSome) :
    Program.Ensures ok
      (deliverySubTxn4Single param d (lineAmounts K s o d param.wId).sum r.oCId) s' (fun _ s'' =>
        DeliveryStage K param s taken marked carried (credited ++ [d]) s'') := by
  obtain ⟨x, hx⟩ := Option.isSome_iff_exists.mp hc
  have hx' : s'.row .customer (r.oCId, d, param.wId) = some x := by
    rw [h.row, ← hx]
    simp [deliveryRow, hd]
  have hdue : ∀ c, due K s c d param.wId =
      if r.oCId = c then (lineAmounts K s o d param.wId).sum else 0 := by
    intro c
    simp [due, ho, hr]
  refine .of_run (run_deliverySubTxn4Single hx') ⟨fun id k => ?_, h.groups, h.heap⟩
  by_cases hcustomer : (⟨id, k⟩ : Σ id, Key id) = ⟨.customer, (r.oCId, d, param.wId)⟩
  · cases hcustomer
    rw [Store.row_setRow_self]
    simp [deliveryRow, hx, hdue]
  · rw [Store.row_setRow_of_ne _ _ hcustomer, h.row]
    cases id with
    | customer =>
      obtain ⟨c, d', w⟩ := k
      by_cases hk : d' = d ∧ w = param.wId
      · obtain ⟨rfl, rfl⟩ := hk
        have hc' : r.oCId ≠ c := fun he => hcustomer (by rw [he])
        simp [deliveryRow, hd, hdue, hc']
      · simp only [deliveryRow]
        grind
    | _ => rfl

/-- The entries of the map of found orders. -/
def foundOrders (K : Constants) (s : Tables) (w : ℤ) : List (ℤ × ℤ) :=
  ((upTo DISTRICTS_PER_WAREHOUSE).map (fun d =>
    (nextOrder K s w d).map (fun o => (d, o)))).reduceOption

theorem mem_foundOrders {w : ℤ} {e : ℤ × ℤ} : e ∈ foundOrders K s w ↔
    e.1 ∈ upTo DISTRICTS_PER_WAREHOUSE ∧ nextOrder K s w e.1 = some e.2 := by
  rw [foundOrders, List.reduceOption_mem_iff, List.mem_map]
  constructor
  · rintro ⟨d, hd, he⟩
    obtain ⟨o, ho, rfl⟩ := Option.map_eq_some_iff.mp he
    exact ⟨hd, ho⟩
  · rintro ⟨hd, ho⟩
    exact ⟨e.1, hd, by rw [ho]; rfl⟩

/-- No district is found twice. -/
theorem nodup_foundOrders (K : Constants) (s : Tables) (w : ℤ) :
    ((foundOrders K s w).map Prod.fst).Nodup := by
  have hsub : ∀ ds : List ℤ, (((ds.map (fun d => (nextOrder K s w d).map
      (fun o => (d, o)))).reduceOption).map Prod.fst).Sublist ds := by
    intro ds
    induction ds with
    | nil => simp
    | cons d ds ih =>
      cases h : nextOrder K s w d with
      | none => simpa [h] using ih.cons d
      | some o => simpa [h] using ih
  exact (hsub _).nodup (nodup_upTo _)

/-- A map that was filled entry by entry returns what was filled in. -/
theorem lookup_map {β : Type} (f : ℤ × ℤ → β) {es : List (ℤ × ℤ)} (hnodup : (es.map Prod.fst).Nodup)
    {e : ℤ × ℤ} (he : e ∈ es) : (es.map (fun e => (e.1, f e))).lookup e.1 = some (f e) := by
  induction es with
  | nil => exact (nomatch he)
  | cons a es ih =>
    rw [List.map_cons, List.nodup_cons] at hnodup
    rw [List.map_cons, List.lookup_cons]
    rcases List.mem_cons.mp he with rfl | he
    · simp
    · have hne : e.1 ≠ a.1 := fun h => hnodup.1 (h ▸ List.mem_map_of_mem he)
      rw [beq_eq_false_iff_ne.mpr hne]
      exact ih hnodup.2 he

theorem DeliveryStage.all {es : List (ℤ × ℤ)} (hes : es.Perm (foundOrders K s param.wId))
    (h : DeliveryStage K param s (upTo DISTRICTS_PER_WAREHOUSE) (es.map Prod.fst)
      (es.map Prod.fst) (es.map Prod.fst) s') :
    DeliveryStage K param s (upTo DISTRICTS_PER_WAREHOUSE) (upTo DISTRICTS_PER_WAREHOUSE)
      (upTo DISTRICTS_PER_WAREHOUSE) (upTo DISTRICTS_PER_WAREHOUSE) s' := by
  have hmem : ∀ d, d ∈ es.map Prod.fst ↔
      d ∈ upTo DISTRICTS_PER_WAREHOUSE ∧ (nextOrder K s param.wId d).isSome := by
    intro d
    rw [(hes.map Prod.fst).mem_iff, List.mem_map]
    constructor
    · rintro ⟨e, he, rfl⟩
      obtain ⟨hd, ho⟩ := mem_foundOrders.mp he
      exact ⟨hd, by rw [ho]; rfl⟩
    · rintro ⟨hd, ho⟩
      obtain ⟨o, ho⟩ := Option.isSome_iff_exists.mp ho
      exact ⟨(d, o), mem_foundOrders.mpr ⟨hd, ho⟩, rfl⟩
  refine ⟨fun id k => ?_, h.groups, h.heap⟩
  rw [h.row]
  cases id with
  | orderLine off => simp only [deliveryRow, hmem]; grind
  | order off => simp only [deliveryRow, hmem]; grind
  | customer =>
    obtain ⟨c, d, w⟩ := k
    simp only [deliveryRow, hmem]
    cases hnext : nextOrder K s w d with
    | none => simp [due, hnext]
    | some o => grind
  | _ => rfl

theorem DeliveryStage.deliverySubTxn1
    (hs : ∀ d ∈ upTo DISTRICTS_PER_WAREHOUSE, Deliverable K s param.wId d) :
    Program.Ensures ok (deliverySubTxn1 K param) s (fun noOIds s' =>
      noOIds = foundOrders K s param.wId ∧
      DeliveryStage K param s (upTo DISTRICTS_PER_WAREHOUSE) [] [] [] s') := by
  refine .bind (.collect (I := fun before found s' =>
    found = before.map (fun d => (nextOrder K s param.wId d).map (fun o => (d, o))) ∧
    DeliveryStage K param s before [] [] [] s') ?_ ⟨rfl, .refl⟩) ?_
  · rintro before found d after s' hds ⟨rfl, h⟩
    have hnodup := nodup_upTo DISTRICTS_PER_WAREHOUSE
    rw [hds, List.nodup_append] at hnodup
    have hd : d ∉ before := fun hd => hnodup.2.2 d hd d List.mem_cons_self rfl
    refine .bind (h.deliverySubTxn1Single hd (hs d (by simp [hds]))) ?_
    rintro found s'' ⟨rfl, h'⟩
    exact .pure ⟨by simp, h'⟩
  · rintro found s' ⟨rfl, h⟩
    exact .pure ⟨rfl, h⟩

section Passes
variable {es before after : List (ℤ × ℤ)} {e : ℤ × ℤ}

/-- In the walk over the found orders every district is new. -/
theorem fst_not_mem (hnodup : (es.map Prod.fst).Nodup) (hes : es = before ++ e :: after) :
    e.1 ∉ before.map Prod.fst := by
  rw [hes, List.map_append, List.map_cons, List.nodup_append] at hnodup
  exact fun hd => hnodup.2.2 e.1 hd e.1 List.mem_cons_self rfl

variable (hnodup : (es.map Prod.fst).Nodup)
  (hfound : ∀ e ∈ es, nextOrder K s param.wId e.1 = some e.2 ∧ Deliverable K s param.wId e.1)
include hnodup hfound

theorem DeliveryStage.deliverySubTxn2 (h : DeliveryStage K param s taken [] [] [] s') :
    Program.Ensures ok (deliverySubTxn2 K param es) s' (fun sums s'' =>
      sums = es.map (fun e => (e.1, (lineAmounts K s e.2 e.1 param.wId).sum)) ∧
      DeliveryStage K param s taken (es.map Prod.fst) [] [] s'') := by
  refine .collect (I := fun before sums s'' =>
    sums = before.map (fun e => (e.1, (lineAmounts K s e.2 e.1 param.wId).sum)) ∧
    DeliveryStage K param s taken (before.map Prod.fst) [] [] s'') ?_ ⟨rfl, h⟩
  rintro before sums e after s'' hes ⟨rfl, h⟩
  obtain ⟨ho, hs⟩ := hfound e (by simp [hes])
  refine .bind (h.deliverySubTxn2Single (fst_not_mem hnodup hes) ho hs) ?_
  rintro sum t ⟨rfl, h'⟩
  exact .pure ⟨by simp, by simpa using h'⟩

theorem DeliveryStage.deliverySubTxn3 (h : DeliveryStage K param s taken marked [] [] s') :
    Program.Ensures ok (deliverySubTxn3 K param es) s' (fun cIds s'' =>
      cIds = es.map (fun e => (e.1, ((s.row (.order (K.offset param.wId e.1))
        (e.2, e.1, param.wId)).map OrderRecord.oCId).getD 0)) ∧
      DeliveryStage K param s taken marked (es.map Prod.fst) [] s'') := by
  refine .collect (I := fun before cIds s'' =>
    cIds = before.map (fun e => (e.1, ((s.row (.order (K.offset param.wId e.1))
      (e.2, e.1, param.wId)).map OrderRecord.oCId).getD 0)) ∧
    DeliveryStage K param s taken marked (before.map Prod.fst) [] s'') ?_ ⟨rfl, h⟩
  rintro before cIds e after s'' hes ⟨rfl, h⟩
  obtain ⟨ho, hs⟩ := hfound e (by simp [hes])
  obtain ⟨r, hr, -⟩ := hs.buyer e.2 ho
  refine .bind (h.deliverySubTxn3Single (fst_not_mem hnodup hes) ho hr) ?_
  rintro cId t ⟨rfl, h'⟩
  exact .pure ⟨by simp [hr], by simpa using h'⟩

theorem DeliveryStage.deliverySubTxn4 (h : DeliveryStage K param s taken marked carried [] s') :
    Program.Ensures ok (deliverySubTxn4 param es
      (es.map (fun e => (e.1, (lineAmounts K s e.2 e.1 param.wId).sum)))
      (es.map (fun e => (e.1, ((s.row (.order (K.offset param.wId e.1))
        (e.2, e.1, param.wId)).map OrderRecord.oCId).getD 0)))) s' (fun _ s'' =>
      DeliveryStage K param s taken marked carried (es.map Prod.fst) s'') := by
  refine .each (I := fun before s'' =>
    DeliveryStage K param s taken marked carried (before.map Prod.fst) s'') ?_ h
  intro before e after s'' hes h
  have he : e ∈ es := by simp [hes]
  obtain ⟨ho, hs⟩ := hfound e he
  obtain ⟨r, hr, hc⟩ := hs.buyer e.2 ho
  refine .run_bind (by rw [Program.run_fetch, lookup_map _ hnodup he, hr]; rfl) ?_
  refine .run_bind (by rw [Program.run_fetch, lookup_map _ hnodup he]; rfl) ?_
  refine (h.deliverySubTxn4Single (fst_not_mem hnodup hes) ho hr hc).mono ?_
  intro _ t h'
  simpa using h'

end Passes

/-- What a delivery does to the tables, in whatever order it walks the orders that it found. -/
theorem processDelivery_spec (order : IterationOrder) {rand : Rand}
    (hs : ∀ d ∈ upTo DISTRICTS_PER_WAREHOUSE, Deliverable K s param.wId d) :
    Program.Ensures ok (TpccSerialProcessor.processDelivery K order param) (s, rand) (fun _ t =>
      t.2 = rand ∧ DeliveryStage K param s (upTo DISTRICTS_PER_WAREHOUSE)
        (upTo DISTRICTS_PER_WAREHOUSE) (upTo DISTRICTS_PER_WAREHOUSE)
        (upTo DISTRICTS_PER_WAREHOUSE) t.1) := by
  have hperm := order.perm (foundOrders K s param.wId)
  have hnodup := (hperm.map Prod.fst).nodup_iff.mpr (nodup_foundOrders K s param.wId)
  have hfound : ∀ e ∈ order.entries (foundOrders K s param.wId),
      nextOrder K s param.wId e.1 = some e.2 ∧ Deliverable K s param.wId e.1 := fun e he => by
    obtain ⟨hd, ho⟩ := mem_foundOrders.mp (hperm.mem_iff.mp he)
    exact ⟨ho, hs e.1 hd⟩
  refine .bind (.onFst (DeliveryStage.deliverySubTxn1 hs)) ?_
  rintro _ t ⟨⟨rfl, h₁⟩, hr₁⟩
  refine .bind (.onFst (h₁.deliverySubTxn2 hnodup hfound)) ?_
  rintro _ t ⟨⟨rfl, h₂⟩, hr₂⟩
  refine .bind (.onFst (h₂.deliverySubTxn3 hnodup hfound)) ?_
  rintro _ t ⟨⟨rfl, h₃⟩, hr₃⟩
  refine (Program.Ensures.onFst (h₃.deliverySubTxn4 hnodup hfound)).mono ?_
  rintro _ t ⟨h₄, hr₄⟩
  exact ⟨by rw [hr₄, hr₃, hr₂, hr₁], h₄.all hperm⟩

end ImdbD.Benchmark.TPCC
