import ImdbD.TpccProcessor

/-!
# What a new order and a payment do

As for a delivery, the rows after a new order are one function of the tables
before it, which also says how far the loops over the items have come.
-/
namespace ImdbD.Benchmark.TPCC
open AtomicProgram KeyedStore

/-- One position of the three lists of a new order. -/
structure OrderItem where
  iId : ℤ
  wId : ℤ
  qty : ℤ
  deriving DecidableEq

def NewOrderParam.items (param : NewOrderParam) : List OrderItem :=
  (List.range param.iIds.length).map (fun i =>
    ⟨(param.iIds[i]?).getD 0, (param.iWIds[i]?).getD 0, (param.iQtys[i]?).getD 0⟩)

/-- The stock when one item was taken for a warehouse. -/
def StockRecord.take (wId : ℤ) (it : OrderItem) (r : StockRecord) : StockRecord :=
  { r with
    sQuantity :=
      if r.sQuantity ≥ it.qty + 10 then r.sQuantity - it.qty else r.sQuantity + 91 - it.qty
    sYtd := r.sYtd + it.qty
    sOrderCnt := r.sOrderCnt + 1
    sRemoteCnt := if it.wId ≠ wId then r.sRemoteCnt + 1 else r.sRemoteCnt }

/-- The texts for the districts stay. -/
theorem StockRecord.sDists_foldl (wId : ℤ) (its : List OrderItem) (r : StockRecord) :
    (its.foldl (fun r it => r.take wId it) r).sDists = r.sDists := by
  induction its generalizing r with
  | nil => rfl
  | cons it its ih => exact ih _

private theorem StockRecord.dist_foldl (wId : ℤ) (its : List OrderItem) (r : StockRecord) :
    (its.foldl (fun r it => r.take wId it) r).dist = r.dist := by
  funext column
  rw [StockRecord.dist, StockRecord.dist, sDists_foldl]

section NewOrder
variable (K : Constants) (param : NewOrderParam) (s : Tables)

def orderRecord (o : ℤ) : OrderRecord where
  oId := o
  oCId := param.cId
  oDId := param.dId
  oWId := param.wId
  oEntryD := param.oEntryD
  oCarrierId := NULL_CARRIER_ID
  oOlCnt := param.iIds.length
  oAllLocal := param.iWIds.all (fun wId => param.wId = wId)

/-- The district text that a line gets from the stock. -/
def distInfo (it : OrderItem) : String :=
  ((s.row .stock (it.iId, it.wId)).map (fun r => r.dist (param.dId + 2))).getD ""

def lineAmount (it : OrderItem) : ℚ :=
  it.qty * ((s.row .item it.iId).map ItemRecord.iPrice).getD 0

/-- The line for the item at position `i`. -/
def lineRecord (o : ℤ) (i : ℕ) (it : OrderItem) : OrderLineRecord where
  olOId := o
  olDId := param.dId
  olWId := param.wId
  olNumber := i + 1
  olIId := it.iId
  olSupplyWId := it.wId
  olDeliveryD := param.oEntryD
  olQuantity := it.qty
  olAmount := lineAmount s it
  olDistInfo := distInfo param s it

/-- The rows when the stock was taken for `stocked` items and `listed` lines were inserted. -/
def newOrderRow (o : ℤ) (stocked listed : ℕ) : ∀ id, Key id → Option (Row id)
  | .district, k =>
    if k = (param.dId, param.wId) then
      (s.row .district k).map (fun r => { r with dNextOId := r.dNextOId + 1 })
    else s.row .district k
  | .order off, k =>
    if off = K.offset param.wId param.dId ∧ k = (o, param.dId, param.wId) then
      some (orderRecord param o)
    else s.row (.order off) k
  | .newOrder off, k =>
    if off = K.offset param.wId param.dId ∧ k = (o, param.dId, param.wId) then
      some ⟨o, param.dId, param.wId⟩
    else s.row (.newOrder off) k
  | .stock, k =>
    (s.row .stock k).map (fun r => ((param.items.take stocked).filter (fun it =>
      (it.iId, it.wId) = k)).foldl (fun r it => r.take param.wId it) r)
  | .orderLine off, (o', d, w, i) =>
    if off = K.offset param.wId param.dId ∧ (o', d, w) = (o, param.dId, param.wId) ∧
        1 ≤ i ∧ i ≤ listed then
      (param.items[(i - 1).toNat]?).map (lineRecord param s o (i - 1).toNat)
    else s.row (.orderLine off) (o', d, w, i)
  | .item, k => s.row .item k
  | .warehouse, k => s.row .warehouse k
  | .customer, k => s.row .customer k
  | .history, k => s.row .history k
  | .districtNewOrder, k => s.row .districtNewOrder k

/-- The tables between two rounds of a new order. -/
structure NewOrderStage (o : ℤ) (stocked listed : ℕ) (s' : Tables) : Prop where
  row : ∀ id k, s'.row id k = newOrderRow K param s o stocked listed id k
  groups : ∀ off g, s'.groups (.orderLine off) g =
    if off = K.offset param.wId param.dId ∧ g = (o, param.dId, param.wId) then
      (upTo listed).reverse ++ s.groups (.orderLine off) g
    else s.groups (.orderLine off) g
  heap : s'.heap = s.heap

/-- A new order that finds what it looks for and nothing where it inserts. -/
structure Orderable (o : ℤ) : Prop where
  district : ∃ r, s.row .district (param.dId, param.wId) = some r ∧ r.dNextOId = o
  noOrder : s.row (.order (K.offset param.wId param.dId)) (o, param.dId, param.wId) = none
  noNewOrder : s.row (.newOrder (K.offset param.wId param.dId)) (o, param.dId, param.wId) = none
  noLine : ∀ i,
    s.row (.orderLine (K.offset param.wId param.dId)) (o, param.dId, param.wId, i) = none
  lengths : param.iWIds.length = param.iIds.length ∧ param.iQtys.length = param.iIds.length
  item : ∀ it ∈ param.items, (s.row .item it.iId).isSome
  stock : ∀ it ∈ param.items, (s.row .stock (it.iId, it.wId)).isSome

variable {K param s} {s' : Tables} {o : ℤ} {stocked listed : ℕ} {ok : Prop}

theorem NewOrderParam.length_items (param : NewOrderParam) :
    param.items.length = param.iIds.length := by
  simp [NewOrderParam.items]

theorem take_items_succ {i : ℕ} {it : OrderItem} (h : param.items[i]? = some it) :
    param.items.take (i + 1) = param.items.take i ++ [it] := by
  rw [List.take_add_one, h]
  rfl

/-- Within the lists every position has an item. -/
theorem Orderable.fetch (h : Orderable K param s o) {i : ℕ} (hi : i < param.iIds.length) :
    ∃ it, param.items[i]? = some it ∧ param.iIds[i]? = some it.iId ∧
      param.iWIds[i]? = some it.wId ∧ param.iQtys[i]? = some it.qty := by
  obtain ⟨hw, hq⟩ := h.lengths
  obtain ⟨x, hx⟩ : ∃ x, param.iIds[i]? = some x := ⟨_, List.getElem?_eq_getElem hi⟩
  obtain ⟨y, hy⟩ : ∃ y, param.iWIds[i]? = some y :=
    ⟨_, List.getElem?_eq_getElem (by rw [hw]; exact hi)⟩
  obtain ⟨z, hz⟩ : ∃ z, param.iQtys[i]? = some z :=
    ⟨_, List.getElem?_eq_getElem (by rw [hq]; exact hi)⟩
  exact ⟨⟨x, y, z⟩, by
    rw [NewOrderParam.items, List.getElem?_map, List.getElem?_range hi, Option.map_some, hx, hy, hz]
    rfl, hx, hy, hz⟩

/-- The tables between two rounds are determined by those before the order. -/
theorem NewOrderStage.unique {s₁ s₂ : Tables}
    (h₁ : NewOrderStage K param s o stocked listed s₁)
    (h₂ : NewOrderStage K param s o stocked listed s₂) : s₁ = s₂ := by
  refine Store.ext (fun id k => ?_) (fun id g => ?_) (fun id => ?_)
  · rw [h₁.row, h₂.row]
  · cases id with
    | orderLine off => rw [h₁.groups, h₂.groups]
    | _ => exact g.elim
  · rw [h₁.heap, h₂.heap]

private theorem run_neworderSubTxn1 {r : DistrictRecord}
    (h : s.row .district (param.dId, param.wId) = some r) :
    (neworderSubTxn1 param).run s = some (r.dNextOId,
      s.setRow .district (param.dId, param.wId) { r with dNextOId := r.dNextOId + 1 }) := by
  simp [neworderSubTxn1, h, run_getColumn h, run_updateRecord h]

private theorem run_neworderSubTxn2
    (h : s.row (.order (K.offset param.wId param.dId)) (o, param.dId, param.wId) = none) :
    (neworderSubTxn2 K param o).run s = some ((),
      s.setRow (.order (K.offset param.wId param.dId)) (o, param.dId, param.wId)
        (orderRecord param o)) :=
  run_insertRecord_plain rfl rfl h

private theorem run_neworderSubTxn3
    (h : s.row (.newOrder (K.offset param.wId param.dId)) (o, param.dId, param.wId) = none) :
    (neworderSubTxn3 K param o).run s = some ((),
      s.setRow (.newOrder (K.offset param.wId param.dId)) (o, param.dId, param.wId)
        ⟨o, param.dId, param.wId⟩) :=
  run_insertRecord_plain rfl rfl h

/-- After the first three sub-transactions the loops begin. -/
theorem Orderable.opened (h : Orderable K param s o) :
    ∃ s₁ s₂ s₃, (neworderSubTxn1 param).run s = some (o, s₁) ∧
      (neworderSubTxn2 K param o).run s₁ = some ((), s₂) ∧
      (neworderSubTxn3 K param o).run s₂ = some ((), s₃) ∧ NewOrderStage K param s o 0 0 s₃ := by
  obtain ⟨r, hr, rfl⟩ := h.district
  refine ⟨_, _, _, run_neworderSubTxn1 hr, run_neworderSubTxn2 ?_, run_neworderSubTxn3 ?_, ?_⟩
  · rw [Store.row_setRow_other _ _ (by simp), h.noOrder]
  · rw [Store.row_setRow_other _ _ (by simp), Store.row_setRow_other _ _ (by simp), h.noNewOrder]
  refine ⟨fun id k => ?_, fun off g => ?_, rfl⟩
  · cases id with
    | district =>
      rw [Store.row_setRow_other _ _ (by simp), Store.row_setRow_other _ _ (by simp)]
      by_cases hk : k = (param.dId, param.wId)
      · subst hk
        rw [Store.row_setRow_self]
        simp [newOrderRow, hr]
      · rw [Store.row_setRow_ne _ _ hk]
        simp [newOrderRow, hk]
    | order off =>
      rw [Store.row_setRow_other _ _ (by simp)]
      by_cases hk : off = K.offset param.wId param.dId ∧ k = (r.dNextOId, param.dId, param.wId)
      · obtain ⟨rfl, rfl⟩ := hk
        rw [Store.row_setRow_self]
        simp [newOrderRow]
      · rw [Store.row_setRow_of_ne _ _ (by simpa using hk), Store.row_setRow_other _ _ (by simp)]
        simp [newOrderRow, hk]
    | newOrder off =>
      by_cases hk : off = K.offset param.wId param.dId ∧ k = (r.dNextOId, param.dId, param.wId)
      · obtain ⟨rfl, rfl⟩ := hk
        rw [Store.row_setRow_self]
        simp [newOrderRow]
      · rw [Store.row_setRow_of_ne _ _ (by simpa using hk), Store.row_setRow_other _ _ (by simp),
          Store.row_setRow_other _ _ (by simp)]
        simp [newOrderRow, hk]
    | orderLine off =>
      rw [Store.row_setRow_other _ _ (by simp), Store.row_setRow_other _ _ (by simp),
        Store.row_setRow_other _ _ (by simp)]
      obtain ⟨o', d, w, i⟩ := k
      simp only [newOrderRow]
      rw [if_neg (by push_cast; omega)]
    | stock =>
      rw [Store.row_setRow_other _ _ (by simp), Store.row_setRow_other _ _ (by simp),
        Store.row_setRow_other _ _ (by simp)]
      simp [newOrderRow]
    | _ =>
      rw [Store.row_setRow_other _ _ (by simp), Store.row_setRow_other _ _ (by simp),
        Store.row_setRow_other _ _ (by simp)]
      rfl
  · split <;> simp [upTo]

private theorem run_neworderSubTxn4Single {i : ℕ} {it : OrderItem} {r : StockRecord}
    (hi : param.iIds[i]? = some it.iId) (hw : param.iWIds[i]? = some it.wId)
    (hq : param.iQtys[i]? = some it.qty) (h : s.row .stock (it.iId, it.wId) = some r) :
    (neworderSubTxn4Single param i).run s = some (r.dist (param.dId + 2),
      s.setRow .stock (it.iId, it.wId) (r.take param.wId it)) := by
  simp only [neworderSubTxn4Single, hi, hw, hq, Program.run_bind, Program.run_fetch, Option.map_some,
    Option.bind_some, run_selectRecord, h, Option.isSome_some, Program.run_assert, if_true,
    run_getColumn h, run_updateRecord h]
  split
  · rename_i hremote
    rw [Program.run_bind, run_getColumn (Store.row_setRow_self _ _), Option.bind_some,
      Program.run_bind, run_updateRecord (Store.row_setRow_self _ _), Option.bind_some,
      run_getColumn (Store.row_setRow_self _ _), Store.setRow_setRow]
    simp only [StockRecord.take, if_pos hremote]
    rfl
  · rename_i hlocal
    rw [run_getColumn (Store.row_setRow_self _ _)]
    simp only [StockRecord.take, if_neg hlocal]
    rfl

theorem NewOrderStage.neworderSubTxn4Single (h : NewOrderStage K param s o stocked 0 s')
    (hs : Orderable K param s o) (hlt : stocked < param.iIds.length) :
    Program.Ensures ok (neworderSubTxn4Single param stocked) s' (fun sDist s'' =>
      (param.items[stocked]?).map (distInfo param s) = some sDist ∧
      NewOrderStage K param s o (stocked + 1) 0 s'') := by
  obtain ⟨it, hit, hi, hw, hq⟩ := hs.fetch hlt
  obtain ⟨r, hr⟩ := Option.isSome_iff_exists.mp (hs.stock it (List.mem_of_getElem? hit))
  have hr' : s'.row .stock (it.iId, it.wId) = some (((param.items.take stocked).filter (fun it' =>
      (it'.iId, it'.wId) = (it.iId, it.wId))).foldl (fun r it => r.take param.wId it) r) := by
    rw [h.row]
    simp [newOrderRow, hr]
  have htake := take_items_succ hit
  refine .of_run (run_neworderSubTxn4Single hi hw hq hr') ⟨?_, fun id k => ?_, h.groups, h.heap⟩
  · rw [hit, StockRecord.dist_foldl, Option.map_some, distInfo, hr]
    rfl
  · by_cases hstock : (⟨id, k⟩ : Σ id, Key id) = ⟨.stock, (it.iId, it.wId)⟩
    · cases hstock
      rw [Store.row_setRow_self]
      simp [newOrderRow, hr, htake, List.filter_append]
    · rw [Store.row_setRow_of_ne _ _ hstock, h.row]
      cases id with
      | stock =>
        have hne : (it.iId, it.wId) ≠ k := fun he => hstock (by rw [he])
        simp [newOrderRow, htake, List.filter_append, hne]
      | _ => rfl

/-- A loop over the positions is at the position of which it has done as many. -/
theorem range_split {n i : ℕ} {before after : List ℕ} (h : List.range n = before ++ i :: after) :
    i = before.length ∧ i < n := by
  have hi : (List.range n)[before.length]? = some i := by
    rw [h, List.getElem?_append_right (Nat.le_refl _), Nat.sub_self]
    rfl
  obtain ⟨hlt, he⟩ := List.getElem?_eq_some_iff.mp hi
  rw [List.getElem_range] at he
  rw [List.length_range] at hlt
  exact ⟨he.symm, he ▸ hlt⟩

theorem NewOrderStage.neworderSubTxn4 (h : NewOrderStage K param s o 0 0 s')
    (hs : Orderable K param s o) :
    Program.Ensures ok (neworderSubTxn4 param) s' (fun sDists s'' =>
      sDists = param.items.map (distInfo param s) ∧
      NewOrderStage K param s o param.iIds.length 0 s'') := by
  refine (Program.Ensures.collect (I := fun before sDists s'' =>
    sDists = (param.items.take before.length).map (distInfo param s) ∧
    NewOrderStage K param s o before.length 0 s'') ?_ ⟨rfl, h⟩).mono ?_
  · rintro before sDists i after s'' hi ⟨rfl, h⟩
    obtain ⟨rfl, hlt⟩ := range_split hi
    refine (h.neworderSubTxn4Single hs hlt).mono ?_
    rintro sDist t ⟨hdist, h'⟩
    obtain ⟨it, hit, rfl⟩ := Option.map_eq_some_iff.mp hdist
    exact ⟨by simp [take_items_succ hit], by simpa using h'⟩
  · rintro sDists t ⟨rfl, h'⟩
    rw [List.length_range] at h' ⊢
    exact ⟨by rw [List.take_of_length_le (by rw [param.length_items])], h'⟩

theorem NewOrderStage.neworderSubTxn5Single (h : NewOrderStage K param s o stocked listed s')
    (hs : Orderable K param s o) {i : ℕ} (hlt : i < param.iIds.length) :
    Program.Ensures ok (neworderSubTxn5Single param i) s' (fun olAmount s'' =>
      (param.items[i]?).map (lineAmount s) = some olAmount ∧ s'' = s') := by
  obtain ⟨it, hit, hi, -, hq⟩ := hs.fetch hlt
  obtain ⟨r, hr⟩ := Option.isSome_iff_exists.mp (hs.item it (List.mem_of_getElem? hit))
  have hr' : s'.row .item it.iId = some r := by rw [h.row, ← hr]; rfl
  refine .of_run (a := it.qty * r.iPrice) ?_ ⟨by simp [hit, lineAmount, hr], rfl⟩
  simp [TPCC.neworderSubTxn5Single, hi, hq, hr', run_getColumn hr']

theorem NewOrderStage.neworderSubTxn5 (h : NewOrderStage K param s o stocked listed s')
    (hs : Orderable K param s o) :
    Program.Ensures ok (neworderSubTxn5 param) s' (fun olAmounts s'' =>
      olAmounts = param.items.map (lineAmount s) ∧ s'' = s') := by
  refine (Program.Ensures.collect (I := fun before olAmounts s'' =>
    olAmounts = (param.items.take before.length).map (lineAmount s) ∧ s'' = s') ?_ ⟨rfl, rfl⟩).mono ?_
  · rintro before olAmounts i after s'' hi ⟨rfl, rfl⟩
    obtain ⟨rfl, hlt⟩ := range_split hi
    refine (h.neworderSubTxn5Single hs hlt).mono ?_
    rintro olAmount t ⟨hamount, rfl⟩
    obtain ⟨it, hit, rfl⟩ := Option.map_eq_some_iff.mp hamount
    exact ⟨by simp [take_items_succ hit], rfl⟩
  · rintro olAmounts t ⟨rfl, ht⟩
    exact ⟨by rw [List.length_range, List.take_of_length_le (by rw [param.length_items])], ht⟩

theorem NewOrderStage.insertLine (h : NewOrderStage K param s o stocked listed s')
    (hs : Orderable K param s o) {it : OrderItem} (hit : param.items[listed]? = some it) :
    Program.Ensures ok (insertRecord (C := tpcc) (.orderLine (K.offset param.wId param.dId))
      (lineRecord param s o listed it)) s' (fun _ s'' =>
      NewOrderStage K param s o stocked (listed + 1) s'') := by
  have hnone : s'.row (.orderLine (K.offset param.wId param.dId))
      (o, param.dId, param.wId, (listed : ℤ) + 1) = none := by
    rw [h.row]
    simp [newOrderRow, hs.noLine]
  have hkey : tpcc.primaryKey (.orderLine (K.offset param.wId param.dId))
      (lineRecord param s o listed it) = some (o, param.dId, param.wId, (listed : ℤ) + 1) := rfl
  have hentry : tpcc.indexed (.orderLine (K.offset param.wId param.dId))
      (lineRecord param s o listed it) = some ((o, param.dId, param.wId), (listed : ℤ) + 1) := rfl
  refine .of_run (run_insertRecord hkey hnone) ?_
  rw [hentry]
  refine ⟨fun id k => ?_, fun off g => ?_, h.heap⟩
  · rw [Store.row_enter]
    by_cases hline : (⟨id, k⟩ : Σ id, Key id) = ⟨.orderLine (K.offset param.wId param.dId),
        (o, param.dId, param.wId, (listed : ℤ) + 1)⟩
    · cases hline
      rw [Store.row_setRow_self]
      simp [newOrderRow, hit]
    · rw [Store.row_setRow_of_ne _ _ hline, h.row]
      cases id with
      | orderLine off =>
        obtain ⟨o', d, w, i⟩ := k
        have hne : off = K.offset param.wId param.dId ∧ (o', d, w) = (o, param.dId, param.wId) →
            i ≠ listed + 1 := by
          rintro ⟨rfl, hk⟩ rfl
          cases hk
          exact hline rfl
        have hcond : (off = K.offset param.wId param.dId ∧ (o', d, w) = (o, param.dId, param.wId) ∧
              1 ≤ i ∧ i ≤ (listed : ℤ)) ↔
            (off = K.offset param.wId param.dId ∧ (o', d, w) = (o, param.dId, param.wId) ∧
              1 ≤ i ∧ i ≤ ((listed + 1 : ℕ) : ℤ)) := by
          push_cast
          constructor
          · rintro ⟨hoff, hk, h₁, h₂⟩
            exact ⟨hoff, hk, h₁, by omega⟩
          · rintro ⟨hoff, hk, h₁, h₂⟩
            have := hne ⟨hoff, hk⟩
            exact ⟨hoff, hk, h₁, by omega⟩
        simp only [newOrderRow, hcond]
      | _ => rfl
  · by_cases hoff : off = K.offset param.wId param.dId
    · subst hoff
      by_cases hg : g = (o, param.dId, param.wId)
      · subst hg
        rw [Store.groups_enter_self, Store.groups_setRow, h.groups]
        simp [upTo_succ]
      · rw [Store.groups_enter_ne _ _ hg, Store.groups_setRow, h.groups]
        simp [hg]
    · rw [Store.groups_enter_other _ (by simpa using hoff), Store.groups_setRow, h.groups]
      simp [hoff]

theorem NewOrderStage.neworderSubTxn6 (h : NewOrderStage K param s o stocked 0 s')
    (hs : Orderable K param s o) :
    Program.Ensures ok (neworderSubTxn6 K param o (param.items.map (distInfo param s))
      (param.items.map (lineAmount s))) s' (fun _ s'' =>
      NewOrderStage K param s o stocked param.iIds.length s'') := by
  refine (Program.Ensures.each (I := fun before s'' =>
    NewOrderStage K param s o stocked before.length s'') ?_ h).mono ?_
  · intro before i after s'' hi h
    obtain ⟨rfl, hlt⟩ := range_split hi
    obtain ⟨it, hit, hi, hw, hq⟩ := hs.fetch hlt
    refine .run_bind (by rw [Program.run_fetch, hi]; rfl) ?_
    refine .run_bind (by rw [Program.run_fetch, hw]; rfl) ?_
    refine .run_bind (by rw [Program.run_fetch, hq]; rfl) ?_
    refine .run_bind (by rw [Program.run_fetch, List.getElem?_map, hit]; rfl) ?_
    refine .run_bind (by rw [Program.run_fetch, List.getElem?_map, hit]; rfl) ?_
    refine (h.insertLine hs hit).mono (fun _ t h' => ?_)
    simpa using h'
  · intro _ t h'
    rwa [List.length_range] at h'

/-- What a new order does to the tables. -/
theorem processNewOrder_spec {rand : Rand} (hs : Orderable K param s o) :
    Program.Ensures ok (TpccSerialProcessor.processNewOrder K param) (s, rand) (fun _ t =>
      t.2 = rand ∧ NewOrderStage K param s o param.iIds.length param.iIds.length t.1) := by
  obtain ⟨s₁, s₂, s₃, h₁, h₂, h₃, hstage⟩ := hs.opened
  refine .run_bind (Program.run_onFst_of h₁ rand) ?_
  refine .run_bind (Program.run_onFst_of h₂ rand) ?_
  refine .run_bind (Program.run_onFst_of h₃ rand) ?_
  refine .bind (.onFst (hstage.neworderSubTxn4 hs)) ?_
  rintro _ t ⟨⟨rfl, h₄⟩, hr₄⟩
  refine .bind (.onFst (h₄.neworderSubTxn5 hs)) ?_
  rintro _ u ⟨⟨rfl, h₅⟩, hr₅⟩
  rw [← h₅] at h₄
  refine (Program.Ensures.onFst (h₄.neworderSubTxn6 hs)).mono ?_
  rintro _ v ⟨h₆, hr₆⟩
  exact ⟨by rw [hr₆, hr₅, hr₄], h₆⟩

end NewOrder

section Payment
variable (param : PaymentParam) (s : Tables)

def historyRecord (hData : String) : HistoryRecord where
  hCId := param.cId
  hCDId := param.cDId
  hCWId := param.cWId
  hDId := param.dId
  hWId := param.wId
  hDate := param.hDate
  hAmount := param.hAmount
  hData := hData

/-- The rows after a payment. -/
def paymentRow : ∀ id, Key id → Option (Row id)
  | .warehouse, k =>
    if k = param.wId then
      (s.row .warehouse k).map (fun r => { r with wYtd := r.wYtd + param.hAmount })
    else s.row .warehouse k
  | .district, k =>
    if k = (param.dId, param.wId) then
      (s.row .district k).map (fun r => { r with dYtd := r.dYtd + param.hAmount })
    else s.row .district k
  | .customer, k =>
    if k = (param.cId, param.dId, param.wId) then
      (s.row .customer k).map (fun r =>
        { r with
          cBalance := r.cBalance - param.hAmount
          cYtdPayment := r.cYtdPayment + param.hAmount
          cPaymentCnt := r.cPaymentCnt + 1 })
    else s.row .customer k
  | .item, k => s.row .item k
  | .history, k => s.row .history k
  | .stock, k => s.row .stock k
  | .districtNewOrder, k => s.row .districtNewOrder k
  | .order off, k => s.row (.order off) k
  | .newOrder off, k => s.row (.newOrder off) k
  | .orderLine off, k => s.row (.orderLine off) k

/-- The tables after a payment. -/
structure Paid (s' : Tables) : Prop where
  row : ∀ id k, s'.row id k = paymentRow param s id k
  groups : s'.groups = s.groups
  history : ∃ hData, s'.heap .history = s.heap .history ++ [historyRecord param hData]

variable {param s} {ok : Prop}

theorem run_paymentSubTxn1 {r : WarehouseRecord} (h : s.row .warehouse param.wId = some r) :
    (paymentSubTxn1 param).run s = some ((),
      s.setRow .warehouse param.wId { r with wYtd := r.wYtd + param.hAmount }) := by
  simp [paymentSubTxn1, h, run_getColumn h, run_updateRecord h]

theorem run_paymentSubTxn2 {r : DistrictRecord}
    (h : s.row .district (param.dId, param.wId) = some r) :
    (paymentSubTxn2 param).run s = some ((),
      s.setRow .district (param.dId, param.wId) { r with dYtd := r.dYtd + param.hAmount }) := by
  simp [paymentSubTxn2, h, run_getColumn h, run_updateRecord h]

private theorem paymentSubTxn3_spec (t : State) :
    Program.Ensures ok (paymentSubTxn3 param) t (fun _ t' =>
      ∃ hData, t'.1 = t.1.append .history (historyRecord param hData)) := by
  refine .bind (.onSnd ((RandomGenerator.total_generateCString 12 24).ensures t.2)) ?_
  rintro hData u ⟨hu, -⟩
  refine .of_run (Program.run_onFst_of (run_insertRecord_heap rfl) u.2) ⟨hData, ?_⟩
  rw [hu]
  rfl

theorem run_paymentSubTxn4 {r : CustomerRecord}
    (h : s.row .customer (param.cId, param.dId, param.wId) = some r) :
    (paymentSubTxn4 param).run s = some ((), s.setRow .customer (param.cId, param.dId, param.wId)
      { r with
        cBalance := r.cBalance - param.hAmount
        cYtdPayment := r.cYtdPayment + param.hAmount
        cPaymentCnt := r.cPaymentCnt + 1 }) := by
  simp [paymentSubTxn4, h, run_getColumn h, run_updateRecord h]

theorem processPayment_spec {rand : Rand} (hw : (s.row .warehouse param.wId).isSome)
    (hd : (s.row .district (param.dId, param.wId)).isSome)
    (hc : (s.row .customer (param.cId, param.dId, param.wId)).isSome) :
    Program.Ensures ok (TpccSerialProcessor.processPayment param) (s, rand) (fun _ t =>
      Paid param s t.1) := by
  obtain ⟨x, hx⟩ := Option.isSome_iff_exists.mp hw
  obtain ⟨y, hy⟩ := Option.isSome_iff_exists.mp hd
  obtain ⟨z, hz⟩ := Option.isSome_iff_exists.mp hc
  have hy' : (s.setRow .warehouse param.wId { x with wYtd := x.wYtd + param.hAmount }).row
      .district (param.dId, param.wId) = some y := by
    rw [Store.row_setRow_other _ _ (by simp), hy]
  refine .run_bind (Program.run_onFst_of (run_paymentSubTxn1 hx) rand) ?_
  refine .run_bind (Program.run_onFst_of (run_paymentSubTxn2 hy') rand) ?_
  refine .bind (paymentSubTxn3_spec _) ?_
  rintro _ ⟨s₃, rand'⟩ ⟨hData, h₃⟩
  obtain rfl : s₃ = _ := h₃
  have hz' : (((s.setRow .warehouse param.wId { x with wYtd := x.wYtd + param.hAmount }).setRow
      .district (param.dId, param.wId) { y with dYtd := y.dYtd + param.hAmount }).append
        .history (historyRecord param hData)).row .customer (param.cId, param.dId, param.wId) =
      some z := by
    rw [Store.row_append, Store.row_setRow_other _ _ (by simp), Store.row_setRow_other _ _ (by simp),
      hz]
  refine .of_run (Program.run_onFst_of (run_paymentSubTxn4 hz') rand') ?_
  refine ⟨fun id k => ?_, rfl, hData, by simp⟩
  cases id with
  | customer =>
    by_cases hk : k = (param.cId, param.dId, param.wId)
    · subst hk
      rw [Store.row_setRow_self]
      simp [paymentRow, hz]
    · rw [Store.row_setRow_ne _ _ hk, Store.row_append, Store.row_setRow_other _ _ (by simp),
        Store.row_setRow_other _ _ (by simp)]
      simp [paymentRow, hk]
  | district =>
    rw [Store.row_setRow_other _ _ (by simp), Store.row_append]
    by_cases hk : k = (param.dId, param.wId)
    · subst hk
      rw [Store.row_setRow_self]
      simp [paymentRow, hy]
    · rw [Store.row_setRow_ne _ _ hk, Store.row_setRow_other _ _ (by simp)]
      simp [paymentRow, hk]
  | warehouse =>
    rw [Store.row_setRow_other _ _ (by simp), Store.row_append, Store.row_setRow_other _ _ (by simp)]
    by_cases hk : k = param.wId
    · subst hk
      rw [Store.row_setRow_self]
      simp [paymentRow, hx]
    · rw [Store.row_setRow_ne _ _ hk]
      simp [paymentRow, hk]
  | _ =>
    rw [Store.row_setRow_other _ _ (by simp), Store.row_append,
      Store.row_setRow_other _ _ (by simp), Store.row_setRow_other _ _ (by simp)]
    rfl

end Payment
end ImdbD.Benchmark.TPCC
