import ImdbD.TpccDelivery
import ImdbD.TpccNewOrder
import ImdbD.GuardedRun
import Mathlib.Data.Int.ConditionallyCompleteOrder

/-!
# The order books of the districts

In every state that the transactions reach, the tables of orders keep one book a
district: its orders are numbered from 1 without a gap, a last part of them waits
for its delivery, and every order has its lines. The book says that no
transaction fails, and it is what every transaction keeps.
-/
namespace ImdbD.Benchmark.TPCC
open AtomicProgram KeyedStore GuardedRun

def ScaleParams.HasDistrict (P : ScaleParams) (d w : ℤ) : Prop :=
  1 ≤ d ∧ d ≤ DISTRICTS_PER_WAREHOUSE ∧ 1 ≤ w ∧ w ≤ P.numWarehouses

/-- Of an order, who bought it and how many lines it has. -/
def orderEntry (s : Tables) (off : ℕ) (k : ℤ × ℤ × ℤ) : Option (ℤ × ℤ) :=
  (s.row (.order off) k).map (fun r => (r.oCId, r.oOlCnt))

/-- The book of a district: `next` is the number of its next order, `first` that of the next order
to deliver. -/
structure OrderBook (K : Constants) (s : Tables) (d w next first : ℤ) : Prop where
  district : ∃ r, s.row .district (d, w) = some r ∧ r.dNextOId = next
  pointer : ∃ r, s.row .districtNewOrder (w, d) = some r ∧ r.oId = first
  first_pos : 1 ≤ first
  first_le : first ≤ next
  order : ∀ off o, (s.row (.order off) (o, d, w)).isSome ↔ off = K.offset w d ∧ 1 ≤ o ∧ o < next
  newOrder : ∀ off o, (s.row (.newOrder off) (o, d, w)).isSome ↔
    off = K.offset w d ∧ first ≤ o ∧ o < next
  line : ∀ off o i, (s.row (.orderLine off) (o, d, w, i)).isSome ↔
    ∃ e, orderEntry s off (o, d, w) = some e ∧ 1 ≤ i ∧ i ≤ e.2
  count_pos : ∀ off o e, orderEntry s off (o, d, w) = some e → 1 ≤ e.2
  group : ∀ off o, (s.groups (.orderLine off) (o, d, w)).Nodup ∧
    ∀ i, i ∈ s.groups (.orderLine off) (o, d, w) ↔ (s.row (.orderLine off) (o, d, w, i)).isSome
  buyer : ∀ off o e, orderEntry s off (o, d, w) = some e → (s.row .customer (e.1, d, w)).isSome

/-- What the transactions rely on. -/
structure Ledger (K : Constants) (P : ScaleParams) (s : Tables) : Prop where
  item : ∀ i, (s.row .item i).isSome ↔ 1 ≤ i ∧ i ≤ P.numItems
  stock : ∀ i w, (s.row .stock (i, w)).isSome ↔
    1 ≤ i ∧ i ≤ P.numItems ∧ 1 ≤ w ∧ w ≤ P.numWarehouses
  warehouse : ∀ w, (s.row .warehouse w).isSome ↔ 1 ≤ w ∧ w ≤ P.numWarehouses
  district : ∀ d w, (s.row .district (d, w)).isSome ↔ P.HasDistrict d w
  customer : ∀ c d w, (s.row .customer (c, d, w)).isSome ↔
    P.HasDistrict d w ∧ 1 ≤ c ∧ c ≤ P.numCustomersPerDistrict
  book : ∀ d w, P.HasDistrict d w → ∃ next first, OrderBook K s d w next first

variable {K : Constants} {P : ScaleParams} {s s' : Tables} {d w next first o : ℤ}

namespace OrderBook

theorem nextOrder_eq (h : OrderBook K s d w next first) :
    nextOrder K s w d = if first < next then some first else none := by
  obtain ⟨r, hr, rfl⟩ := h.pointer
  have hn := h.newOrder (K.offset w d) r.oId
  simp only [true_and, le_refl] at hn
  simp [nextOrder, hr, hn]

theorem deliverable (h : OrderBook K s d w next first) : Deliverable K s w d where
  pointer := by
    obtain ⟨r, hr, -⟩ := h.pointer
    simp [hr]
  buyer o ho := by
    rw [h.nextOrder_eq] at ho
    split at ho <;> cases ho
    have hsome := (h.order (K.offset w d) first).mpr ⟨rfl, h.first_pos, ‹_›⟩
    obtain ⟨r, hr⟩ := Option.isSome_iff_exists.mp hsome
    exact ⟨r, hr, h.buyer (K.offset w d) first (r.oCId, r.oOlCnt) (by simp [orderEntry, hr])⟩
  lines o ho := by
    rw [h.nextOrder_eq] at ho
    split at ho <;> cases ho
    have hsome := (h.order (K.offset w d) first).mpr ⟨rfl, h.first_pos, ‹_›⟩
    obtain ⟨r, hr⟩ := Option.isSome_iff_exists.mp hsome
    obtain ⟨-, hmem⟩ := h.group (K.offset w d) first
    have hentry : orderEntry s (K.offset w d) (first, d, w) = some (r.oCId, r.oOlCnt) := by
      simp [orderEntry, hr]
    refine ⟨List.ne_nil_of_mem ((hmem 1).mpr ?_), hmem⟩
    exact (h.line _ _ _).mpr ⟨_, hentry, le_refl _, h.count_pos _ _ _ hentry⟩

end OrderBook

section Delivery
variable {param : DeliveryParam} {ds : List ℤ}

theorem DeliveryStage.isSome_row (h : DeliveryStage K param s ds ds ds ds s') {id : TableId}
    (hid : ∀ off, id ≠ .newOrder off) (k : Key id) : (s'.row id k).isSome = (s.row id k).isSome := by
  rw [h.row]
  cases id with
  | newOrder off => exact absurd rfl (hid off)
  | districtNewOrder | order | orderLine | customer =>
    simp only [deliveryRow]
    split <;> simp
  | _ => rfl

/-- Of an order a delivery changes the carrier at most. -/
theorem DeliveryStage.orderEntry_eq (h : DeliveryStage K param s ds ds ds ds s') :
    orderEntry s' = orderEntry s := by
  funext off k
  rw [orderEntry, h.row, orderEntry]
  simp only [deliveryRow]
  split
  · rw [Option.map_map]
    rfl
  · rfl

theorem OrderBook.delivery (h : OrderBook K s d w next first)
    (hs : DeliveryStage K param s ds ds ds ds s') :
    OrderBook K s' d w next (if w = param.wId ∧ d ∈ ds ∧ first < next then first + 1 else first) where
  district := by
    obtain ⟨r, hr, hnext⟩ := h.district
    exact ⟨r, (hs.row _ _).trans hr, hnext⟩
  pointer := by
    obtain ⟨r, hr, hfirst⟩ := h.pointer
    rw [hs.row]
    simp only [deliveryRow, h.nextOrder_eq, hr]
    by_cases hlt : first < next <;> by_cases hd : w = param.wId ∧ d ∈ ds <;> simp [hlt, hd, hfirst]
  first_pos := by
    have := h.first_pos
    split <;> omega
  first_le := by
    have := h.first_le
    split <;> omega
  order off o := by
    rw [hs.isSome_row (by simp)]
    exact h.order off o
  newOrder off o := by
    rw [hs.row]
    simp only [deliveryRow, h.nextOrder_eq]
    have hold := h.newOrder off o
    grind
  line off o i := by
    rw [hs.isSome_row (by simp), hs.orderEntry_eq]
    exact h.line off o i
  count_pos := by
    rw [hs.orderEntry_eq]
    exact h.count_pos
  group off o := by
    obtain ⟨hnodup, hmem⟩ := h.group off o
    rw [hs.groups]
    exact ⟨hnodup, fun i => by rw [hmem, hs.isSome_row (by simp)]⟩
  buyer off o e he := by
    rw [hs.orderEntry_eq] at he
    rw [hs.isSome_row (by simp)]
    exact h.buyer off o e he

theorem Ledger.delivery (h : Ledger K P s) (hs : DeliveryStage K param s ds ds ds ds s') :
    Ledger K P s' where
  item i := by
    rw [hs.isSome_row (by simp)]
    exact h.item i
  stock i w := by
    rw [hs.isSome_row (by simp)]
    exact h.stock i w
  warehouse w := by
    rw [hs.isSome_row (by simp)]
    exact h.warehouse w
  district d w := by
    rw [hs.isSome_row (by simp)]
    exact h.district d w
  customer c d w := by
    rw [hs.isSome_row (by simp)]
    exact h.customer c d w
  book d w hd := by
    obtain ⟨next, first, hbook⟩ := h.book d w hd
    exact ⟨_, _, hbook.delivery hs⟩

end Delivery

section NewOrder
variable {param : NewOrderParam} {n : ℕ}

/-- The rows that a new order looks up exist, and its lists belong together. -/
structure NewOrderParam.Valid (param : NewOrderParam) (s : Tables) : Prop where
  nonempty : param.iIds ≠ []
  lengths : param.iWIds.length = param.iIds.length ∧ param.iQtys.length = param.iIds.length
  warehouse : (s.row .warehouse param.wId).isSome
  district : (s.row .district (param.dId, param.wId)).isSome
  customer : (s.row .customer (param.cId, param.dId, param.wId)).isSome
  item : ∀ it ∈ param.items, (s.row .item it.iId).isSome
  stock : ∀ it ∈ param.items, (s.row .stock (it.iId, it.wId)).isSome

theorem OrderBook.orderable (h : OrderBook K s param.dId param.wId next first)
    (hv : param.Valid s) : Orderable K param s next where
  district := h.district
  noOrder := by
    have hno := h.order (K.offset param.wId param.dId) next
    simpa using hno
  noNewOrder := by
    have hno := h.newOrder (K.offset param.wId param.dId) next
    simpa using hno
  noLine i := by
    have hno := h.order (K.offset param.wId param.dId) next
    have hline := h.line (K.offset param.wId param.dId) next i
    have hnone : s.row (.order (K.offset param.wId param.dId)) (next, param.dId, param.wId) = none := by
      simpa using hno
    simpa [orderEntry, hnone] using hline
  lengths := hv.lengths
  item := hv.item
  stock := hv.stock

/-- An order that does not exist yet has no lines. -/
theorem OrderBook.groups_next (h : OrderBook K s param.dId param.wId next first)
    (hv : param.Valid s) :
    s.groups (.orderLine (K.offset param.wId param.dId)) (next, param.dId, param.wId) = [] := by
  refine List.eq_nil_iff_forall_not_mem.mpr (fun i hi => ?_)
  have hsome := ((h.group _ _).2 i).mp hi
  rw [(h.orderable hv).noLine i] at hsome
  cases hsome

theorem NewOrderStage.isSome_row (h : NewOrderStage K param s o n n s') {id : TableId}
    (hid : ∀ off, id ≠ .order off ∧ id ≠ .newOrder off ∧ id ≠ .orderLine off) (k : Key id) :
    (s'.row id k).isSome = (s.row id k).isSome := by
  rw [h.row]
  cases id with
  | order off => exact absurd rfl (hid off).1
  | newOrder off => exact absurd rfl (hid off).2.1
  | orderLine off => exact absurd rfl (hid off).2.2
  | district =>
    simp only [newOrderRow]
    split <;> simp
  | stock => simp [newOrderRow]
  | _ => rfl

theorem NewOrderStage.orderEntry_eq (h : NewOrderStage K param s o n n s') (off : ℕ)
    (k : ℤ × ℤ × ℤ) : orderEntry s' off k =
      if off = K.offset param.wId param.dId ∧ k = (o, param.dId, param.wId) then
        some (param.cId, (param.iIds.length : ℤ))
      else orderEntry s off k := by
  rw [orderEntry, h.row, orderEntry]
  simp only [newOrderRow]
  split <;> rfl

theorem NewOrderStage.isSome_line (h : NewOrderStage K param s o n param.iIds.length s')
    (off : ℕ) (o' d w i : ℤ) : (s'.row (.orderLine off) (o', d, w, i)).isSome ↔
      (off = K.offset param.wId param.dId ∧ (o', d, w) = (o, param.dId, param.wId) ∧
        1 ≤ i ∧ i ≤ param.iIds.length) ∨ (s.row (.orderLine off) (o', d, w, i)).isSome := by
  rw [h.row]
  simp only [newOrderRow]
  split
  · rename_i hk
    have hlt : (i - 1).toNat < param.items.length := by
      rw [param.length_items]
      omega
    rw [List.getElem?_eq_getElem hlt]
    simp [hk]
  · rename_i hk
    simp only [hk, false_or]

theorem OrderBook.newOrder_other (h : OrderBook K s d w next first)
    (hs : NewOrderStage K param s o param.iIds.length param.iIds.length s')
    (hne : (d, w) ≠ (param.dId, param.wId)) : OrderBook K s' d w next first where
  district := by
    obtain ⟨r, hr, hnext⟩ := h.district
    refine ⟨r, ?_, hnext⟩
    rw [hs.row]
    simp only [newOrderRow, if_neg hne, hr]
  pointer := by
    obtain ⟨r, hr, hfirst⟩ := h.pointer
    exact ⟨r, (hs.row _ _).trans hr, hfirst⟩
  first_pos := h.first_pos
  first_le := h.first_le
  order off o' := by
    rw [hs.row, ← h.order off o']
    simp only [newOrderRow]
    grind
  newOrder off o' := by
    rw [hs.row, ← h.newOrder off o']
    simp only [newOrderRow]
    grind
  line off o' i := by
    rw [hs.isSome_line, hs.orderEntry_eq, h.line off o' i]
    grind
  count_pos off o' e he := by
    rw [hs.orderEntry_eq] at he
    have := h.count_pos off o' e
    grind
  group off o' := by
    obtain ⟨hnodup, hmem⟩ := h.group off o'
    rw [hs.groups, if_neg (by grind)]
    refine ⟨hnodup, fun i => ?_⟩
    rw [hmem, hs.isSome_line]
    grind
  buyer off o' e he := by
    rw [hs.orderEntry_eq] at he
    rw [hs.isSome_row (by simp)]
    have := h.buyer off o' e
    grind

theorem OrderBook.newOrder_self (h : OrderBook K s param.dId param.wId next first)
    (hv : param.Valid s)
    (hs : NewOrderStage K param s next param.iIds.length param.iIds.length s') :
    OrderBook K s' param.dId param.wId (next + 1) first := by
  have hlen : 1 ≤ param.iIds.length := List.length_pos_iff.mpr hv.nonempty
  have hfirst := h.first_pos
  have hle := h.first_le
  have hnone := (h.orderable hv).noLine
  refine ⟨?_, ?_, hfirst, by omega, fun off o => ?_, fun off o => ?_, fun off o i => ?_,
    fun off o e he => ?_, fun off o => ?_, fun off o e he => ?_⟩
  · obtain ⟨r, hr, rfl⟩ := h.district
    refine ⟨{ r with dNextOId := r.dNextOId + 1 }, ?_, rfl⟩
    rw [hs.row]
    simp [newOrderRow, hr]
  · obtain ⟨r, hr, hfirst⟩ := h.pointer
    exact ⟨r, (hs.row _ _).trans hr, hfirst⟩
  · have hold := h.order off o
    rw [hs.row]
    simp only [newOrderRow]
    grind
  · have hold := h.newOrder off o
    rw [hs.row]
    simp only [newOrderRow]
    grind
  · rw [hs.isSome_line, hs.orderEntry_eq, h.line off o i]
    by_cases hk : off = K.offset param.wId param.dId ∧ o = next
    · obtain ⟨rfl, rfl⟩ := hk
      have hnew : orderEntry s (K.offset param.wId param.dId) (o, param.dId, param.wId) = none := by
        rw [orderEntry, (h.orderable hv).noOrder]
        rfl
      simp [hnew]
    · grind
  · have hold := h.count_pos off o e
    rw [hs.orderEntry_eq] at he
    grind
  · obtain ⟨hnodup, hmem⟩ := h.group off o
    rw [hs.groups]
    split
    · rename_i hk
      obtain ⟨rfl, hk⟩ := hk
      cases hk
      rw [h.groups_next hv, List.append_nil]
      refine ⟨List.nodup_reverse.mpr (nodup_upTo _), fun i => ?_⟩
      rw [List.mem_reverse, mem_upTo, hs.isSome_line, hnone i]
      simp
    · refine ⟨hnodup, fun i => ?_⟩
      rw [hmem, hs.isSome_line]
      grind
  · have hold := h.buyer off o e
    rw [hs.orderEntry_eq] at he
    rw [hs.isSome_row (by simp)]
    have := hv.customer
    grind

theorem Ledger.newOrder (h : Ledger K P s) (hv : param.Valid s) :
    ∃ next first, OrderBook K s param.dId param.wId next first ∧
      ∀ s', NewOrderStage K param s next param.iIds.length param.iIds.length s' →
        Ledger K P s' := by
  obtain ⟨next, first, hbook⟩ := h.book _ _ ((h.district _ _).mp hv.district)
  refine ⟨next, first, hbook, fun s' hs => ⟨fun i => ?_, fun i w => ?_, fun w => ?_, fun d w => ?_,
    fun c d w => ?_, ?_⟩⟩
  · rw [hs.isSome_row (by simp)]
    exact h.item i
  · rw [hs.isSome_row (by simp)]
    exact h.stock i w
  · rw [hs.isSome_row (by simp)]
    exact h.warehouse w
  · rw [hs.isSome_row (by simp)]
    exact h.district d w
  · rw [hs.isSome_row (by simp)]
    exact h.customer c d w
  · intro d w hd
    by_cases hk : (d, w) = (param.dId, param.wId)
    · cases hk
      exact ⟨_, _, hbook.newOrder_self hv hs⟩
    · obtain ⟨next', first', hbook'⟩ := h.book d w hd
      exact ⟨_, _, hbook'.newOrder_other hs hk⟩

end NewOrder

section Payment
variable {param : PaymentParam}

/-- The rows that belong to a payment exist. -/
structure PaymentParam.Valid (param : PaymentParam) (s : Tables) : Prop where
  warehouse : (s.row .warehouse param.wId).isSome
  district : (s.row .district (param.dId, param.wId)).isSome
  customer : (s.row .customer (param.cId, param.cDId, param.cWId)).isSome

/-- Every district has a customer with the number of another district's customer. -/
theorem Ledger.charged (h : Ledger K P s) (hv : param.Valid s) :
    (s.row .customer (param.cId, param.dId, param.wId)).isSome :=
  (h.customer _ _ _).mpr ⟨(h.district _ _).mp hv.district, ((h.customer _ _ _).mp hv.customer).2⟩

theorem Paid.isSome_row (h : Paid param s s') (id : TableId) (k : Key id) :
    (s'.row id k).isSome = (s.row id k).isSome := by
  rw [h.row]
  cases id with
  | warehouse | district | customer =>
    simp only [paymentRow]
    split <;> simp
  | _ => rfl

theorem Paid.orderEntry_eq (h : Paid param s s') : orderEntry s' = orderEntry s := by
  funext off k
  rw [orderEntry, h.row, orderEntry]
  rfl

theorem OrderBook.payment (h : OrderBook K s d w next first) (hs : Paid param s s') :
    OrderBook K s' d w next first where
  district := by
    obtain ⟨r, hr, hnext⟩ := h.district
    rw [hs.row]
    simp only [paymentRow, hr]
    split
    · exact ⟨_, rfl, hnext⟩
    · exact ⟨r, rfl, hnext⟩
  pointer := by
    obtain ⟨r, hr, hfirst⟩ := h.pointer
    exact ⟨r, (hs.row _ _).trans hr, hfirst⟩
  first_pos := h.first_pos
  first_le := h.first_le
  order off o := by
    rw [hs.isSome_row]
    exact h.order off o
  newOrder off o := by
    rw [hs.isSome_row]
    exact h.newOrder off o
  line off o i := by
    rw [hs.isSome_row, hs.orderEntry_eq]
    exact h.line off o i
  count_pos := by
    rw [hs.orderEntry_eq]
    exact h.count_pos
  group off o := by
    obtain ⟨hnodup, hmem⟩ := h.group off o
    rw [hs.groups]
    exact ⟨hnodup, fun i => by rw [hmem, hs.isSome_row]⟩
  buyer off o e he := by
    rw [hs.orderEntry_eq] at he
    rw [hs.isSome_row]
    exact h.buyer off o e he

theorem Ledger.payment (h : Ledger K P s) (hs : Paid param s s') : Ledger K P s' where
  item i := by
    rw [hs.isSome_row]
    exact h.item i
  stock i w := by
    rw [hs.isSome_row]
    exact h.stock i w
  warehouse w := by
    rw [hs.isSome_row]
    exact h.warehouse w
  district d w := by
    rw [hs.isSome_row]
    exact h.district d w
  customer c d w := by
    rw [hs.isSome_row]
    exact h.customer c d w
  book d w hd := by
    obtain ⟨next, first, hbook⟩ := h.book d w hd
    exact ⟨_, _, hbook.payment hs⟩

end Payment
end ImdbD.Benchmark.TPCC
