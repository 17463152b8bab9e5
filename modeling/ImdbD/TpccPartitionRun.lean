import ImdbD.TpccPartition
import ImdbD.TpccSerialRun

/-!
# The transactions of TPC-C over other partitions

Every sub-transaction routes its rows by the same district at every call, so
that it finds, changes and inserts rows of the same names whatever the
partitions are.
-/
namespace ImdbD.Benchmark.TPCC
open AtomicProgram KeyedStore
open Program (Follows)

namespace Alike
variable {K K' : Constants} {s t : Tables} (h : Alike K K' s t)
include h

theorem deliverySubTxn1Single (param : DeliveryParam) (noDId : ℤ) :
    Follows SameAnswer (TPCC.deliverySubTxn1Single K param noDId) s
      (TPCC.deliverySubTxn1Single K' param noDId) t (fun x s y t => x = y ∧ Alike K K' s t) := by
  refine .bind (h.selectRecord (.districtNewOrder param.wId noDId)) ?_
  rintro r _ r' _ ⟨hr, rfl, rfl⟩
  refine .assert_bind (fun hd => hr ▸ hd) ?_
  refine .read_bind (h.getColumn (.districtNewOrder param.wId noDId) hr ?_) (fun noOId => ?_)
  · intro x y hxy
    cases hxy
    rfl
  refine .bind (h.selectRecord (.newOrder noOId noDId param.wId)) ?_
  rintro q _ q' _ ⟨hq, rfl, rfl⟩
  rw [hq]
  split
  · refine .bind (h.deleteRecord (.newOrder noOId noDId param.wId) hq (fun _ => rfl) (fun _ => rfl))
      (fun _ s₁ _ t₁ h₁ => ?_)
    refine .bind (h₁.updateRecord (.districtNewOrder param.wId noDId) hr ?_)
      (fun _ s₂ _ t₂ h₂ => .pure ⟨rfl, h₂⟩)
    intro x y hxy
    cases hxy
    rfl
  · exact .pure ⟨rfl, h⟩

theorem deliverySubTxn1 (param : DeliveryParam) :
    Follows SameAnswer (TPCC.deliverySubTxn1 K param) s (TPCC.deliverySubTxn1 K' param) t
      (fun x s y t => x = y ∧ Alike K K' s t) := by
  refine .bind (.collect (fun noDId _ s t h => ?_) h) ?_
  · refine .bind (h.deliverySubTxn1Single param noDId) ?_
    rintro x s₁ _ t₁ ⟨rfl, h₁⟩
    exact .pure ⟨rfl, h₁⟩
  · rintro found s₁ _ t₁ ⟨rfl, h₁⟩
    exact .pure ⟨rfl, h₁⟩

theorem deliverySubTxn2Single (param : DeliveryParam) (noDId noOId : ℤ) :
    Follows SameAnswer (TPCC.deliverySubTxn2Single K param noDId noOId) s
      (TPCC.deliverySubTxn2Single K' param noDId noOId) t (fun x s y t => x = y ∧ Alike K K' s t) := by
  refine .read_bind (h.selectLines noOId noDId param.wId) (fun orderLineRecords => ?_)
  refine .assert_bind id ?_
  refine .bind (.collect (fun olNumber _ s t h => ?_) h) ?_
  · refine .bind (h.updateRecord (.orderLine noOId noDId param.wId olNumber) rfl ?_)
      (fun _ s₁ _ t₁ h₁ => ?_)
    · intro x y hxy
      cases hxy
      rfl
    refine (h₁.getColumn (.orderLine noOId noDId param.wId olNumber) rfl ?_).mono ?_
    · intro x y hxy
      cases hxy
      rfl
    · rintro x _ _ _ ⟨rfl, rfl, rfl⟩
      exact ⟨rfl, h₁⟩
  · rintro amounts s₁ _ t₁ ⟨rfl, h₁⟩
    exact .pure ⟨rfl, h₁⟩

theorem deliverySubTxn2 (param : DeliveryParam) (noOIds : List (ℤ × ℤ)) :
    Follows SameAnswer (TPCC.deliverySubTxn2 K param noOIds) s (TPCC.deliverySubTxn2 K' param noOIds) t
      (fun x s y t => x = y ∧ Alike K K' s t) := by
  refine .collect (fun entry _ s t h => ?_) h
  refine .bind (h.deliverySubTxn2Single param entry.1 entry.2) ?_
  rintro sum s₁ _ t₁ ⟨rfl, h₁⟩
  exact .pure ⟨rfl, h₁⟩

theorem deliverySubTxn3Single (param : DeliveryParam) (noDId noOId : ℤ) :
    Follows SameAnswer (TPCC.deliverySubTxn3Single K param noDId noOId) s
      (TPCC.deliverySubTxn3Single K' param noDId noOId) t (fun x s y t => x = y ∧ Alike K K' s t) := by
  refine .bind (h.selectRecord (.order noOId noDId param.wId)) ?_
  rintro r _ r' _ ⟨hr, rfl, rfl⟩
  refine .assert_bind (fun hd => hr ▸ hd) ?_
  refine .bind (h.updateRecord (.order noOId noDId param.wId) hr ?_) (fun _ s₁ _ t₁ h₁ => ?_)
  · intro x y hxy
    cases hxy
    rfl
  refine (h₁.getColumn (.order noOId noDId param.wId) hr ?_).mono ?_
  · intro x y hxy
    cases hxy
    rfl
  · rintro x _ _ _ ⟨rfl, rfl, rfl⟩
    exact ⟨rfl, h₁⟩

theorem deliverySubTxn3 (param : DeliveryParam) (noOIds : List (ℤ × ℤ)) :
    Follows SameAnswer (TPCC.deliverySubTxn3 K param noOIds) s (TPCC.deliverySubTxn3 K' param noOIds) t
      (fun x s y t => x = y ∧ Alike K K' s t) := by
  refine .collect (fun entry _ s t h => ?_) h
  refine .bind (h.deliverySubTxn3Single param entry.1 entry.2) ?_
  rintro cId s₁ _ t₁ ⟨rfl, h₁⟩
  exact .pure ⟨rfl, h₁⟩

/-- Nothing in it depends on the partitions. -/
theorem deliverySubTxn4 (param : DeliveryParam) (noOIds : List (ℤ × ℤ)) (sums : List (ℤ × ℚ))
    (cIds : List (ℤ × ℤ)) :
    Follows SameAnswer (TPCC.deliverySubTxn4 param noOIds sums cIds) s
      (TPCC.deliverySubTxn4 param noOIds sums cIds) t (fun _ s _ t => Alike K K' s t) := by
  refine .each (fun entry _ s t h => ?_) h
  refine .fetch_bind (fun cId => .fetch_bind (fun sum => ?_))
  refine .bind (h.selectRecord (.customer cId entry.1 param.wId)) ?_
  rintro r _ r' _ ⟨hr, rfl, rfl⟩
  refine .assert_bind (fun hd => hr ▸ hd) ?_
  refine .read_bind (h.getColumn (.customer cId entry.1 param.wId) hr ?_) (fun balance => ?_)
  · intro x y hxy
    cases hxy
    rfl
  refine h.updateRecord (.customer cId entry.1 param.wId) hr ?_
  intro x y hxy
  cases hxy
  rfl

theorem neworderSubTxn1 (param : NewOrderParam) :
    Follows SameAnswer (TPCC.neworderSubTxn1 param) s (TPCC.neworderSubTxn1 param) t
      (fun x s y t => x = y ∧ Alike K K' s t) := by
  refine .bind (h.selectRecord (.district param.dId param.wId)) ?_
  rintro r _ r' _ ⟨hr, rfl, rfl⟩
  refine .assert_bind (fun hd => hr ▸ hd) ?_
  refine .read_bind (h.getColumn (.district param.dId param.wId) hr ?_) (fun dNextOId => ?_)
  · intro x y hxy
    cases hxy
    rfl
  refine .bind (h.updateRecord (.district param.dId param.wId) hr ?_)
    (fun _ s₁ _ t₁ h₁ => .pure ⟨rfl, h₁⟩)
  intro x y hxy
  cases hxy
  rfl

theorem neworderSubTxn2 (param : NewOrderParam) (dNextOId : ℤ) :
    Follows SameAnswer (TPCC.neworderSubTxn2 K param dNextOId) s
      (TPCC.neworderSubTxn2 K' param dNextOId) t (fun _ s _ t => Alike K K' s t) :=
  h.insertRecord (.order dNextOId param.dId param.wId) rfl rfl rfl rfl rfl

theorem neworderSubTxn3 (param : NewOrderParam) (dNextOId : ℤ) :
    Follows SameAnswer (TPCC.neworderSubTxn3 K param dNextOId) s
      (TPCC.neworderSubTxn3 K' param dNextOId) t (fun _ s _ t => Alike K K' s t) :=
  h.insertRecord (.newOrder dNextOId param.dId param.wId) rfl rfl rfl rfl rfl

theorem neworderSubTxn4Single (param : NewOrderParam) (i : ℕ) :
    Follows SameAnswer (TPCC.neworderSubTxn4Single param i) s (TPCC.neworderSubTxn4Single param i) t
      (fun x s y t => x = y ∧ Alike K K' s t) := by
  refine .fetch_bind (fun olSupplyWId => .fetch_bind (fun olIId => .fetch_bind (fun olQuantity => ?_)))
  have hcolumn : ∀ {β : Type} {f : StockRecord → β} (x y : StockRecord),
      LogicalRow.stock x = .stock y → f x = f y := by
    rintro _ _ x y hxy
    cases hxy
    rfl
  have hread : ∀ {s t} (_ : Alike K K' s t) {r r' : ConstRecord tpcc .stock (olIId, olSupplyWId)}
      (_ : r.found = r'.found), Follows SameAnswer
        (KeyedStore.getColumn r (fun r : StockRecord => r.dist (param.dId + 2))) s
        (KeyedStore.getColumn r' (fun r : StockRecord => r.dist (param.dId + 2))) t
        (fun x s y t => x = y ∧ Alike K K' s t) := fun h _ _ hr =>
    (h.getColumn (.stock olIId olSupplyWId) hr hcolumn).mono (by
      rintro x _ _ _ ⟨rfl, rfl, rfl⟩
      exact ⟨rfl, h⟩)
  refine .bind (h.selectRecord (.stock olIId olSupplyWId)) ?_
  rintro r _ r' _ ⟨hr, rfl, rfl⟩
  refine .assert_bind (fun hd => hr ▸ hd) ?_
  refine .read_bind (h.getColumn (.stock olIId olSupplyWId) hr hcolumn) (fun quantity => ?_)
  refine .read_bind (h.getColumn (.stock olIId olSupplyWId) hr hcolumn) (fun ytd => ?_)
  refine .read_bind (h.getColumn (.stock olIId olSupplyWId) hr hcolumn) (fun orderCnt => ?_)
  refine .bind (h.updateRecord (.stock olIId olSupplyWId) hr ?_) (fun _ s₁ _ t₁ h₁ => ?_)
  · intro x y hxy
    cases hxy
    rfl
  split
  · refine .read_bind (h₁.getColumn (.stock olIId olSupplyWId) hr hcolumn) (fun remoteCnt => ?_)
    refine .bind (h₁.updateRecord (.stock olIId olSupplyWId) hr ?_) (fun _ s₂ _ t₂ h₂ => hread h₂ hr)
    intro x y hxy
    cases hxy
    rfl
  · exact hread h₁ hr

theorem neworderSubTxn5Single (param : NewOrderParam) (i : ℕ) :
    Follows SameAnswer (TPCC.neworderSubTxn5Single param i) s (TPCC.neworderSubTxn5Single param i) t
      (fun x s y t => x = y ∧ Alike K K' s t) := by
  refine .fetch_bind (fun iId => ?_)
  refine .bind (h.selectRecord (.item iId)) ?_
  rintro r _ r' _ ⟨hr, rfl, rfl⟩
  refine .assert_bind (fun hd => hr ▸ hd) ?_
  refine .fetch_bind (fun olQuantity => ?_)
  refine .read_bind (h.getColumn (.item iId) hr ?_) (fun price => .pure ⟨rfl, h⟩)
  intro x y hxy
  cases hxy
  rfl

theorem neworderSubTxn6 (param : NewOrderParam) (dNextOId : ℤ) (sDists : List String)
    (olAmounts : List ℚ) :
    Follows SameAnswer (TPCC.neworderSubTxn6 K param dNextOId sDists olAmounts) s
      (TPCC.neworderSubTxn6 K' param dNextOId sDists olAmounts) t (fun _ s _ t => Alike K K' s t) := by
  refine .each (fun i _ s t h => ?_) h
  refine .fetch_bind (fun olIId => .fetch_bind (fun olSupplyWId => .fetch_bind (fun olQuantity =>
    .fetch_bind (fun olAmount => .fetch_bind (fun sDist => ?_)))))
  exact h.insertLine
    { olOId := dNextOId
      olDId := param.dId
      olWId := param.wId
      olNumber := i + 1
      olIId := olIId
      olSupplyWId := olSupplyWId
      olDeliveryD := param.oEntryD
      olQuantity := olQuantity
      olAmount := olAmount
      olDistInfo := sDist }

theorem paymentSubTxn1 (param : PaymentParam) :
    Follows SameAnswer (TPCC.paymentSubTxn1 param) s (TPCC.paymentSubTxn1 param) t
      (fun _ s _ t => Alike K K' s t) := by
  refine .bind (h.selectRecord (.warehouse param.wId)) ?_
  rintro r _ r' _ ⟨hr, rfl, rfl⟩
  refine .read_bind (h.getColumn (.warehouse param.wId) hr ?_) (fun wYtd => ?_)
  · intro x y hxy
    cases hxy
    rfl
  refine h.updateRecord (.warehouse param.wId) hr ?_
  intro x y hxy
  cases hxy
  rfl

theorem paymentSubTxn2 (param : PaymentParam) :
    Follows SameAnswer (TPCC.paymentSubTxn2 param) s (TPCC.paymentSubTxn2 param) t
      (fun _ s _ t => Alike K K' s t) := by
  refine .bind (h.selectRecord (.district param.dId param.wId)) ?_
  rintro r _ r' _ ⟨hr, rfl, rfl⟩
  refine .read_bind (h.getColumn (.district param.dId param.wId) hr ?_) (fun dYtd => ?_)
  · intro x y hxy
    cases hxy
    rfl
  refine h.updateRecord (.district param.dId param.wId) hr ?_
  intro x y hxy
  cases hxy
  rfl

theorem paymentSubTxn4 (param : PaymentParam) :
    Follows SameAnswer (TPCC.paymentSubTxn4 param) s (TPCC.paymentSubTxn4 param) t
      (fun _ s _ t => Alike K K' s t) := by
  have hcolumn : ∀ {β : Type} {f : CustomerRecord → β} (x y : CustomerRecord),
      LogicalRow.customer x = .customer y → f x = f y := by
    rintro _ _ x y hxy
    cases hxy
    rfl
  refine .bind (h.selectRecord (.customer param.cId param.dId param.wId)) ?_
  rintro r _ r' _ ⟨hr, rfl, rfl⟩
  refine .read_bind (h.getColumn (.customer param.cId param.dId param.wId) hr hcolumn) (fun balance => ?_)
  refine .read_bind (h.getColumn (.customer param.cId param.dId param.wId) hr hcolumn)
    (fun ytdPayment => ?_)
  refine .read_bind (h.getColumn (.customer param.cId param.dId param.wId) hr hcolumn)
    (fun paymentCnt => ?_)
  refine h.updateRecord (.customer param.cId param.dId param.wId) hr ?_
  intro x y hxy
  cases hxy
  rfl

end Alike

/-- The tables are alike and the draws the same. -/
def AlikeStates (K K' : Constants) (s t : State) : Prop := Alike K K' s.1 t.1 ∧ s.2 = t.2

namespace AlikeStates
variable {K K' : Constants} {s t : State} (h : AlikeStates K K' s t)
include h

theorem lift {α : Type} {p q : Program Tables α}
    (hp : Follows SameAnswer p s.1 q t.1 (fun x s y t => x = y ∧ Alike K K' s t)) :
    Follows SameAnswer p.onFst s q.onFst t (fun x s y t => x = y ∧ AlikeStates K K' s t) := by
  obtain ⟨s, u⟩ := s
  obtain ⟨t, v⟩ := t
  refine hp.onFst.mono ?_
  rintro x s' y t' ⟨⟨hxy, halike⟩, hs, ht⟩
  exact ⟨hxy, halike, hs.trans (h.2.trans ht.symm)⟩

theorem lift_unit {p q : Program Tables Unit}
    (hp : Follows SameAnswer p s.1 q t.1 (fun _ s _ t => Alike K K' s t)) :
    Follows SameAnswer p.onFst s q.onFst t (fun _ s _ t => AlikeStates K K' s t) :=
  (h.lift (hp.mono (fun _ _ _ _ halike => ⟨rfl, halike⟩))).mono (fun _ _ _ _ h => h.2)

theorem draw {α : Type} (p : Program Rand α) :
    Follows SameAnswer p.onSnd s p.onSnd t (fun x s y t => x = y ∧ AlikeStates K K' s t) := by
  obtain ⟨s, u⟩ := s
  obtain ⟨t, v⟩ := t
  obtain ⟨halike, rfl⟩ := h
  refine (Follows.refl .same p _).onSnd.mono ?_
  rintro x ⟨s', u⟩ y ⟨t', v⟩ ⟨⟨hxy, huv⟩, rfl, rfl⟩
  exact ⟨hxy, halike, huv⟩

theorem process (order : IterationOrder) (e : EventTuple) :
    Follows SameAnswer (TpccSerialProcessor.process K order e) s
      (TpccSerialProcessor.process K' order e) t (fun _ s _ t => AlikeStates K K' s t) := by
  cases e with
  | delivery param =>
    refine .bind (h.lift (h.1.deliverySubTxn1 param)) ?_
    rintro noOIds s₁ _ t₁ ⟨rfl, h₁⟩
    refine .bind (h₁.lift (h₁.1.deliverySubTxn2 param (order.entries noOIds))) ?_
    rintro sums s₂ _ t₂ ⟨rfl, h₂⟩
    refine .bind (h₂.lift (h₂.1.deliverySubTxn3 param (order.entries noOIds))) ?_
    rintro cIds s₃ _ t₃ ⟨rfl, h₃⟩
    exact h₃.lift_unit (h₃.1.deliverySubTxn4 param (order.entries noOIds) sums cIds)
  | newOrder param =>
    refine .bind (h.lift (h.1.neworderSubTxn1 param)) ?_
    rintro dNextOId s₁ _ t₁ ⟨rfl, h₁⟩
    refine .bind (h₁.lift_unit (h₁.1.neworderSubTxn2 param dNextOId)) (fun _ s₂ _ t₂ h₂ => ?_)
    refine .bind (h₂.lift_unit (h₂.1.neworderSubTxn3 param dNextOId)) (fun _ s₃ _ t₃ h₃ => ?_)
    refine .bind (h₃.lift (.collect (fun i _ s t h => h.neworderSubTxn4Single param i) h₃.1)) ?_
    rintro sDists s₄ _ t₄ ⟨rfl, h₄⟩
    refine .bind (h₄.lift (.collect (fun i _ s t h => h.neworderSubTxn5Single param i) h₄.1)) ?_
    rintro olAmounts s₅ _ t₅ ⟨rfl, h₅⟩
    exact h₅.lift_unit (h₅.1.neworderSubTxn6 param dNextOId sDists olAmounts)
  | payment param =>
    refine .bind (h.lift_unit (h.1.paymentSubTxn1 param)) (fun _ s₁ _ t₁ h₁ => ?_)
    refine .bind (h₁.lift_unit (h₁.1.paymentSubTxn2 param)) (fun _ s₂ _ t₂ h₂ => ?_)
    refine .bind (R := fun _ s _ t => AlikeStates K K' s t) (.bind (h₂.draw _) ?_)
      (fun _ s₃ _ t₃ h₃ => h₃.lift_unit (h₃.1.paymentSubTxn4 param))
    rintro hData s₃ _ t₃ ⟨rfl, h₃⟩
    exact h₃.lift_unit (h₃.1.insertHistory _)
  | endExecution => exact .pure h

/-- A whole run of the serial processor. -/
theorem start (orders : ℕ → IterationOrder) (txnCnt : ℕ) (queue : List EventTuple) :
    Follows SameAnswer (TpccSerialProcessor.start K orders txnCnt queue) s
      (TpccSerialProcessor.start K' orders txnCnt queue) t (fun _ s _ t => AlikeStates K K' s t) := by
  induction queue generalizing s t txnCnt with
  | nil => exact .of_none (by simp [TpccSerialProcessor.start])
  | cons e queue ih =>
    have hround := h.process (orders txnCnt) e
    cases e with
    | endExecution => exact .pure h
    | _ => exact .bind hround (fun _ s₁ _ t₁ h₁ => ih h₁ (txnCnt + 1))

end AlikeStates
end ImdbD.Benchmark.TPCC
