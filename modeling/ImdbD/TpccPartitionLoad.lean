import ImdbD.TpccPartitionRun

/-!
# The population of TPC-C over other partitions

What is drawn does not depend on the tables, and every row is inserted into the
copy of its district.
-/
namespace ImdbD.Benchmark.TPCC
open AtomicProgram KeyedStore RandomGenerator TpccPopulator
open Program (Follows)

/-- The tables are alike, the draws and the clock the same. -/
def AlikeEnvs (K K' : Constants) (s t : Env) : Prop := AlikeStates K K' s.1 t.1 ∧ s.2 = t.2

/-- A program that only draws and reads the clock, with what is known of its result. -/
structure Blind {α : Type} (Q : α → Prop) (p : Program Env α) : Prop where
  follows : ∀ {K K' : Constants} {s t : Env}, AlikeEnvs K K' s t →
    Follows SameAnswer p s p t (fun x s y t => x = y ∧ Q x ∧ AlikeEnvs K K' s t)

/-- Any result. -/
abbrev Any {α : Type} (_ : α) : Prop := True

namespace Blind
variable {α β : Type} {Q : α → Prop} {R : β → Prop}

protected theorem pure {a : α} (h : Q a) : Blind Q (pure a : Program Env α) :=
  ⟨fun hst => .pure ⟨rfl, h, hst⟩⟩

protected theorem bind {p : Program Env α} {f : α → Program Env β} (hp : Blind Q p)
    (hf : ∀ a, Q a → Blind R (f a)) : Blind R (p >>= f) := by
  refine ⟨fun h => .bind (hp.follows h) ?_⟩
  rintro x _ _ _ ⟨rfl, hx, h₁⟩
  exact (hf x hx).follows h₁

protected theorem draw (p : Program Rand α) : Blind Any (draw p) := by
  refine ⟨?_⟩
  rintro K K' ⟨s, c⟩ ⟨t, c'⟩ ⟨h, rfl⟩
  refine (h.draw p).onFst.mono ?_
  rintro x ⟨s', _⟩ y ⟨t', _⟩ ⟨⟨hxy, h'⟩, rfl, rfl⟩
  exact ⟨hxy, trivial, h', rfl⟩

protected theorem collect {f : β → Program Env α} (hf : ∀ b, Blind Any (f b)) (bs : List β) :
    Blind Any (Program.collect f bs) := by
  refine ⟨fun h => (Follows.collect (fun b _ s t h => ?_) h).mono (fun _ _ _ _ h => ⟨h.1, trivial, h.2⟩)⟩
  exact ((hf b).follows h).mono (fun _ _ _ _ h => ⟨h.1, h.2.2⟩)

theorem generateCurrentTime : Blind Any generateCurrentTime := by
  refine ⟨?_⟩
  rintro K K' ⟨s, c⟩ ⟨t, c'⟩ ⟨h, rfl⟩
  refine .atomic (fun y t' ht => ?_)
  cases ht
  exact ⟨_, _, rfl, ⟨rfl, trivial, h, rfl⟩, .same _⟩

theorem generateItemRecord (itemId : ℤ) : Blind Any (generateItemRecord itemId) :=
  .bind (.draw _) (fun _ _ => .bind (.draw _) (fun _ _ => .bind (.draw _) (fun _ _ =>
    .bind (.draw _) (fun _ _ => .pure trivial))))

theorem generateWarehouseRecord (wId : ℤ) : Blind Any (generateWarehouseRecord wId) :=
  .bind (.draw _) (fun _ _ => .bind (.draw _) (fun _ _ => .bind (.draw _) (fun _ _ => .pure trivial)))

theorem generateDistrictRecord (dWId dId dNextOId : ℤ) :
    Blind Any (generateDistrictRecord dWId dId dNextOId) :=
  .bind (.draw _) (fun _ _ => .bind (.draw _) (fun _ _ => .bind (.draw _) (fun _ _ => .pure trivial)))

theorem generateCustomerRecord (cLast cWId cDId cId : ℤ) (badCredit : Bool) :
    Blind Any (generateCustomerRecord cLast cWId cDId cId badCredit) :=
  .bind (.draw _) (fun _ _ => .bind (.draw _) (fun _ _ => .bind (.draw _) (fun _ _ =>
    .bind (.draw _) (fun _ _ => .bind .generateCurrentTime (fun _ _ => .bind (.draw _) (fun _ _ =>
      .bind (.draw _) (fun _ _ => .pure trivial)))))))

theorem generateStockRecord (sWId sIId : ℤ) : Blind Any (generateStockRecord sWId sIId) :=
  .bind (.draw _) (fun _ _ => .bind (.collect (fun _ => .draw _) _) (fun _ _ =>
    .bind (.draw _) (fun _ _ => .pure trivial)))

theorem generateOrderRecord (oWId oDId oId oCId oOlCnt : ℤ) (newOrder : Bool) :
    Blind (fun r : OrderRecord => r.oId = oId ∧ r.oDId = oDId ∧ r.oWId = oWId)
      (generateOrderRecord oWId oDId oId oCId oOlCnt newOrder) := by
  refine .bind .generateCurrentTime (fun _ _ => ?_)
  cases newOrder with
  | true => exact .bind (Q := Any) (.pure trivial) (fun _ _ => .pure ⟨rfl, rfl, rfl⟩)
  | false => exact .bind (.draw _) (fun _ _ => .pure ⟨rfl, rfl, rfl⟩)

theorem generateOrderLineRecord (olWId olDId olOId olNumber maxItems : ℤ) (newOrder : Bool) :
    Blind (fun r : OrderLineRecord => r.olDId = olDId ∧ r.olWId = olWId)
      (generateOrderLineRecord olWId olDId olOId olNumber maxItems newOrder) := by
  refine .bind (.draw _) (fun _ _ => ?_)
  cases newOrder with
  | true =>
    refine .bind (.draw _) (fun _ _ => .bind (Q := Any) (.pure trivial) (fun _ _ => ?_))
    exact .bind (.draw _) (fun _ _ => .pure ⟨rfl, rfl⟩)
  | false =>
    refine .bind .generateCurrentTime (fun _ _ => .bind (Q := Any) (.pure trivial) (fun _ _ => ?_))
    exact .bind (.draw _) (fun _ _ => .pure ⟨rfl, rfl⟩)

theorem generateHistoryRecord (hCWId hCDId hCId : ℤ) :
    Blind Any (generateHistoryRecord hCWId hCDId hCId) :=
  .bind .generateCurrentTime (fun _ _ => .bind (.draw _) (fun _ _ => .pure trivial))

/-- What is drawn first is the same on both sides. -/
theorem follows_bind {K K' : Constants} {s t : Env} {p : Program Env α} (hp : Blind Q p)
    (h : AlikeEnvs K K' s t) {f g : α → Program Env β} {Q' : β → Env → β → Env → Prop}
    (hf : ∀ a s t, Q a → AlikeEnvs K K' s t → Follows SameAnswer (f a) s (g a) t Q') :
    Follows SameAnswer (p >>= f) s (p >>= g) t Q' := by
  refine .bind (hp.follows h) ?_
  rintro x s₁ _ t₁ ⟨rfl, hx, h₁⟩
  exact hf x s₁ t₁ hx h₁

end Blind

namespace AlikeEnvs
variable {K K' : Constants} {s t : Env} (h : AlikeEnvs K K' s t)
include h

theorem lift {p q : Program Tables Unit}
    (hp : Follows SameAnswer p s.1.1 q t.1.1 (fun _ s _ t => Alike K K' s t)) :
    Follows SameAnswer p.onFst.onFst s q.onFst.onFst t (fun _ s _ t => AlikeEnvs K K' s t) := by
  obtain ⟨s, c⟩ := s
  obtain ⟨t, c'⟩ := t
  obtain ⟨hst, rfl⟩ := h
  refine (hst.lift_unit hp).onFst.mono ?_
  rintro _ ⟨s', _⟩ _ ⟨t', _⟩ ⟨hst', rfl, rfl⟩
  exact ⟨hst', rfl⟩

/-- A row of a table without a secondary index. -/
theorem insertRow (n : RowName) {r : Row (n.table K)} {r' : Row (n.table K')}
    (hk : primaryKey _ r = some (n.key K)) (hk' : primaryKey _ r' = some (n.key K'))
    (hi : tpcc.indexed (n.table K) r = none) (hi' : tpcc.indexed (n.table K') r' = none)
    (hr : logical _ r = logical _ r') :
    Follows SameAnswer (TpccPopulator.insertRow (n.table K) r) s
      (TpccPopulator.insertRow (n.table K') r') t (fun _ s _ t => AlikeEnvs K K' s t) :=
  h.lift (h.1.1.insertRecord n hk hk' hi hi' hr)

theorem populateCustomer (cLast wId dId : ℤ) (selectedRows : List ℤ) (cId : ℤ) :
    Follows SameAnswer (TpccPopulator.populateCustomer cLast wId dId selectedRows cId) s
      (TpccPopulator.populateCustomer cLast wId dId selectedRows cId) t
      (fun _ s _ t => AlikeEnvs K K' s t) := by
  refine Blind.follows_bind (.generateCustomerRecord _ _ _ _ _) h (fun r s t _ h => ?_)
  refine .bind (h.insertRow (.customer r.cId r.cDId r.cWId) rfl rfl rfl rfl rfl) (fun _ s _ t h => ?_)
  refine Blind.follows_bind (.generateHistoryRecord _ _ _) h (fun r s t _ h => ?_)
  exact h.lift (h.1.1.insertHistory r)

theorem populateOrder (P : ScaleParams) (wId dId initialNewOrderId oId : ℤ) :
    Follows SameAnswer (TpccPopulator.populateOrder K P wId dId initialNewOrderId oId) s
      (TpccPopulator.populateOrder K' P wId dId initialNewOrderId oId) t
      (fun _ s _ t => AlikeEnvs K K' s t) := by
  refine Blind.follows_bind (.draw _) h (fun oOlCnt s t _ h => ?_)
  refine Blind.follows_bind (.generateOrderRecord _ _ _ _ _ _) h (fun r s t hr h => ?_)
  obtain ⟨-, rfl, rfl⟩ := hr
  refine .bind (h.insertRow (.order r.oId r.oDId r.oWId) rfl rfl rfl rfl rfl) (fun _ s _ t h => ?_)
  refine .bind (.each (fun olNumber _ s t h => ?_) h) (fun _ s _ t h => ?_)
  · refine Blind.follows_bind (.generateOrderLineRecord _ _ _ _ _ _) h (fun l s t hl h => ?_)
    rw [← hl.1, ← hl.2]
    exact h.lift (h.1.1.insertLine l)
  · split
    · exact h.insertRow (.newOrder oId r.oDId r.oWId) rfl rfl rfl rfl rfl
    · exact .pure h

theorem populateDistrict (P : ScaleParams) (cLast : ℤ) (rounds : ℕ) (wId dId : ℤ) :
    Follows SameAnswer (TpccPopulator.populateDistrict K P cLast rounds wId dId) s
      (TpccPopulator.populateDistrict K' P cLast rounds wId dId) t
      (fun _ s _ t => AlikeEnvs K K' s t) := by
  refine Blind.follows_bind (.generateDistrictRecord _ _ _) h (fun r s t _ h => ?_)
  refine .bind (h.insertRow (.district r.dId r.dWId) rfl rfl rfl rfl rfl) (fun _ s _ t h => ?_)
  refine Blind.follows_bind (.draw _) h (fun selectedRows s t _ h => ?_)
  refine .bind (.each (fun cId _ s t h => h.populateCustomer cLast wId dId selectedRows cId) h)
    (fun _ s _ t h => ?_)
  refine .bind (h.insertRow (.districtNewOrder wId dId) rfl rfl rfl rfl rfl) (fun _ s _ t h => ?_)
  exact .each (fun oId _ s t h => h.populateOrder P wId dId _ oId) h

theorem populateWarehouse (P : ScaleParams) (cLast : ℤ) (rounds : ℕ) (wId : ℤ) :
    Follows SameAnswer (TpccPopulator.populateWarehouse K P cLast rounds wId) s
      (TpccPopulator.populateWarehouse K' P cLast rounds wId) t
      (fun _ s _ t => AlikeEnvs K K' s t) := by
  refine Blind.follows_bind (.generateWarehouseRecord _) h (fun r s t _ h => ?_)
  refine .bind (h.insertRow (.warehouse r.wId) rfl rfl rfl rfl rfl) (fun _ s _ t h => ?_)
  refine .bind (.each (fun dId _ s t h => h.populateDistrict P cLast rounds wId dId) h)
    (fun _ s _ t h => ?_)
  refine Blind.follows_bind (.draw _) h (fun _ s t _ h => .each (fun iId _ s t h => ?_) h)
  refine Blind.follows_bind (.generateStockRecord _ _) h (fun r s t _ h => ?_)
  exact h.insertRow (.stock r.sIId r.sWId) rfl rfl rfl rfl rfl

theorem startPopulate (P : ScaleParams) (cLast : ℤ) (rounds : ℕ) :
    Follows SameAnswer (TpccPopulator.startPopulate K P cLast rounds) s
      (TpccPopulator.startPopulate K' P cLast rounds) t (fun _ s _ t => AlikeEnvs K K' s t) := by
  refine Blind.follows_bind (.draw _) h (fun _ s t _ h => ?_)
  refine .bind (.each (fun itemId _ s t h => ?_) h) (fun _ s _ t h => ?_)
  · refine Blind.follows_bind (.generateItemRecord _) h (fun r s t _ h => ?_)
    exact h.insertRow (.item r.iId) rfl rfl rfl rfl rfl
  · exact .each (fun wId _ s t h => h.populateWarehouse P cLast rounds wId) h

end AlikeEnvs
end ImdbD.Benchmark.TPCC
