import ImdbD.TpccTableCalls

/-!
# The transactions of TPC-C on slot tables

Every sub-transaction on the bytes of the slots follows the one on values: it
finds, changes and inserts the same rows. The bound on the numbers of the orders
rises by one with every new order, and while it is an `int` no number overflows.
-/
namespace ImdbD.Benchmark.TPCC
open ByteMemory StorageEngine AtomicProgram KeyedStore TpccPopulator
open Program (Follows)
open SchemaTables (anyAnswers)

/-- What is left of a stock is an `int` again. -/
theorem FitsInt.newQuantity {n q : ℤ} (h : FitsInt n) (hq : 0 ≤ q ∧ q ≤ 91) :
    FitsInt (if n ≥ q + 10 then n - q else n + 91 - q) := by
  have hlow := h.1
  have hhigh := h.2
  split <;> constructor <;> omega

namespace RecordBytes

/-- What is checked of the columns and the lengths of the objects that are written. -/
theorem Overwrites.of_lengths {id : TableId} {params : List (ℕ × Bytes)} (lengths : List (ℕ × ℕ))
    (hlengths : params.map (fun e => (e.1, e.2.length)) = lengths)
    (hcheck : (lengths.map Prod.fst).Nodup ∧ ∀ e ∈ lengths,
      e.1 < (layout id).schema.schema.columnCount ∧ (layout id).schema.schema.getColumnSize e.1 ≤ e.2 ∧
        e.1 ∉ (layout id).schema.schema.primaryCols) : Overwrites id params := by
  subst hlengths
  have hcols : (params.map (fun e => (e.1, e.2.length))).map Prod.fst = params.map Prod.fst := by
    rw [List.map_map]
    rfl
  rw [hcols] at hcheck
  have hmem : ∀ e ∈ params, (e.1, e.2.length) ∈ params.map (fun e => (e.1, e.2.length)) :=
    fun e he => List.mem_map_of_mem (f := fun e : ℕ × Bytes => (e.1, e.2.length)) he
  refine ⟨⟨hcheck.1, fun c hc => ?_⟩, fun e he => (hcheck.2 _ (hmem e he)).2.1, fun c hc => ?_⟩
  · obtain ⟨e, he, rfl⟩ := List.mem_map.mp hc
    exact (hcheck.2 _ (hmem e he)).1
  · obtain ⟨e, he, rfl⟩ := List.mem_map.mp hc
    exact (hcheck.2 _ (hmem e he)).2.2

namespace TablesShow
variable {K : Constants} {B : ℤ} {t : SchemaTables TableId} {s : Tables} (h : TablesShow K B t s)
include h

theorem deliverySubTxn1Single (hB : B < 2 ^ 31) (param : DeliveryParam) (noDId : ℤ) :
    Follows anyAnswers (RecordBytes.deliverySubTxn1Single Slots K param noDId) t
      (TPCC.deliverySubTxn1Single K param noDId) s
      (fun x t' y s' => x = y ∧ TablesShow K B t' s') := by
  unfold RecordBytes.deliverySubTxn1Single TPCC.deliverySubTxn1Single
  refine h.select_assert_bind (fixed_registered (by simp)) rfl (fun a ha => ?_)
  refine h.getColumn_bind (fixed_registered (by simp)) ha 2
    (fun b x => b = intBytes 4 x ∧ FitsInt x) ?_ ?_
  · intro row r hfit hshows
    exact ⟨hshows.getColumn_eq (by simp [shown, districtNewOrderColumns]) rfl,
      hfit.row.1, lt_of_le_of_lt hfit.row.2 hB⟩
  rintro _ noOId ⟨rfl, hno⟩
  rw [hno.readInt]
  have hk : KeyFits (.newOrder (K.offset param.wId noDId)) (noOId, noDId, param.wId) := by
    have hfits := ha.fits
    simp [KeyFits, keyInts] at hfits ⊢
    exact ⟨hno, hfits.2, hfits.1⟩
  refine .bind (h.selectRecord_follows (newOrder_registered _ _) rfl hk) ?_
  rintro r _ ⟨found⟩ _ ⟨rfl, rfl, hr⟩
  cases found with
  | false =>
    obtain rfl := hr
    exact .pure ⟨rfl, h⟩
  | true =>
    obtain ⟨b, rfl, hb, row, hrow⟩ := hr
    refine .bind (h.deleteRecord_follows (newOrder_registered _ _) hb rfl (fun _ => rfl)) ?_
    rintro _ t₁ _ s₁ ⟨h₁, hkept⟩
    have hlt : noOId < B := by
      have hnumber : row.oId = noOId := congrArg Prod.fst (Option.some.inj hrow.key)
      exact hnumber ▸ hrow.row
    refine .bind (h₁.updateRecord_follows (fixed_registered (by simp)) (hkept _ _ _ (by simp) ha)
      (.of_lengths [(2, 4)] (by simp) (by decide)) (fun row hfit => ⟨?_, rfl, ?_⟩)) ?_
    · simp [shown, districtNewOrderColumns]
    · have hlow := hno.1
      exact ⟨by simp only; omega, by simp only; omega⟩
    · rintro _ t₂ _ s₂ ⟨h₂, -⟩
      exact .pure ⟨rfl, h₂⟩

theorem deliverySubTxn1 (hB : B < 2 ^ 31) (param : DeliveryParam) :
    Follows anyAnswers (RecordBytes.deliverySubTxn1 Slots K param) t (TPCC.deliverySubTxn1 K param) s
      (fun x t' y s' => x = y ∧ TablesShow K B t' s') := by
  refine .bind (.collect (fun noDId _ t s h => ?_) h) ?_
  · refine .bind (h.deliverySubTxn1Single hB param noDId) ?_
    rintro x t₁ _ s₁ ⟨rfl, h₁⟩
    exact .pure ⟨rfl, h₁⟩
  · rintro found t₁ _ s₁ ⟨rfl, h₁⟩
    exact .pure ⟨rfl, h₁⟩

/-- The sums are doubles and not compared. -/
theorem deliverySubTxn2Single (F : DoubleFormat) (param : DeliveryParam) (noDId noOId : ℤ) :
    Follows anyAnswers (RecordBytes.deliverySubTxn2Single Slots K F param noDId noOId) t
      (TPCC.deliverySubTxn2Single K param noDId noOId) s (fun _ t' _ s' => TablesShow K B t' s') := by
  unfold RecordBytes.deliverySubTxn2Single TPCC.deliverySubTxn2Single
  refine h.selectLines_bind (orderLine_registered _ _) (by rfl) (by rfl) (fun r numbers hrel => ?_)
  refine .assert_bind (fun hd => by rw [hrel.length_eq]; exact hd) ?_
  refine .bind (.collect₂ (P := fun _ _ => True) (I := fun t' s' => TablesShow K B t' s' ∧
    ∀ id (k : Key id) b, Refers t id k b → Refers t' id k b) hrel ?_ ⟨h, fun _ _ _ hb => hb⟩) ?_
  · rintro a number ha t₁ s₁ ⟨h₁, hkept⟩
    refine .bind (h₁.updateRecord_follows (orderLine_registered _ _) (hkept _ _ _ ha)
      (.of_lengths [(6, 8)] (by simp) (of_decide_eq_true rfl)) (fun row hfit => ⟨?_, rfl, trivial⟩)) ?_
    · simp [shown]
    · rintro _ t₂ _ s₂ ⟨h₂, hkept₂⟩
      refine (h₂.getColumn_follows (orderLine_registered _ _) (hkept₂ _ _ _ (hkept _ _ _ ha)) 8
        (fun _ _ => True) (fun _ _ _ _ => trivial)).mono ?_
      rintro b _ x _ ⟨-, rfl, rfl⟩
      exact ⟨trivial, h₂, fun id k b hb => hkept₂ id k b (hkept id k b hb)⟩
  · rintro amounts t₁ amounts' s₁ ⟨-, h₁, -⟩
    exact .pure h₁

theorem deliverySubTxn2 (F : DoubleFormat) (param : DeliveryParam) (noOIds : List (ℤ × ℤ)) :
    Follows anyAnswers (RecordBytes.deliverySubTxn2 Slots K F param noOIds) t
      (TPCC.deliverySubTxn2 K param noOIds) s (fun sums t' sums' s' =>
        List.Forall₂ (fun x y => x.1 = y.1) sums sums' ∧ TablesShow K B t' s') := by
  refine .collect₂ (S := Eq) (List.forall₂_eq_eq_eq ▸ rfl) ?_ h
  rintro entry _ rfl t s h
  refine .bind (h.deliverySubTxn2Single F param entry.1 entry.2) (fun _ t₁ _ s₁ h₁ => ?_)
  exact .pure ⟨rfl, h₁⟩

theorem deliverySubTxn3Single (param : DeliveryParam) (noDId noOId : ℤ) :
    Follows anyAnswers (RecordBytes.deliverySubTxn3Single Slots K param noDId noOId) t
      (TPCC.deliverySubTxn3Single K param noDId noOId) s
      (fun x t' y s' => x = y ∧ TablesShow K B t' s') := by
  unfold RecordBytes.deliverySubTxn3Single TPCC.deliverySubTxn3Single
  refine h.select_assert_bind (order_registered _ _) rfl (fun a ha => ?_)
  refine .bind (h.updateRecord_follows (order_registered _ _) ha
    (.of_lengths [(5, 4)] (by simp) (of_decide_eq_true rfl)) (fun row hfit => ⟨?_, rfl, hfit.row⟩)) ?_
  · simp [shown]
  · rintro _ t₁ _ s₁ ⟨h₁, hkept⟩
    rw [← Program.bind_pure (getColumn _ _)]
    refine h₁.getColumn_bind (order_registered _ _) (hkept _ _ _ ha) 1
      (fun b x => b = intBytes 4 x ∧ FitsInt x) ?_ ?_
    · exact fun row r hfit hshows => ⟨hshows.getColumn_eq (by simp [shown]) rfl, hfit.row⟩
    · rintro _ cId ⟨rfl, hc⟩
      exact .pure ⟨hc.readInt, h₁⟩

theorem deliverySubTxn3 (param : DeliveryParam) (noOIds : List (ℤ × ℤ)) :
    Follows anyAnswers (RecordBytes.deliverySubTxn3 Slots K param noOIds) t
      (TPCC.deliverySubTxn3 K param noOIds) s (fun x t' y s' => x = y ∧ TablesShow K B t' s') := by
  refine .collect (fun entry _ t s h => ?_) h
  refine .bind (h.deliverySubTxn3Single param entry.1 entry.2) ?_
  rintro cId t₁ _ s₁ ⟨rfl, h₁⟩
  exact .pure ⟨rfl, h₁⟩

omit h in
private theorem lookup_forall₂ {α β : Type} {xs : List (ℤ × α)} {ys : List (ℤ × β)}
    (hrel : List.Forall₂ (fun x y => x.1 = y.1) xs ys) (d : ℤ) {y : β} (hy : ys.lookup d = some y) :
    ∃ x, xs.lookup d = some x := by
  induction hrel with
  | nil => cases hy
  | @cons x y' xs ys hxy _ ih =>
    obtain ⟨x₁, x₂⟩ := x
    obtain ⟨y₁, y₂⟩ := y'
    obtain rfl : x₁ = y₁ := hxy
    rw [List.lookup_cons] at hy ⊢
    split at hy
    · exact ⟨x₂, rfl⟩
    · exact ih hy

theorem deliverySubTxn4 (F : DoubleFormat) (param : DeliveryParam) (noOIds : List (ℤ × ℤ))
    {sums : List (ℤ × Bytes)} {sums' : List (ℤ × ℚ)}
    (hsums : List.Forall₂ (fun x y => x.1 = y.1) sums sums') (cIds : List (ℤ × ℤ)) :
    Follows anyAnswers (RecordBytes.deliverySubTxn4 Slots F param noOIds sums cIds) t
      (TPCC.deliverySubTxn4 param noOIds sums' cIds) s (fun _ t' _ s' => TablesShow K B t' s') := by
  refine .each (fun entry _ t s h => ?_) h
  refine .fetch_bind (fun cId => ?_)
  refine .bind (R := fun _ t' _ s' => t' = t ∧ s' = s)
    (.fetch (fun y hy => (lookup_forall₂ hsums entry.1 hy).imp (fun x hx => ⟨hx, rfl, rfl⟩))) ?_
  rintro sum _ sum' _ ⟨rfl, rfl⟩
  unfold RecordBytes.deliverySubTxn4Single TPCC.deliverySubTxn4Single
  refine h.select_assert_bind (fixed_registered (by simp)) rfl (fun a ha => ?_)
  refine h.getColumn_bind (fixed_registered (by simp)) ha 16 (fun _ _ => True)
    (fun _ _ _ _ => trivial) (fun balance balance' _ => ?_)
  refine Follows.mono (h.updateRecord_follows (fixed_registered (by simp)) ha
    (.of_lengths [(16, 8)] (by simp [F.length_encode]) (of_decide_eq_true rfl))
    (fun row hfit => ⟨?_, rfl, trivial⟩)) (fun _ _ _ _ hq => hq.1)
  simp [shown]

/-- The number of the order is drawn from the district, and the bound rises. -/
theorem neworderSubTxn1 (hB : B + 1 < 2 ^ 31) (param : NewOrderParam) :
    Follows anyAnswers (RecordBytes.neworderSubTxn1 Slots.toStorageManager param) t
      (TPCC.neworderSubTxn1 param) s (fun x t' y s' => x = y ∧ y < B + 1 ∧
        (∀ off, KeyFits (.newOrder off) (y, param.dId, param.wId)) ∧ TablesShow K (B + 1) t' s') := by
  unfold RecordBytes.neworderSubTxn1 TPCC.neworderSubTxn1
  refine h.select_assert_bind (fixed_registered (by simp)) rfl (fun a ha => ?_)
  refine h.getColumn_bind (fixed_registered (by simp)) ha 10
    (fun b x => b = intBytes 4 x ∧ -2 ^ 31 ≤ x ∧ x ≤ B) ?_ ?_
  · exact fun row r hfit hshows => ⟨hshows.getColumn_eq (by simp [shown]) rfl, hfit.row⟩
  rintro _ dNextOId ⟨rfl, hlow, hle⟩
  have hfits : FitsInt dNextOId := ⟨hlow, by omega⟩
  rw [hfits.readInt]
  have hup := h.mono (show B ≤ B + 1 by omega)
  refine .bind (hup.updateRecord_follows (fixed_registered (by simp)) ha
    (.of_lengths [(10, 4)] (by simp) (by decide)) (fun row hfit => ⟨?_, rfl, ?_⟩)) ?_
  · simp [shown]
  · exact ⟨by simp only; omega, by simp only; omega⟩
  · rintro _ t₁ _ s₁ ⟨h₁, -⟩
    refine .pure ⟨rfl, by omega, fun off => ?_, h₁⟩
    have hdistrict := ha.fits
    simp only [KeyFits, keyInts, List.forall_mem_cons] at hdistrict ⊢
    exact ⟨hfits, hdistrict⟩

theorem neworderSubTxn2 (leftover : Leftover) {param : NewOrderParam} {n : ℤ}
    (hk : ∀ off, KeyFits (.newOrder off) (n, param.dId, param.wId)) (hc : FitsInt param.cId) :
    Follows anyAnswers (RecordBytes.neworderSubTxn2 Slots.toStorageManager K leftover param n) t
      (TPCC.neworderSubTxn2 K param n) s (fun _ t' _ s' => TablesShow K B t' s') := by
  refine h.insertRecord_follows (order_registered _ _)
    (k := (n, param.dId, param.wId)) ⟨rfl, ?_, hc⟩ (shows_orderRecord n) rfl rfl
  simpa only [KeyFits, keyInts, List.forall_mem_cons] using hk 0

theorem neworderSubTxn3 (leftover : Leftover) {param : NewOrderParam} {n : ℤ} (hn : n < B)
    (hk : ∀ off, KeyFits (.newOrder off) (n, param.dId, param.wId)) :
    Follows anyAnswers (RecordBytes.neworderSubTxn3 Slots.toStorageManager K leftover param n) t
      (TPCC.neworderSubTxn3 K param n) s (fun _ t' _ s' => TablesShow K B t' s') :=
  h.insertRecord_follows (newOrder_registered _ _)
    (k := (n, param.dId, param.wId)) ⟨rfl, hk _, hn⟩ (shows_newOrderRecord n) rfl rfl

theorem neworderSubTxn4Single {param : NewOrderParam} (hd : 1 ≤ param.dId ∧ param.dId ≤ 10)
    (hq : ∀ q ∈ param.iQtys, 0 ≤ q ∧ q ≤ 91) (i : ℕ) :
    Follows anyAnswers (RecordBytes.neworderSubTxn4Single Slots.toStorageManager param i) t
      (TPCC.neworderSubTxn4Single param i) s
      (fun x t' y s' => x = textBytes y ∧ TablesShow K B t' s') := by
  unfold RecordBytes.neworderSubTxn4Single TPCC.neworderSubTxn4Single
  refine .fetch_bind (fun olSupplyWId => .fetch_bind (fun olIId => ?_))
  refine .bind (R := fun x t' y s' => x = y ∧ y ∈ param.iQtys ∧ t' = t ∧ s' = s)
    (.fetch (fun q hmem => ⟨q, hmem, rfl, List.mem_of_getElem? hmem, rfl, rfl⟩)) ?_
  rintro _ _ olQuantity _ ⟨rfl, hmem, rfl, rfl⟩
  have hqty := hq _ hmem
  refine h.select_assert_bind (fixed_registered (by simp)) rfl (fun a ha => ?_)
  refine h.getColumn_bind (fixed_registered (by simp)) ha 2
    (fun b x => b = intBytes 4 x ∧ FitsInt x) ?_ ?_
  · exact fun row r hfit hshows =>
      ⟨hshows.getColumn_eq (by simp [shown, stockColumns]) rfl, hfit.row.1⟩
  rintro _ quantity ⟨rfl, hquantity⟩
  rw [hquantity.readInt]
  refine h.getColumn_bind (fixed_registered (by simp)) ha 13 (fun b x => b = intBytes 4 x) ?_ ?_
  · exact fun row r hfit hshows => hshows.getColumn_eq (by simp [shown, stockColumns]) rfl
  rintro _ ytd rfl
  refine h.getColumn_bind (fixed_registered (by simp)) ha 14 (fun b x => b = intBytes 4 x) ?_ ?_
  · exact fun row r hfit hshows => hshows.getColumn_eq (by simp [shown, stockColumns]) rfl
  rintro _ orderCnt rfl
  rw [intBytes_readInt_add, intBytes_readInt_add]
  have hread : ∀ {t s}, TablesShow K B t s → Refers t .stock (olIId, olSupplyWId) a →
      Follows anyAnswers (do
        let distColumn := toSize (param.dId + 2)
        Program.assert (distColumn < TpccSchema.getStockSchema.schema.columnCount)
        let sDist ← Slots.getColumn (slotAt .stock a) distColumn
        return sDist.takeWhile (fun b => b ≠ 0)) t
      (getColumn (⟨true⟩ : ConstRecord tpcc .stock (olIId, olSupplyWId))
        (fun r : StockRecord => r.dist (param.dId + 2))) s
      (fun x t' y s' => x = textBytes y ∧ TablesShow K B t' s') := by
    intro t s h ha
    obtain ⟨c, hc, hrange⟩ : ∃ c : ℕ, param.dId + 2 = c ∧ 3 ≤ c ∧ c ≤ 12 :=
      ⟨(param.dId + 2).toNat, by omega, by omega, by omega⟩
    have hsize : toSize c = c := by
      unfold toSize
      omega
    rw [hc, hsize, ← Program.bind_pure (getColumn _ _)]
    refine .assert_left (decide_eq_true (lt_of_le_of_lt hrange.2 (by decide))) ?_
    refine h.getColumn_bind (fixed_registered (by simp)) ha c
      (fun b x => b = fieldBytes 32 x ∧ PlainText x) ?_ ?_
    · intro row r hfit hshows
      have hplain := hfit.row.2 c
      refine ⟨hshows.getColumn_eq (dist_shown row hrange) ?_, hplain⟩
      rw [hplain.length_fieldBytes, size_dist hrange]
    · rintro _ text ⟨rfl, hplain⟩
      exact .pure ⟨hplain.takeWhile, h⟩
  refine .bind (h.updateRecord_follows (fixed_registered (by simp)) ha
    (.of_lengths [(2, 4), (13, 4), (14, 4)] (by simp) (by decide))
    (fun row hfit => ⟨?_, rfl, hquantity.newQuantity hqty, hfit.row.2⟩)) ?_
  · exact shown_stock rfl (by simp) (by simp [shown, stockColumns])
  rintro _ t₁ _ s₁ ⟨h₁, hkept⟩
  split
  · refine h₁.getColumn_bind (fixed_registered (by simp)) (hkept _ _ _ ha) 15
      (fun b x => b = intBytes 4 x) ?_ ?_
    · exact fun row r hfit hshows => hshows.getColumn_eq (by simp [shown, stockColumns]) rfl
    rintro _ remoteCnt rfl
    rw [intBytes_readInt_add]
    refine .bind (h₁.updateRecord_follows (fixed_registered (by simp)) (hkept _ _ _ ha)
      (.of_lengths [(15, 4)] (by simp) (by decide)) (fun row hfit => ⟨?_, rfl, hfit.row⟩)) ?_
    · exact shown_stock rfl (by simp) (by simp [shown, stockColumns])
    rintro _ t₂ _ s₂ ⟨h₂, hkept₂⟩
    exact hread h₂ (hkept₂ _ _ _ (hkept _ _ _ ha))
  · exact hread h₁ (hkept _ _ _ ha)

theorem neworderSubTxn4 {param : NewOrderParam} (hd : 1 ≤ param.dId ∧ param.dId ≤ 10)
    (hq : ∀ q ∈ param.iQtys, 0 ≤ q ∧ q ≤ 91) :
    Follows anyAnswers (RecordBytes.neworderSubTxn4 Slots.toStorageManager param) t
      (TPCC.neworderSubTxn4 param) s (fun xs t' ys s' =>
        List.Forall₂ (fun x y => x = textBytes y) xs ys ∧ TablesShow K B t' s') := by
  refine .collect₂ (S := Eq) (List.forall₂_eq_eq_eq ▸ rfl) ?_ h
  rintro i _ rfl t s h
  exact h.neworderSubTxn4Single hd hq i

/-- The amounts are doubles and not compared. -/
theorem neworderSubTxn5 (F : DoubleFormat) (param : NewOrderParam) :
    Follows anyAnswers (RecordBytes.neworderSubTxn5 Slots.toStorageManager F param) t
      (TPCC.neworderSubTxn5 param) s (fun xs t' ys s' =>
        List.Forall₂ (fun _ _ => True) xs ys ∧ TablesShow K B t' s') := by
  refine .collect₂ (S := Eq) (List.forall₂_eq_eq_eq ▸ rfl) ?_ h
  rintro i _ rfl t s h
  unfold RecordBytes.neworderSubTxn5Single TPCC.neworderSubTxn5Single
  refine .fetch_bind (fun iId => ?_)
  refine h.select_assert_bind (fixed_registered (by simp)) rfl (fun a ha => ?_)
  refine .fetch_bind (fun olQuantity => ?_)
  refine h.getColumn_bind (fixed_registered (by simp)) ha 3 (fun _ _ => True)
    (fun _ _ _ _ => trivial) (fun price price' _ => ?_)
  exact .pure ⟨trivial, h⟩

theorem neworderSubTxn6 (leftover : Leftover) {param : NewOrderParam} {n : ℤ}
    (hk : ∀ off, KeyFits (.newOrder off) (n, param.dId, param.wId))
    (hcount : param.iIds.length < 2 ^ 31) {sDists : List Bytes} {sDists' : List String}
    (hdists : List.Forall₂ (fun x y => x = textBytes y) sDists sDists') {olAmounts : List Bytes}
    {olAmounts' : List ℚ} (hamounts : List.Forall₂ (fun _ _ => True) olAmounts olAmounts') :
    Follows anyAnswers (RecordBytes.neworderSubTxn6 Slots.toStorageManager K leftover param n sDists
        olAmounts) t
      (TPCC.neworderSubTxn6 K param n sDists' olAmounts') s (fun _ t' _ s' => TablesShow K B t' s') := by
  refine .each (fun i hi t s h => ?_) h
  refine .fetch_bind (fun olIId => .fetch_bind (fun olSupplyWId => .fetch_bind (fun olQuantity => ?_)))
  refine .bind (.fetch_forall₂ hamounts i) ?_
  rintro olAmount _ olAmount' _ ⟨-, rfl, rfl⟩
  refine .bind (.fetch_forall₂ hdists i) ?_
  rintro _ _ sDist _ ⟨rfl, rfl, rfl⟩
  have hlt := List.mem_range.mp hi
  refine h.insertLine_follows (orderLine_registered _ _)
    (shows_orderLineRecord n i olIId olSupplyWId olQuantity _ _ sDist _) ?_
  have hfits := hk 0
  simp only [KeyFits, keyInts, List.forall_mem_cons] at hfits ⊢
  exact ⟨hfits.1, hfits.2.1, hfits.2.2.1, ⟨by omega, by omega⟩, by simp⟩

theorem paymentSubTxn1 (F : DoubleFormat) (param : PaymentParam) :
    Follows anyAnswers (RecordBytes.paymentSubTxn1 Slots.toStorageManager F param) t
      (TPCC.paymentSubTxn1 param) s (fun _ t' _ s' => TablesShow K B t' s') := by
  unfold RecordBytes.paymentSubTxn1 TPCC.paymentSubTxn1
  refine h.select_bind (fixed_registered (by simp)) rfl (by rfl) (fun a ha => ?_)
  refine h.getColumn_bind (fixed_registered (by simp)) ha 8 (fun _ _ => True)
    (fun _ _ _ _ => trivial) (fun wYtd wYtd' _ => ?_)
  refine Follows.mono (h.updateRecord_follows (fixed_registered (by simp)) ha
    (.of_lengths [(8, 8)] (by simp [F.length_encode]) (of_decide_eq_true rfl))
    (fun row hfit => ⟨?_, rfl, trivial⟩)) (fun _ _ _ _ hq => hq.1)
  simp [shown]

theorem paymentSubTxn2 (F : DoubleFormat) (param : PaymentParam) :
    Follows anyAnswers (RecordBytes.paymentSubTxn2 Slots.toStorageManager F param) t
      (TPCC.paymentSubTxn2 param) s (fun _ t' _ s' => TablesShow K B t' s') := by
  unfold RecordBytes.paymentSubTxn2 TPCC.paymentSubTxn2
  refine h.select_bind (fixed_registered (by simp)) rfl (by rfl) (fun a ha => ?_)
  refine h.getColumn_bind (fixed_registered (by simp)) ha 9 (fun _ _ => True)
    (fun _ _ _ _ => trivial) (fun dYtd dYtd' _ => ?_)
  refine Follows.mono (h.updateRecord_follows (fixed_registered (by simp)) ha
    (.of_lengths [(9, 8)] (by simp [F.length_encode]) (of_decide_eq_true rfl))
    (fun row hfit => ⟨?_, rfl, hfit.row⟩)) (fun _ _ _ _ hq => hq.1)
  simp [shown]

theorem paymentSubTxn4 (F : DoubleFormat) (param : PaymentParam) :
    Follows anyAnswers (RecordBytes.paymentSubTxn4 Slots.toStorageManager F param) t
      (TPCC.paymentSubTxn4 param) s (fun _ t' _ s' => TablesShow K B t' s') := by
  unfold RecordBytes.paymentSubTxn4 TPCC.paymentSubTxn4
  refine h.select_bind (fixed_registered (by simp)) rfl (by rfl) (fun a ha => ?_)
  refine h.getColumn_bind (fixed_registered (by simp)) ha 16 (fun _ _ => True)
    (fun _ _ _ _ => trivial) (fun balance balance' _ => ?_)
  refine h.getColumn_bind (fixed_registered (by simp)) ha 17 (fun _ _ => True)
    (fun _ _ _ _ => trivial) (fun ytdPayment ytdPayment' _ => ?_)
  refine h.getColumn_bind (fixed_registered (by simp)) ha 18 (fun b x => b = intBytes 4 x) ?_ ?_
  · exact fun row r hfit hshows => hshows.getColumn_eq (by simp [shown]) rfl
  rintro _ paymentCnt rfl
  rw [intBytes_readInt_add]
  refine Follows.mono (h.updateRecord_follows (fixed_registered (by simp)) ha
    (.of_lengths [(16, 8), (17, 8), (18, 4)] (by simp [F.length_encode]) (of_decide_eq_true rfl))
    (fun row hfit => ⟨?_, rfl, trivial⟩)) (fun _ _ _ _ hq => hq.1)
  simp [shown]

end TablesShow

/-- The slot tables show the tables of values, and the draws are the same. -/
def StatesShow (K : Constants) (B : ℤ) (t : SchemaTables TableId × Rand) (s : State) : Prop :=
  TablesShow K B t.1 s.1 ∧ t.2 = s.2

/-- Numbers that fit the columns they are copied to, and quantities that the source can draw. -/
def Fits : EventTuple → Prop
  | .newOrder param => (1 ≤ param.dId ∧ param.dId ≤ 10) ∧ FitsInt param.cId ∧
    param.iIds.length < 2 ^ 31 ∧ ∀ q ∈ param.iQtys, 0 ≤ q ∧ q ≤ 91
  | .delivery _ | .payment _ | .endExecution => True

namespace StatesShow
variable {K : Constants} {B B' : ℤ} {t : SchemaTables TableId × Rand} {s : State}
  (h : StatesShow K B t s)
include h

theorem mono (hB : B ≤ B') : StatesShow K B' t s := ⟨h.1.mono hB, h.2⟩

theorem draw {α : Type} (p : Program Rand α) :
    Follows anyAnswers p.onSnd t p.onSnd s (fun x t' y s' => x = y ∧ StatesShow K B t' s') := by
  obtain ⟨t, u⟩ := t
  obtain ⟨s, v⟩ := s
  obtain ⟨hshow, rfl⟩ := h
  refine (Follows.refl (fun _ => trivial) p _).onSnd.mono ?_
  rintro x ⟨t', u⟩ y ⟨s', v⟩ ⟨⟨hxy, huv⟩, rfl, rfl⟩
  exact ⟨hxy, hshow, huv⟩

theorem lift {α β : Type} {p : Program (SchemaTables TableId) α} {q : Program Tables β}
    {R : α → β → Prop}
    (hp : Follows anyAnswers p t.1 q s.1 (fun x t' y s' => R x y ∧ TablesShow K B' t' s')) :
    Follows anyAnswers p.onFst t q.onFst s (fun x t' y s' => R x y ∧ StatesShow K B' t' s') := by
  obtain ⟨t, u⟩ := t
  obtain ⟨s, v⟩ := s
  refine hp.onFst.mono ?_
  rintro x t' y s' ⟨⟨hxy, hshow⟩, ht, hs⟩
  exact ⟨hxy, hshow, ht.trans (h.2.trans hs.symm)⟩

theorem lift_unit {α β : Type} {p : Program (SchemaTables TableId) α} {q : Program Tables β}
    (hp : Follows anyAnswers p t.1 q s.1 (fun _ t' _ s' => TablesShow K B' t' s')) :
    Follows anyAnswers p.onFst t q.onFst s (fun _ t' _ s' => StatesShow K B' t' s') :=
  (h.lift (R := fun _ _ => True) (hp.mono (fun _ _ _ _ hshow => ⟨trivial, hshow⟩))).mono
    (fun _ _ _ _ h => h.2)

theorem processDelivery (F : DoubleFormat) (hB : B < 2 ^ 31) (order : IterationOrder)
    (param : DeliveryParam) :
    Follows anyAnswers (RecordBytes.processDelivery Slots K F order param).onFst t
      (TpccSerialProcessor.processDelivery K order param) s (fun _ t' _ s' => StatesShow K B t' s') := by
  simp only [RecordBytes.processDelivery, Program.onFst_bind]
  refine .bind (h.lift (h.1.deliverySubTxn1 hB param)) ?_
  rintro noOIds t₁ _ s₁ ⟨rfl, h₁⟩
  refine .bind (h₁.lift (h₁.1.deliverySubTxn2 F param (order.entries noOIds))) ?_
  rintro sums t₂ sums' s₂ ⟨hsums, h₂⟩
  refine .bind (h₂.lift (h₂.1.deliverySubTxn3 param (order.entries noOIds))) ?_
  rintro cIds t₃ _ s₃ ⟨rfl, h₃⟩
  exact h₃.lift_unit (h₃.1.deliverySubTxn4 F param (order.entries noOIds) hsums cIds)

theorem processNewOrder (F : DoubleFormat) (leftover : Leftover) (hB : B + 1 < 2 ^ 31)
    {param : NewOrderParam} (hfits : Fits (.newOrder param)) :
    Follows anyAnswers (RecordBytes.processNewOrder Slots.toStorageManager K F leftover param).onFst t
      (TpccSerialProcessor.processNewOrder K param) s
      (fun _ t' _ s' => StatesShow K (B + 1) t' s') := by
  obtain ⟨hd, hc, hcount, hq⟩ := hfits
  simp only [RecordBytes.processNewOrder, Program.onFst_bind]
  refine .bind (h.lift (R := fun x y => x = y ∧ y < B + 1 ∧
    ∀ off, KeyFits (.newOrder off) (y, param.dId, param.wId))
    ((h.1.neworderSubTxn1 hB param).mono (fun _ _ _ _ hq => ⟨⟨hq.1, hq.2.1, hq.2.2.1⟩, hq.2.2.2⟩))) ?_
  rintro dNextOId t₁ _ s₁ ⟨⟨rfl, hlt, hk⟩, h₁⟩
  refine .bind (h₁.lift_unit (h₁.1.neworderSubTxn2 leftover hk hc)) (fun _ t₂ _ s₂ h₂ => ?_)
  refine .bind (h₂.lift_unit (h₂.1.neworderSubTxn3 leftover hlt hk)) (fun _ t₃ _ s₃ h₃ => ?_)
  refine .bind (h₃.lift (h₃.1.neworderSubTxn4 hd hq)) ?_
  rintro sDists t₄ sDists' s₄ ⟨hdists, h₄⟩
  refine .bind (h₄.lift (h₄.1.neworderSubTxn5 F param)) ?_
  rintro olAmounts t₅ olAmounts' s₅ ⟨hamounts, h₅⟩
  exact h₅.lift_unit (h₅.1.neworderSubTxn6 leftover hk hcount hdists hamounts)

theorem processPayment (F : DoubleFormat) (leftover : Leftover) (param : PaymentParam) :
    Follows anyAnswers (RecordBytes.processPayment Slots.toStorageManager F leftover param) t
      (TpccSerialProcessor.processPayment param) s (fun _ t' _ s' => StatesShow K B t' s') := by
  refine .bind (h.lift_unit (h.1.paymentSubTxn1 F param)) (fun _ t₁ _ s₁ h₁ => ?_)
  refine .bind (h₁.lift_unit (h₁.1.paymentSubTxn2 F param)) (fun _ t₂ _ s₂ h₂ => ?_)
  refine .bind (R := fun _ t' _ s' => StatesShow K B t' s') (.bind (h₂.draw _) ?_)
    (fun _ t₃ _ s₃ h₃ => h₃.lift_unit (h₃.1.paymentSubTxn4 F param))
  rintro hData t₃ _ s₃ ⟨rfl, h₃⟩
  exact h₃.lift_unit (h₃.1.insertHistory_follows (shows_historyRecord F param hData))

omit h in
/-- A whole run of the serial processor. With every tuple the bound rises by one at most. -/
theorem start (F : DoubleFormat) (leftovers : ℕ → Leftover) (orders : ℕ → IterationOrder)
    (queue : List EventTuple) (hfits : ∀ e ∈ queue, Fits e) (txnCnt : ℕ) {t : SchemaTables TableId × Rand}
    {s : State} (h : StatesShow K B t s) (hB : B + queue.length < 2 ^ 31) :
    Follows anyAnswers (RecordBytes.start Slots K F leftovers orders txnCnt queue) t
      (TpccSerialProcessor.start K orders txnCnt queue) s
      (fun _ t' _ s' => StatesShow K (B + queue.length) t' s') := by
  induction queue generalizing B t s txnCnt with
  | nil => exact .of_none (by simp [TpccSerialProcessor.start])
  | cons e queue ih =>
    rw [List.length_cons, Nat.cast_add, Nat.cast_one] at hB ⊢
    have hrest := List.forall_mem_cons.mp hfits
    have hgo : ∀ t s, StatesShow K (B + 1) t s → Follows anyAnswers
        (RecordBytes.start Slots K F leftovers orders (txnCnt + 1) queue) t
        (TpccSerialProcessor.start K orders (txnCnt + 1) queue) s
        (fun _ t' _ s' => StatesShow K (B + (queue.length + 1)) t' s') := by
      intro t s h
      rw [show B + ((queue.length : ℤ) + 1) = B + 1 + queue.length by ring]
      exact ih hrest.2 (txnCnt + 1) h (by omega)
    cases e with
    | delivery param =>
      exact .bind (h.processDelivery F (by omega) (orders txnCnt) param)
        (fun _ t₁ _ s₁ h₁ => hgo t₁ s₁ (h₁.mono (by omega)))
    | newOrder param =>
      exact .bind (h.processNewOrder F (leftovers txnCnt) (by omega) hrest.1)
        (fun _ t₁ _ s₁ h₁ => hgo t₁ s₁ h₁)
    | payment param =>
      exact .bind (h.processPayment F (leftovers txnCnt) param)
        (fun _ t₁ _ s₁ h₁ => hgo t₁ s₁ (h₁.mono (by omega)))
    | endExecution => exact .pure (h.mono (by omega))

end StatesShow
end RecordBytes
end ImdbD.Benchmark.TPCC
