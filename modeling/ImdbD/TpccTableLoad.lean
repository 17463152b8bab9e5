import ImdbD.TpccTableRun
import ImdbD.TpccMain
import ImdbD.PartitionTransparency
import ImdbD.RowDeterminism

/-!
# TPC-C on slot tables, from the first table to the last transaction

The populator fills the slots of the registered tables with the rows that it
draws. What the transactions leave there afterwards is what they leave of the
values: a scan comes by one record for every row.
-/
namespace ImdbD.Benchmark.TPCC
open ByteMemory StorageEngine AtomicProgram KeyedStore RandomGenerator TpccPopulator TpccSource
open Program (Follows)
open SchemaTables (anyAnswers)

/-- The actions of a program neither look at the tables nor change them. -/
inductive TableFree {α : Type} : Program Env α → Prop
  | done (a : α) : TableFree (.done a)
  | step {β : Type} {action : Action Env β} {next : β → Program Env α}
      (h : ∀ (s : Env) (tables : Tables), action ((tables, s.1.2), s.2) =
        (action s).map (fun r => (r.1, (tables, r.2.1.2), r.2.2)))
      (hnext : ∀ b, TableFree (next b)) : TableFree (.step action next)

namespace TableFree
variable {α β : Type}

protected theorem pure (a : α) : TableFree (pure a : Program Env α) := .done a

protected theorem bind {p : Program Env α} {f : α → Program Env β} (hp : TableFree p)
    (hf : ∀ a, TableFree (f a)) : TableFree (p >>= f) := by
  induction hp with
  | done a => exact hf a
  | step h _ ih => exact .step h ih

protected theorem draw (p : Program Rand α) : TableFree (draw p) := by
  induction p with
  | done a => exact .done a
  | step action next ih =>
    refine .step (fun s tables => ?_) ih
    simp only [Option.map_map]
    rfl

protected theorem collect {f : β → Program Env α} (hf : ∀ b, TableFree (f b)) (bs : List β) :
    TableFree (Program.collect f bs) := by
  induction bs with
  | nil => exact .pure []
  | cons b bs ih => exact .bind (hf b) (fun _ => .bind ih (fun _ => .pure _))

theorem generateCurrentTime : TableFree generateCurrentTime :=
  .step (fun _ _ => rfl) (fun _ => .done _)

theorem generateItemRecord (itemId : ℤ) : TableFree (generateItemRecord itemId) :=
  .bind (.draw _) (fun _ => .bind (.draw _) (fun _ => .bind (.draw _) (fun _ =>
    .bind (.draw _) (fun _ => .pure _))))

theorem generateWarehouseRecord (wId : ℤ) : TableFree (generateWarehouseRecord wId) :=
  .bind (.draw _) (fun _ => .bind (.draw _) (fun _ => .bind (.draw _) (fun _ => .pure _)))

theorem generateDistrictRecord (dWId dId dNextOId : ℤ) :
    TableFree (generateDistrictRecord dWId dId dNextOId) :=
  .bind (.draw _) (fun _ => .bind (.draw _) (fun _ => .bind (.draw _) (fun _ => .pure _)))

theorem generateCustomerRecord (cLast cWId cDId cId : ℤ) (badCredit : Bool) :
    TableFree (generateCustomerRecord cLast cWId cDId cId badCredit) :=
  .bind (.draw _) (fun _ => .bind (.draw _) (fun _ => .bind (.draw _) (fun _ => .bind (.draw _) (fun _ =>
    .bind .generateCurrentTime (fun _ => .bind (.draw _) (fun _ => .bind (.draw _) (fun _ =>
      .pure _)))))))

theorem generateStockRecord (sWId sIId : ℤ) : TableFree (generateStockRecord sWId sIId) :=
  .bind (.draw _) (fun _ => .bind (.collect (fun _ => .draw _) _) (fun _ =>
    .bind (.draw _) (fun _ => .pure _)))

theorem generateOrderRecord (oWId oDId oId oCId oOlCnt : ℤ) (newOrder : Bool) :
    TableFree (generateOrderRecord oWId oDId oId oCId oOlCnt newOrder) := by
  refine .bind .generateCurrentTime (fun _ => ?_)
  cases newOrder with
  | true => exact .bind (.pure _) (fun _ => .pure _)
  | false => exact .bind (.draw _) (fun _ => .pure _)

theorem generateOrderLineRecord (olWId olDId olOId olNumber maxItems : ℤ) (newOrder : Bool) :
    TableFree (generateOrderLineRecord olWId olDId olOId olNumber maxItems newOrder) := by
  refine .bind (.draw _) (fun _ => ?_)
  cases newOrder with
  | true =>
    exact .bind (.draw _) (fun _ => .bind (.pure _) (fun _ => .bind (.draw _) (fun _ => .pure _)))
  | false =>
    exact .bind .generateCurrentTime (fun _ => .bind (.pure _) (fun _ =>
      .bind (.draw _) (fun _ => .pure _)))

theorem generateHistoryRecord (hCWId hCDId hCId : ℤ) :
    TableFree (generateHistoryRecord hCWId hCDId hCId) :=
  .bind .generateCurrentTime (fun _ => .bind (.draw _) (fun _ => .pure _))

end TableFree

namespace RecordBytes

/-- The slot tables show the tables of values; the draws and the clock are the same. -/
def EnvsShow (K : Constants) (B : ℤ) (t : RecordBytes.Env (SchemaTables TableId)) (s : TPCC.Env) : Prop :=
  StatesShow K B t.1 s.1 ∧ t.2 = s.2

namespace EnvsShow
variable {K : Constants} {B : ℤ} {t : RecordBytes.Env (SchemaTables TableId)} {s : TPCC.Env}
  (h : EnvsShow K B t s)
include h

private theorem generate_follows {α : Type} {p : Program TPCC.Env α} (hp : TableFree p) :
    Follows anyAnswers (generate p) t p s (fun x t' y s' => x = y ∧ EnvsShow K B t' s') := by
  induction hp generalizing t s with
  | done a => exact .pure ⟨rfl, h⟩
  | @step β action next haction _ ih =>
    refine .bind (f := fun b => generate (next b)) (g := next)
      (R := fun x t' y s' => x = y ∧ EnvsShow K B t' s') (.atomic (fun b s' hrun => ?_)) ?_
    · obtain ⟨⟨hshow, hrand⟩, hclock⟩ := h
      have hempty := haction s .empty
      have hself := haction s s.1.1
      rw [hrun] at hempty
      rw [show ((s.1.1, s.1.2), s.2) = s from rfl, hrun] at hself
      refine ⟨b, ((t.1.1, s'.1.2), s'.2), ?_, ⟨rfl, ⟨?_, rfl⟩, rfl⟩, trivial⟩
      · rw [hrand, hclock, hempty]
        rfl
      · have htables : s'.1.1 = s.1.1 := congrArg (fun r => r.2.1.1) (Option.some.inj hself)
        rw [htables]
        exact hshow
    · rintro b t' _ s' ⟨rfl, h'⟩
      exact ih b h'

/-- A generator of whose result something is known. -/
theorem generate_bind {α β γ : Type} {p : Program TPCC.Env α} (hp : TableFree p) {Q : α → Prop}
    (hq : Quiet False (fun _ => True) p Q) {f : α → Program (RecordBytes.Env (SchemaTables TableId)) β}
    {g : α → Program TPCC.Env γ}
    {R : β → RecordBytes.Env (SchemaTables TableId) → γ → TPCC.Env → Prop}
    (hf : ∀ a t s, Q a → EnvsShow K B t s → Follows anyAnswers (f a) t (g a) s R) :
    Follows anyAnswers (generate p >>= f) t (p >>= g) s R := by
  refine .bind ((h.generate_follows hp).and_right (P := fun a _ => Q a) ?_) ?_
  · exact fun a s' hrun => ((hq s (fun _ => trivial)).result hrun).2.2
  · rintro a t' _ s' ⟨⟨rfl, h'⟩, ha⟩
    exact hf a t' s' ha h'

theorem lift {p : Program (SchemaTables TableId) Unit} {q : Program Tables Unit}
    (hp : Follows anyAnswers p t.1.1 q s.1.1 (fun _ t' _ s' => TablesShow K B t' s')) :
    Follows anyAnswers p.onFst.onFst t q.onFst.onFst s (fun _ t' _ s' => EnvsShow K B t' s') := by
  obtain ⟨t, c⟩ := t
  obtain ⟨s, c'⟩ := s
  obtain ⟨hst, rfl⟩ := h
  refine (hst.lift_unit hp).onFst.mono ?_
  rintro _ ⟨t', _⟩ _ ⟨s', _⟩ ⟨hst', rfl, rfl⟩
  exact ⟨hst', rfl⟩

variable (F : DoubleFormat) (buffer : ∀ id, Row id → ℕ → UInt8)

/-- A row of a table without a secondary index. -/
theorem insertRow {id : TableId} {k : Key id} {row : Row id} (hid : id ∈ registeredTables K)
    (hfit : Fitting B id k row) (hindex : (layout id).indexCols = none) (hplain : indexed id row = none) :
    Follows anyAnswers (RecordBytes.insertRow Slots.toStorageManager F buffer id row) t
      (TpccPopulator.insertRow id row) s (fun _ t' _ s' => EnvsShow K B t' s') :=
  h.lift (h.1.1.insertRecord_follows hid hfit (shows_populatedRecord F _ id row) hindex hplain)

theorem populateCustomer (cLast : ℤ) {wId dId cId : ℤ} (selectedRows : List ℤ)
    (hk : KeyFits .customer (cId, dId, wId)) :
    Follows anyAnswers
      (RecordBytes.populateCustomer Slots.toStorageManager F buffer cLast wId dId selectedRows cId) t
      (TpccPopulator.populateCustomer cLast wId dId selectedRows cId) s
      (fun _ t' _ s' => EnvsShow K B t' s') := by
  refine h.generate_bind (.generateCustomerRecord _ _ _ _ _) (.customerRecord _ _ _ _ _)
    (fun r t s hr h => ?_)
  refine .bind (h.insertRow F buffer (fixed_registered (by simp)) ⟨congrArg some hr.1, hk, trivial⟩ rfl rfl)
    (fun _ t _ s h => ?_)
  refine h.generate_bind (.generateHistoryRecord _ _ _) (.historyRecord _ _ _) (fun r t s _ h => ?_)
  exact h.lift (h.1.1.insertHistory_follows (shows_populatedRecord F _ .history r))

variable (P : ScaleParams)

theorem populateOrder {wId dId oId : ℤ} (initialNewOrderId : ℤ)
    (hk : ∀ off, KeyFits (.newOrder off) (oId, dId, wId)) (ho : oId < B) :
    Follows anyAnswers
      (RecordBytes.populateOrder Slots.toStorageManager K F buffer P wId dId initialNewOrderId oId) t
      (TpccPopulator.populateOrder K P wId dId initialNewOrderId oId) s
      (fun _ t' _ s' => EnvsShow K B t' s') := by
  have hnumbers := hk 0
  simp only [KeyFits, keyInts, List.forall_mem_cons] at hnumbers
  refine h.generate_bind (.draw _) (.integer (by norm_num)) (fun oOlCnt t s hcnt h => ?_)
  refine h.generate_bind (.generateOrderRecord _ _ _ _ _ _) (.orderRecord _ _ _ _ _ _)
    (fun r t s hr h => ?_)
  refine .bind (h.insertRow F buffer (order_registered wId dId) (k := (oId, dId, wId))
    ⟨congrArg some hr.1, ?_, ?_⟩ rfl rfl) (fun _ t _ s h => ?_)
  · simpa only [KeyFits, keyInts, List.forall_mem_cons] using hnumbers
  · rw [RowFits, hr.2.1]
    exact hnumbers.1
  refine .bind (.each (fun olNumber hmem t s h => ?_) h) (fun _ t _ s h => ?_)
  · refine h.generate_bind (.generateOrderLineRecord _ _ _ _ _ _) (.orderLineRecord _ _ _ _ _ _)
      (fun l t s hl h => ?_)
    refine h.lift (h.1.1.insertLine_follows (orderLine_registered wId dId)
      (shows_populatedRecord F _ (.orderLine (K.offset wId dId)) l) ?_)
    have hrange := mem_upTo.mp hmem
    rw [hl.1]
    simp only [KeyFits, keyInts, List.forall_mem_cons]
    exact ⟨hnumbers.1, hnumbers.2.1, hnumbers.2.2.1, ⟨by omega, by omega⟩, by simp⟩
  · split
    · exact h.insertRow F buffer (newOrder_registered wId dId) (k := (oId, dId, wId))
        ⟨rfl, hk _, ho⟩ rfl rfl
    · exact .pure h

omit h in
theorem fits_upTo {n : ℕ} (hn : n < 2 ^ 31) {i : ℤ} (hi : i ∈ upTo n) : FitsInt i := by
  have hrange := mem_upTo.mp hi
  constructor <;> omega

/-- The bound on the numbers of the orders is the number of the next order. -/
theorem populateDistrict {wId dId : ℤ} (cLast : ℤ) (rounds : ℕ) (hw : FitsInt wId) (hd : FitsInt dId)
    (hB : B = P.numCustomersPerDistrict + 1) (hP : P.numCustomersPerDistrict + 1 < 2 ^ 31) :
    Follows anyAnswers
      (RecordBytes.populateDistrict Slots.toStorageManager K F buffer P cLast rounds wId dId) t
      (TpccPopulator.populateDistrict K P cLast rounds wId dId) s
      (fun _ t' _ s' => EnvsShow K B t' s') := by
  have hnewOrders := P.newOrders_le
  refine h.generate_bind (.generateDistrictRecord _ _ _) (.districtRecord _ _ _) (fun r t s hr h => ?_)
  refine .bind (h.insertRow F buffer (fixed_registered (by simp)) (k := (dId, wId))
    ⟨congrArg some hr.1, ?_, ?_⟩ rfl rfl) (fun _ t _ s h => ?_)
  · simp [KeyFits, keyInts, hw, hd]
  · rw [RowFits, hr.2.2]
    omega
  refine h.generate_bind (.draw _) (.drawn False.elim) (fun selectedRows t s _ h => ?_)
  refine .bind (.each (fun cId hmem t s h => ?_) h) (fun _ t _ s h => ?_)
  · refine h.populateCustomer F buffer cLast selectedRows ?_
    simp [KeyFits, keyInts, hw, hd, fits_upTo (by omega) hmem]
  refine .bind (h.insertRow F buffer (fixed_registered (by simp)) (k := (wId, dId))
    ⟨rfl, ?_, ?_⟩ rfl rfl) (fun _ t _ s h => ?_)
  · simp [KeyFits, keyInts, hw, hd]
  · simp only [RowFits, generateDistrictNewOrderRecord]
    omega
  refine .each (fun oId hmem t s h => ?_) h
  refine h.populateOrder F buffer P _ (fun off => ?_) ?_
  · simp [KeyFits, keyInts, hw, hd, fits_upTo (by omega) hmem]
  · have hrange := mem_upTo.mp hmem
    omega

theorem populateWarehouse {wId : ℤ} (cLast : ℤ) (rounds : ℕ) (hw : FitsInt wId)
    (hB : B = P.numCustomersPerDistrict + 1) (hP : P.numCustomersPerDistrict + 1 < 2 ^ 31)
    (hitems : P.numItems < 2 ^ 31) :
    Follows anyAnswers
      (RecordBytes.populateWarehouse Slots.toStorageManager K F buffer P cLast rounds wId) t
      (TpccPopulator.populateWarehouse K P cLast rounds wId) s
      (fun _ t' _ s' => EnvsShow K B t' s') := by
  refine h.generate_bind (.generateWarehouseRecord _) (.warehouseRecord _) (fun r t s hr h => ?_)
  refine .bind (h.insertRow F buffer (fixed_registered (by simp)) (k := wId)
    ⟨congrArg some hr.1, ?_, trivial⟩ rfl rfl) (fun _ t _ s h => ?_)
  · simp [KeyFits, keyInts, hw]
  refine .bind (.each (fun dId hmem t s h => ?_) h) (fun _ t _ s h => ?_)
  · exact h.populateDistrict F buffer P cLast rounds hw (fits_upTo (n := 10) (by decide) hmem) hB hP
  refine h.generate_bind (.draw _) (.drawn False.elim) (fun _ t s _ h => ?_)
  refine .each (fun iId hmem t s h => ?_) h
  refine h.generate_bind (.generateStockRecord _ _) (.stockRecord wId iId) (fun r t s hr h => ?_)
  obtain ⟨hkey, hlow, hhigh, -, -, -, hlabelled⟩ := hr
  refine h.insertRow F buffer (fixed_registered (by simp)) (k := (iId, wId))
    ⟨congrArg some hkey, ?_, ?_, plainText_dist hlabelled⟩ rfl rfl
  · simp [KeyFits, keyInts, hw, fits_upTo hitems hmem]
  · constructor <;> omega

theorem startPopulate (cLast : ℤ) (rounds : ℕ) (hB : B = P.numCustomersPerDistrict + 1)
    (hP : P.numCustomersPerDistrict + 1 < 2 ^ 31) (hitems : P.numItems < 2 ^ 31)
    (hwarehouses : P.numWarehouses < 2 ^ 31) :
    Follows anyAnswers
      (RecordBytes.startPopulate Slots.toStorageManager K F buffer P cLast rounds) t
      (TpccPopulator.startPopulate K P cLast rounds) s (fun _ t' _ s' => EnvsShow K B t' s') := by
  refine h.generate_bind (.draw _) (.drawn False.elim) (fun _ t s _ h => ?_)
  refine .bind (.each (fun itemId hmem t s h => ?_) h) (fun _ t _ s h => ?_)
  · refine h.generate_bind (.generateItemRecord _) (.itemRecord _) (fun r t s hr h => ?_)
    refine h.insertRow F buffer (fixed_registered (by simp)) (k := itemId)
      ⟨congrArg some hr, ?_, trivial⟩ rfl rfl
    simp [KeyFits, keyInts, fits_upTo hitems hmem]
  · exact .each (fun wId hmem t s h => h.populateWarehouse F buffer P cLast rounds
      (fits_upTo hwarehouses hmem) hB hP hitems) h

end EnvsShow

/-- The bytes of a record that shows the row. -/
def ShownBy (id : TableId) (row : Row id) (data : Bytes) : Prop :=
  ∃ r : Record (layout id).schema, r.data = data ∧ Shows id row r

/-- The slots hold the rows and nothing else: a scan of a registered table comes by a record for
every row, and by no two with one key. -/
structure SlotsHold (K : Constants) (t : SchemaTables TableId) (s : Tables) : Prop where
  complete : ∀ id k, (s.row id k).isSome → id ∈ registeredTables K
  rows : ∀ id ∈ registeredTables K, id ≠ .history → ∃ table, t id = some table ∧
    (table.records.map (layout id).schema.schema.getPrimaryKeySymbol).Nodup ∧
    (∀ k row, s.row id k = some row → ∃ data ∈ table.records, ShownBy id row data) ∧
    ∀ data ∈ table.records, ∃ k row, s.row id k = some row ∧ ShownBy id row data
  payments : ∃ table records, t .history = some table ∧ table.records.Perm records ∧
    List.Forall₂ (fun row data => ShownBy .history row data) (s.heap .history) records

end RecordBytes

theorem RowName.table_registered (K : Constants) (n : RowName) : n.table K ∈ registeredTables K := by
  cases n with
  | order o d w => exact order_registered w d
  | newOrder o d w => exact newOrder_registered w d
  | orderLine o d w number => exact orderLine_registered w d
  | _ => exact fixed_registered (by simp [RowName.table])

namespace RecordBytes
variable {K : Constants} {B : ℤ} {t : SchemaTables TableId} {s : Tables}

theorem TablesShow.slotsHold (h : TablesShow K B t s) (hrouted : Routed K s) : SlotsHold K t s where
  complete id k hk := by
    obtain ⟨n, hn⟩ := hrouted id k hk
    cases hn
    exact n.table_registered K
  rows id hid hne := by
    obtain ⟨db, hrep, hstored⟩ := h
    obtain ⟨session, htable, hholds⟩ := hrep.keyed id ⟨hid, not_keyless hne⟩
    have hcontents := hholds.contents (layout_keyed id hne)
    refine ⟨session.table, htable, hcontents.distinct, fun k row hrow => ?_, fun data hdata => ?_⟩
    · obtain ⟨r, hr, hshows⟩ := hstored.exists_record hrow
      exact ⟨r.data, (hcontents.mem_iff r.data).mpr ⟨_, r, hr, rfl⟩, r, rfl, hshows⟩
    · obtain ⟨bs, r, hr, rfl⟩ := (hcontents.mem_iff data).mp hdata
      obtain ⟨k, hk, rfl⟩ := hstored.only id bs (by simp [hr])
      have hrel := hstored.rows id k hk
      rw [hr] at hrel
      cases hrow : s.row id k with
      | none =>
        rw [hrow] at hrel
        cases hrel
      | some row =>
        rw [hrow] at hrel
        cases hrel with
        | some hshows => exact ⟨k, row, hrow, r, rfl, hshows⟩
  payments := by
    obtain ⟨db, hrep, hstored⟩ := h
    obtain ⟨session, htable, hgrew⟩ := hrep.heaps .history (fixed_registered (by simp)) rfl
    refine ⟨session.table, (db.heap .history).map Record.data, htable, ?_, ?_⟩
    · exact hgrew.records.trans (List.reverse_perm _)
    · refine (List.forall₂_map_right_iff.mpr ?_)
      exact hstored.heap.flip.imp (fun _ r hshows => ⟨r, rfl, hshows⟩)

private theorem tablesShow_init (K : Constants) (B : ℤ) : TablesShow K B (init K) .empty := by
  refine ⟨.empty, .registerTables (fun id => ?_) (registeredTables K), .empty⟩
  by_cases hid : id = .history
  · subst hid
    exact .inr ⟨rfl, rfl, by decide⟩
  · exact .inl (layout_keyed id hid)

end RecordBytes

section Runs
variable {K : Constants} {P : ScaleParams}

private theorem alike_startPopulate {cLast : ℤ} {rounds : ℕ} {rand : Rand} {clock clock' : Clock} {s : State}
    (h : (TpccPopulator.startPopulate K P cLast rounds).run ((.empty, rand), clock) =
      some ((), (s, clock'))) : Alike K K s.1 s.1 := by
  have halike : AlikeEnvs K K (((.empty, rand), clock) : Env) ((.empty, rand), clock) :=
    ⟨⟨.empty, rfl⟩, rfl⟩
  obtain ⟨⟨_, s', hrun, h'⟩, -⟩ := halike.startPopulate P cLast rounds _ _ h
  rw [h] at hrun
  cases hrun
  exact h'.1.1

private theorem Alike.routed_start {orders : ℕ → IterationOrder} {n : ℕ} {queue : List EventTuple}
    {s : Tables} (halike : Alike K K s s) {r : Rand} {s' : State}
    (h : (TpccSerialProcessor.start K orders n queue).run (s, r) = some ((), s')) : Routed K s'.1 := by
  have hstates : AlikeStates K K (s, r) (s, r) := ⟨halike, rfl⟩
  obtain ⟨⟨_, _, -, h'⟩, -⟩ := hstates.start orders n queue _ _ h
  exact h'.1.right

open RecordBytes in
/-- From the registered tables on, whatever a new buffer holds and however doubles are kept: where the
populator of the values comes to an end, so does the one that fills the slots, and the slots hold its
rows; every queue of transactions within the scale is then processed on the slots as on the values,
and the slots hold the rows again. -/
theorem tpcc_slots_hold_values (hitems : P.numItems < 2 ^ 31) (hwarehouses : P.numWarehouses < 2 ^ 31)
    (hcustomers : P.numCustomersPerDistrict + 1 < 2 ^ 31) (F : DoubleFormat)
    (buffer : ∀ id, Row id → ℕ → UInt8) (leftovers : ℕ → Leftover) (orders : ℕ → IterationOrder)
    {cLast : ℤ} {rounds : ℕ} {rand : Rand} {clock clock' : Clock} {s : State}
    (hpop : (TpccPopulator.startPopulate K P cLast rounds).run ((.empty, rand), clock) =
      some ((), (s, clock'))) :
    ∃ t, (RecordBytes.startPopulate Slots.toStorageManager K F buffer P cLast rounds).run
        ((init K, rand), clock) = some ((), ((t, s.2), clock')) ∧ SlotsHold K t s.1 ∧
      ∀ (tuples : List EventTuple) (r : Rand), (∀ e ∈ tuples, e.InScale P ∧ Fits e) →
        P.numCustomersPerDistrict + tuples.length + 2 < 2 ^ 31 →
        ∃ u t', (TpccSerialProcessor.start K orders 0 (tuples ++ [.endExecution])).run (s.1, r) =
            some ((), u) ∧
          (RecordBytes.start Slots K F leftovers orders 0 (tuples ++ [.endExecution])).run (t, r) =
            some ((), (t', u.2)) ∧ SlotsHold K t' u.1 := by
  have hledger : Ledger K P s.1 := PopulatedState.ledger ⟨cLast, rounds, rand, clock', hpop⟩
  have henvs : EnvsShow K (P.numCustomersPerDistrict + 1) ((init K, rand), clock)
      ((.empty, rand), clock) := ⟨⟨tablesShow_init K _, rfl⟩, rfl⟩
  obtain ⟨⟨_, ⟨⟨t, r₀⟩, c₀⟩, hrun, ⟨⟨hshow, hrand⟩, hclock⟩⟩, -⟩ :=
    henvs.startPopulate F buffer P cLast rounds rfl hcustomers hitems hwarehouses _ _ hpop
  simp only at hshow hrand hclock
  subst hrand hclock
  have halike := alike_startPopulate hpop
  refine ⟨t, hrun, hshow.slotsHold halike.right, fun tuples r htuples hlength => ?_⟩
  obtain ⟨u, hu⟩ := Ledger.exists_start (t := (s.1, r)) hledger (fun e he => (htuples e he).1) orders
  have hfits : ∀ e ∈ tuples ++ [.endExecution], Fits e := by
    intro e he
    rcases List.mem_append.mp he with he | he
    · exact (htuples e he).2
    · rw [List.mem_singleton.mp he]
      trivial
  have hstates : StatesShow K (P.numCustomersPerDistrict + 1) (t, r) (s.1, r) := ⟨hshow, rfl⟩
  have hbound : (P.numCustomersPerDistrict : ℤ) + 1 +
      ((tuples ++ [EventTuple.endExecution]).length : ℕ) < 2 ^ 31 := by
    rw [List.length_append, List.length_singleton]
    omega
  obtain ⟨⟨_, ⟨t', r'⟩, hrun', hshow', hrand'⟩, -⟩ :=
    StatesShow.start F leftovers orders _ hfits 0 hstates hbound _ _ hu
  simp only at hrand'
  subst hrand'
  exact ⟨u, t', hu, hrun', hshow'.slotsHold (halike.routed_start hu)⟩

open RecordBytes in
theorem tpcc_slots_hold_shortRun : ∃ (cLast : ℤ) (rounds : ℕ) (rand : Rand) (clock' : Clock) (s u : State)
    (t t' : SchemaTables TableId),
    (RecordBytes.startPopulate Slots.toStorageManager .unpartitioned wholeNumbers (fun _ _ _ => 0)
      .small cLast rounds).run ((init .unpartitioned, rand), fun _ => 0) = some ((), (t, s.2), clock') ∧
    SlotsHold .unpartitioned t s.1 ∧
    (RecordBytes.start Slots .unpartitioned wholeNumbers (fun _ => ⟨fun _ _ => 0, fun _ => 0⟩)
      (fun _ => .listed) 0 (shortRun.map Prod.fst ++ [.endExecution])).run (t, s.2) = some ((), (t', u.2)) ∧
    SlotsHold .unpartitioned t' u.1 := by
  obtain ⟨s, cLast, rounds, rand, clock', hpop⟩ := exists_small
  obtain ⟨t, hload, hheld, hrun⟩ := tpcc_slots_hold_values (by decide) (by decide) (by decide)
    wholeNumbers (fun _ _ _ => 0) (fun _ => ⟨fun _ _ => 0, fun _ => 0⟩) (fun _ => .listed) hpop
  have hfits : ∀ e ∈ shortRun.map Prod.fst, e.InScale .small ∧ Fits e := by
    have hscale : ∀ e ∈ shortRun.map Prod.fst, e.InScale .small := by decide
    refine fun e he => ⟨hscale e he, ?_⟩
    simp only [shortRun, List.map_cons, List.map_nil, List.mem_cons, List.not_mem_nil, or_false] at he
    rcases he with rfl | rfl | rfl <;> simp [Fits, FitsInt]
  obtain ⟨u, t', -, hslots, hheld'⟩ := hrun _ s.2 hfits (by decide)
  exact ⟨cLast, rounds, rand, clock', s, u, t, t', hload, hheld, hslots, hheld'⟩

end Runs
end ImdbD.Benchmark.TPCC
