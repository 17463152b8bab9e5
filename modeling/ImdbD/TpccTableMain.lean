import ImdbD.TpccTableLoad

/-!
# TPC-C on slot tables, with the transactions of the source

What the source draws fits the columns of the records. The slots that the
populator filled therefore hold, once the queue is worked off, the rows that
every processor leaves.
-/
namespace ImdbD.Benchmark.TPCC
open ByteMemory StorageEngine AtomicProgram RandomGenerator RecordBytes

namespace TpccSource
variable {P : ScaleParams} {C : NonuniformConstants}

/-- The quantities are those of the source. -/
def Moderate (lines : OrderLines) : Prop := ∀ q ∈ lines.iQtys, 1 ≤ q ∧ q ≤ 10

theorem Moderate.add {lines : OrderLines} (h : Moderate lines) {q : ℤ} (hq : 1 ≤ q ∧ q ≤ 10)
    (i w : ℤ) (remote : Bool) : Moderate
      ⟨lines.iIds ++ [i], lines.iWIds ++ [w], lines.iQtys ++ [q], lines.remote ++ [remote]⟩ := by
  intro q' hq'
  rcases List.mem_append.mp hq' with hq' | hq'
  · exact h q' hq'
  · exact List.mem_singleton.mp hq' ▸ hq

private theorem always_moderate (hP : Drawable P) (wId : ℤ) (m : ℕ) {lines : OrderLines}
    (h : Moderate lines) : (generateLines P C wId m lines).Always Moderate := by
  induction m generalizing lines with
  | zero => exact .pure h
  | succ m ih =>
    refine .bind (always_item hP) (fun i _ => .bind (always_integer (by decide)) (fun x _ => ?_))
    split
    · refine .bind (always_otherWarehouse (by omega)) (fun w _ => ?_)
      exact .bind (always_integer (by decide)) (fun q hq => ih (h.add hq i w true))
    · exact .bind (always_integer (by decide)) (fun q hq => ih (h.add hq i wId false))

private theorem always_newOrder_fits (hP : Drawable P) (now : ℤ) :
    (generateNewOrderParam P C now).Always (fun param => Fits (.newOrder param.1)) := by
  have hcustomers := hP.customers
  refine .bind (always_warehouse hP) (fun w hw => .bind always_district (fun d hd =>
    .bind (always_customer hP) (fun c hc => .bind (always_integer (by decide)) (fun n hn => ?_))))
  have hnil : LinesInScale P 0 ⟨[], [], [], []⟩ := ⟨⟨rfl, rfl, rfl⟩, by simp, by simp⟩
  have hmoderate : Moderate ⟨[], [], [], []⟩ := by simp [Moderate]
  refine .bind ((always_lines hP hw n.toNat hnil).and (always_moderate hP w n.toNat hmoderate))
    (fun lines hlines => .pure ⟨hd, ?_, ?_, fun q hq => ?_⟩)
  · simp only [FitsInt]
    omega
  · have hlength := hlines.1.lengths.1
    simp only
    omega
  · have hquantity := hlines.2 q hq
    omega

private theorem always_transaction_fits (hP : Drawable P) (now : ℤ) : (generateTransaction P C now).Always
    (fun pushed => ∀ tuple, pushed = .tuple tuple → Fits tuple) := by
  have hdelivery := always_delivery (P := P) hP now
  have hpayment := always_payment (C := C) hP now
  refine .bind (always_integer (by decide)) (fun x hx => ?_)
  rw [if_neg (by omega)]
  by_cases hfirst : x ≤ 4 + 0
  · rw [if_pos hfirst]
    refine .bind hdelivery (fun param _ => .pure (fun tuple he => ?_))
    cases he
    trivial
  · rw [if_neg hfirst, if_neg (by omega)]
    split
    · refine .bind hpayment (fun param _ => .pure (fun tuple he => ?_))
      cases he
      trivial
    · refine .bind (always_newOrder_fits hP now) (fun param hfits => .pure (fun tuple he => ?_))
      cases he
      exact hfits

/-- Every transaction that the source pushes fits. -/
theorem always_fits (hP : Drawable P) (C : NonuniformConstants) (clock : ℕ → ℤ)
    (numTransactions : ℕ) :
    (start P C clock numTransactions).Always (fun queue => ∀ e ∈ queue, Fits e) := by
  refine .bind (.collect (fun i => always_transaction_fits hP (clock i))) (fun pushed hpushed => .pure ?_)
  intro e he
  rcases List.mem_append.mp he with he | he
  · obtain ⟨q, hq, htuple⟩ := List.mem_filterMap.mp he
    cases q with
    | tuple tuple =>
      cases htuple
      exact hpushed.2 _ hq _ rfl
    | _ => cases htuple
  · rw [List.mem_singleton.mp he]
    trivial

end TpccSource

section Program
variable {K : Constants} {P : ScaleParams}

open TpccBatchProcessor in
/-- The program on the slots: whatever the source draws fits the columns, and the slots hold in the
end the rows that the serial processor, the batch processor and the one with a thread pool leave.
Amounts are not compared; a text or a flag is compared with the beginning of its column. -/
theorem tpccMain_slots_hold (hP : TpccSource.Drawable P) (hwarehouses : P.numWarehouses < 2 ^ 31)
    (F : DoubleFormat) (buffer : ∀ id, Row id → ℕ → UInt8) (leftovers : ℕ → Leftover)
    (orders : ℕ → IterationOrder) {cLast : ℤ} {rounds : ℕ} {rand : Rand} {clock clock' : Clock}
    {s : State} (hpop : (TpccPopulator.startPopulate K P cLast rounds).run ((.empty, rand), clock) =
      some ((), (s, clock'))) (C : NonuniformConstants) (time : ℕ → ℤ) (numTransactions : ℕ)
    (hcount : P.numCustomersPerDistrict + numTransactions + 2 < 2 ^ 31) :
    ∃ t tuples r t' u,
      (RecordBytes.startPopulate Slots.toStorageManager K F buffer P cLast rounds).run
        ((TpccPopulator.init K, rand), clock) = some ((), ((t, s.2), clock')) ∧
      (TpccSource.start P C time numTransactions).run s.2 = some (tuples ++ [.endExecution], r) ∧
      tuples.length = numTransactions ∧ (∀ tuple ∈ tuples, tuple.Valid s.1 ∧ Fits tuple) ∧
      (RecordBytes.start Slots K F leftovers orders 0 (tuples ++ [.endExecution])).run (t, r) =
        some ((), (t', u.2)) ∧ SlotsHold K t' u.1 ∧
      ∀ batches, Cut (tuples ++ [.endExecution]) batches → ∀ v : Vectors, ∃ v',
        (∀ executor : Executor, Determinate (executor.limit K)
          ⟨TpccBatchProcessor.start K P 0 batches, [], ((s.1, r), v)⟩ (u, v')) ∧
        (PooledConfig.start K.kParallelism (TpccBatchProcessor.start K P 0 batches)
          ((s.1, r), v)).Determinate (u, v') := by
  have hitems := hP.items
  have hcustomers := hP.customers
  obtain ⟨t, hload, -, hslots⟩ := tpcc_slots_hold_values (by omega) hwarehouses (by omega) F buffer
    leftovers orders hpop
  have hstate : PopulatedState K P clock s := ⟨cLast, rounds, rand, clock', hpop⟩
  have hdrawn := (TpccSource.always_start hP C time numTransactions).and
    (TpccSource.always_fits hP C time numTransactions)
  obtain ⟨_, r, hrun, ⟨tuples, rfl, hlength, hall⟩, hfits⟩ := hdrawn s.2
  have hboth : ∀ e ∈ tuples, e.InScale P ∧ Fits e :=
    fun e he => ⟨hall e he, hfits e (List.mem_append_left _ he)⟩
  have hvalid : ∀ tuple ∈ tuples, tuple.Valid s.1 :=
    fun tuple htuple => hstate.ledger.valid_iff.mpr (hall tuple htuple)
  obtain ⟨u, t', hserial, hrun', hheld⟩ := hslots tuples r hboth (by rw [hlength]; exact hcount)
  have htuples : ∀ tuple ∈ tuples, tuple.Valid s.1 ∧ Fits tuple :=
    fun tuple htuple => ⟨hvalid tuple htuple, (hboth tuple htuple).2⟩
  refine ⟨t, tuples, r, t', u, hload, hrun, hlength, htuples, hrun', hheld, fun batches hcut v => ?_⟩
  obtain ⟨u', v', hserial', hexecutors⟩ :=
    queue_reproduces_serial (t := (s.1, r)) hstate.ledger hvalid hcut orders v
  cases hserial.symm.trans hserial'
  exact ⟨v', hexecutors⟩

open TpccBatchProcessor in
/-- Three transactions on a small database, all in one batch. -/
theorem tpccMain_slots_hold_small : ∃ (cLast : ℤ) (rounds : ℕ) (rand r : Rand) (clock' : Clock)
    (s u : State) (t t' : SchemaTables TableId) (tuples : List EventTuple) (v' : Vectors),
    (RecordBytes.startPopulate Slots.toStorageManager .unpartitioned wholeNumbers (fun _ _ _ => 0)
      .small cLast rounds).run ((TpccPopulator.init .unpartitioned, rand), fun _ => 0) =
        some ((), ((t, s.2), clock')) ∧
    (TpccSource.start .small TpccSource.zeroConstants (fun _ => 0) 3).run s.2 =
      some (tuples ++ [.endExecution], r) ∧ (∀ tuple ∈ tuples, Fits tuple) ∧
    (RecordBytes.start Slots .unpartitioned wholeNumbers (fun _ => ⟨fun _ _ => 0, fun _ => 0⟩)
      (fun _ => .listed) 0 (tuples ++ [.endExecution])).run (t, r) = some ((), (t', u.2)) ∧
    SlotsHold .unpartitioned t' u.1 ∧
    (PooledConfig.start 1 (TpccBatchProcessor.start .unpartitioned .small 0
      [tuples ++ [.endExecution]]) ((s.1, r), fun _ => [])).Determinate (u, v') := by
  obtain ⟨s, cLast, rounds, rand, clock', hpop⟩ := exists_small
  obtain ⟨t, tuples, r, t', u, hload, hsource, -, htuples, hrun, hheld, hall⟩ :=
    tpccMain_slots_hold drawable_small (by decide) wholeNumbers (fun _ _ _ => 0)
      (fun _ => ⟨fun _ _ => 0, fun _ => 0⟩) (fun _ => .listed) hpop TpccSource.zeroConstants
      (fun _ => 0) 3 (by decide)
  have hcut : Cut (tuples ++ [.endExecution]) [tuples ++ [.endExecution]] :=
    .last (fun hend => (htuples _ hend).1)
  obtain ⟨v', -, hpool⟩ := hall _ hcut (fun _ => [])
  exact ⟨cLast, rounds, rand, r, clock', s, u, t, t', tuples, v', hload, hsource,
    fun tuple htuple => (htuples tuple htuple).2, hrun, hheld, hpool⟩

end Program
end ImdbD.Benchmark.TPCC
