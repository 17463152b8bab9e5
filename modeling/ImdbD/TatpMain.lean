import ImdbD.TatpBarriers
import ImdbD.TatpSubArray
import ImdbD.TatpSubscribers
import Mathlib.Data.Fin.VecNotation
import Mathlib.Data.Rat.Floor

/-!
# TATP from the population to the end

The source draws its transactions by their weights and pushes them with the end
of the execution behind them; then one of the processors takes them from the
queue. Every number that is drawn is that of a subscriber, and the tables end the
same whichever processor the command line asks for.
-/
namespace ImdbD.Benchmark.TATP
open ByteMemory StorageEngine AtomicProgram RecordStore
open TatpBatchProcessor (Cut subNbrOf Known)

/-- The numbers that the generator is still to return. -/
abbrev Generator := ℕ → ℕ

namespace RandomGenerator

/-- `generateInteger` and `generateLong`, taking the next number. -/
def draw (min max : ℕ) : Program Generator ℕ :=
  .atomic (fun g => some (generateInteger (g 0) min max, fun n => g (n + 1)))

theorem always_draw {min max : ℕ} (h : min ≤ max) :
    (draw min max).Always (fun n => min ≤ n ∧ n ≤ max) :=
  fun g => ⟨_, _, rfl, generateInteger_mem (g 0) h⟩

end RandomGenerator
open RandomGenerator

def DEFAULT_NUM_SUBSCRIBERS : ℕ := 1000000

/-- The running sums of the weights of the seven transactions. -/
structure ScaleParams where
  workloadWeight : Fin 7 → ℕ
  subscriberSize : ℕ
  total : workloadWeight 6 = 100

namespace ScaleParams

/-- The constructor without arguments. -/
def default : ScaleParams := ⟨![2, 42, 42, 82, 84, 98, 100], DEFAULT_NUM_SUBSCRIBERS, rfl⟩

/-- The sum of the first `n` weights. -/
def sumOf (weight : Fin 7 → ℕ) (n : ℕ) : ℕ := ((List.ofFn weight).take n).sum

/-- The other constructor, which asserts that the weights are percentages. -/
def new (scaleFactor : ℚ) (weight : Fin 7 → ℕ) : Option ScaleParams :=
  if h : sumOf weight 7 = 100 then
    some ⟨fun i => sumOf weight (i + 1), ⌊DEFAULT_NUM_SUBSCRIBERS * scaleFactor⌋₊, h⟩
  else none

end ScaleParams

namespace TatpSource
variable (params : ScaleParams) (beside : ℕ → UInt8)

/-- The number of a subscriber as a string; `beside` is what memory holds behind it. -/
def subNbr (sId : ℕ) : CString := ⟨TatpUtil.padWithZero sId, beside⟩

/-- One round of the loop. -/
def generateTransaction : Program Generator (Option EventTuple) := do
  let x ← draw 1 100
  let sId ← draw 1 params.subscriberSize
  if x ≤ params.workloadWeight 0 then
    let sfType ← draw 1 4
    let startTime ← draw 0 2
    return some (.deleteCallForwarding
      ⟨subNbr beside sId, Int8.ofNat sfType, Int8.ofNat (startTime * 8)⟩)
  else if x ≤ params.workloadWeight 1 then
    let aiType ← draw 1 4
    return some (.getAccessData ⟨Int32.ofNat sId, Int8.ofNat aiType⟩)
  else if x ≤ params.workloadWeight 2 then
    let sfType ← draw 1 4
    let startTime ← draw 0 2
    let endTime ← draw 1 24
    return some (.getNewDestination
      ⟨Int32.ofNat sId, Int8.ofNat sfType, Int8.ofNat (startTime * 8), Int8.ofNat endTime⟩)
  else if x ≤ params.workloadWeight 3 then
    return some (.getSubscriberData ⟨Int32.ofNat sId⟩)
  else if x ≤ params.workloadWeight 4 then
    let sfType ← draw 1 4
    let startTime ← draw 0 2
    let endTime ← draw 1 24
    return some (.insertCallForwarding ⟨subNbr beside sId, Int8.ofNat sfType,
      Int8.ofNat (startTime * 8), Int8.ofNat endTime, subNbr beside sId⟩)
  else if x ≤ params.workloadWeight 5 then
    let vlrLocation ← draw 0 2147483647
    return some (.updateLocation ⟨Int32.ofNat vlrLocation, subNbr beside sId⟩)
  else if x ≤ params.workloadWeight 6 then
    let bit1 ← draw 0 1
    let dataA ← draw 0 255
    let sfType ← draw 1 4
    return some (.updateSubscriberData
      ⟨Int32.ofNat sId, Int8.ofNat bit1, Int16.ofNat dataA, Int8.ofNat sfType⟩)
  else
    return none

def startExecution (numTransactions : ℕ) : Program Generator (List (Option EventTuple)) :=
  Program.collect (fun _ => generateTransaction params beside) (List.range numTransactions)

/-- `start`: the queue as the processors find it. -/
def start (numTransactions : ℕ) : Program Generator (List EventTuple) := do
  let pushed ← startExecution params beside numTransactions
  return pushed.filterMap id ++ [.endExecution]

/-- A transaction of which every number is that of a subscriber. -/
def Drawn (params : ScaleParams) (tuple : EventTuple) : Prop :=
  tuple ≠ .endExecution ∧ ∀ subNbr ∈ subNbrOf tuple, ∃ sId,
    1 ≤ sId ∧ sId ≤ params.subscriberSize ∧ subNbr.chars = TatpUtil.padWithZero sId

/-- What the source promises of one round. -/
def Promised (params : ScaleParams) (pushed : Option EventTuple) : Prop :=
  ∃ tuple, pushed = some tuple ∧ Drawn params tuple

variable {params : ScaleParams} {beside : ℕ → UInt8}

theorem promised_unnumbered {tuple : EventTuple} (hend : tuple ≠ .endExecution)
    (h : subNbrOf tuple = none) : Promised params (some tuple) := by
  refine ⟨tuple, rfl, hend, fun subNbr hsub => ?_⟩
  rw [h] at hsub
  cases hsub

theorem promised_numbered {tuple : EventTuple} {sId : ℕ}
    (hsId : 1 ≤ sId ∧ sId ≤ params.subscriberSize) (hend : tuple ≠ .endExecution)
    (h : subNbrOf tuple = some (subNbr beside sId)) : Promised params (some tuple) := by
  refine ⟨tuple, rfl, hend, fun subNbr hsub => ?_⟩
  rw [h] at hsub
  cases hsub
  exact ⟨sId, hsId.1, hsId.2, rfl⟩

/-- The weights add up to all rounds. -/
theorem always_transaction (hsize : 1 ≤ params.subscriberSize) :
    (generateTransaction params beside).Always (Promised params) := by
  refine .bind (always_draw (by decide)) (fun x hx => .bind (always_draw hsize) (fun sId hsId => ?_))
  have hdraw : ∀ {min max : ℕ}, min ≤ max → (draw min max).Always (fun _ => True) :=
    fun h => (always_draw h).mono (fun _ _ => trivial)
  split
  · refine .bind (hdraw (by decide)) (fun sfType _ => .bind (hdraw (by decide)) (fun startTime _ =>
      .pure (promised_numbered hsId (by simp) rfl)))
  split
  · exact .bind (hdraw (by decide)) (fun aiType _ => .pure (promised_unnumbered (by simp) rfl))
  split
  · refine .bind (hdraw (by decide)) (fun sfType _ => .bind (hdraw (by decide)) (fun startTime _ =>
      .bind (hdraw (by decide)) (fun endTime _ => .pure (promised_unnumbered (by simp) rfl))))
  split
  · exact .pure (promised_unnumbered (by simp) rfl)
  split
  · refine .bind (hdraw (by decide)) (fun sfType _ => .bind (hdraw (by decide)) (fun startTime _ =>
      .bind (hdraw (by decide)) (fun endTime _ => .pure (promised_numbered hsId (by simp) rfl))))
  split
  · exact .bind (hdraw (by decide)) (fun vlrLocation _ =>
      .pure (promised_numbered hsId (by simp) rfl))
  · rw [params.total, if_pos hx.2]
    refine .bind (hdraw (by decide)) (fun bit1 _ => .bind (hdraw (by decide)) (fun dataA _ =>
      .bind (hdraw (by decide)) (fun sfType _ => .pure (promised_unnumbered (by simp) rfl))))

private theorem filterMap_promised {pushed : List (Option EventTuple)}
    (h : ∀ q ∈ pushed, Promised params q) : (pushed.filterMap id).length = pushed.length ∧
      ∀ tuple ∈ pushed.filterMap id, Drawn params tuple := by
  induction pushed with
  | nil => simp
  | cons q pushed ih =>
    obtain ⟨⟨tuple, rfl, htuple⟩, hrest⟩ := List.forall_mem_cons.mp h
    obtain ⟨hlength, hall⟩ := ih hrest
    have hone : id (some tuple) = some tuple := rfl
    rw [List.filterMap_cons_some hone]
    refine ⟨?_, List.forall_mem_cons.mpr ⟨htuple, hall⟩⟩
    rw [List.length_cons, List.length_cons, hlength]

theorem always_start (hsize : 1 ≤ params.subscriberSize) (beside : ℕ → UInt8)
    (numTransactions : ℕ) : (start params beside numTransactions).Always (fun queue =>
      ∃ tuples, queue = tuples ++ [.endExecution] ∧ tuples.length = numTransactions ∧
        ∀ tuple ∈ tuples, Drawn params tuple) := by
  refine .bind (.collect (fun _ => always_transaction hsize)) (fun pushed hpushed => .pure ?_)
  obtain ⟨hlength, hall⟩ := filterMap_promised hpushed.2
  exact ⟨_, rfl, by rw [hlength, hpushed.1, List.length_range], hall⟩

/-- A number that is drawn is that of a populated subscriber. -/
theorem Drawn.known {K : Constants} {draws : Draws} {s : Tables} {tuple : EventTuple}
    (h : Drawn params tuple) (hs : Loaded (TatpPopulator.entries K draws) s)
    (hsize : draws.subscriberSize = params.subscriberSize) : Known s tuple := by
  intro subNbr hsub
  obtain ⟨sId, hpos, hle, hchars⟩ := h.2 subNbr hsub
  have hbound := draws.size_lt
  have hsId : toSize (Int32.ofNat sId) = sId := by
    rw [toSize, Int32.toInt_ofNat_of_lt (by omega)]
    omega
  have hlength : subNbr.chars.length = 15 := by
    rw [hchars]
    exact TatpUtil.length_padWithZero (by change sId < 10 ^ 15; omega)
  refine ⟨Int32.ofNat sId, Loaded.carries hs ?_ ?_⟩
  · refine List.mem_map.mpr ⟨sId - 1, List.mem_range.mpr (by omega), ?_⟩
    rw [Nat.sub_add_cancel hpos]
  · rw [CString.read_of_length hlength, hchars, hsId]

end TatpSource

open TatpBatchProcessor TatpPopulator in
/-- From the population on: whatever the source draws, the queue has a tuple for every transaction,
and the serial processor, the batch processor and the one with a thread pool all leave the same
tables, for any number of threads, tables and batches. -/
theorem tatpMain_processors_agree (K : Constants) {draws : Draws} (hkeys : draws.names.Nodup)
    {params : ScaleParams} (hsize : draws.subscriberSize = params.subscriberSize)
    (hone : 1 ≤ params.subscriberSize) (g : Generator) (beside : ℕ → UInt8) (numTransactions : ℕ) :
    ∃ s tuples g', (startPopulate (manager layout) K draws).run .empty = some ((), s) ∧
      (TatpSource.start params beside numTransactions).run g =
        some (tuples ++ [.endExecution], g') ∧ tuples.length = numTransactions ∧
      (∀ tuple ∈ tuples, tuple ≠ .endExecution ∧ Known s tuple) ∧
      ∀ batches, Cut (tuples ++ [.endExecution]) batches → ∀ (memories : ℕ → ℕ → Memory)
        (memories' : ℕ → Memory) (v : SIds) (n : Notes), ∃ t z,
        (TatpSerialProcessor.start (manager layout) K memories' 0 (tuples ++ [.endExecution])).run s =
          some ((), t) ∧ z.1.1 = t ∧
        (∀ executor : Executor, Determinate (executor.limit K)
          ⟨TatpBatchProcessor.start K memories 0 batches, [], ((s, v), n)⟩ z) ∧
        (PooledConfig.start K.kParallelism (TatpBatchProcessor.start K memories 0 batches)
          ((s, v), n)).Determinate z := by
  obtain ⟨s, hpopulate, hloaded⟩ := run_startPopulate (K := K) hkeys
  obtain ⟨_, g', hsource, tuples, rfl, hlength, hdrawn⟩ :=
    TatpSource.always_start hone beside numTransactions g
  have hknown : ∀ tuple ∈ tuples, tuple ≠ .endExecution ∧ Known s tuple :=
    fun tuple htuple => ⟨(hdrawn tuple htuple).1, (hdrawn tuple htuple).known hloaded hsize⟩
  refine ⟨s, tuples, g', hpopulate, hsource, hlength, hknown, fun batches hcut memories memories' v n => ?_⟩
  refine queue_reproduces_serial (fun tuple htuple => (Loaded.indexed hloaded).passes ?_) hcut memories
    memories' v n
  rcases List.mem_append.mp htuple with htuple | htuple
  · exact (hknown tuple htuple).2
  · rw [List.mem_singleton.mp htuple]
    intro subNbr hsub
    cases hsub

/-- One subscriber, with the weights of the benchmark. -/
def ScaleParams.one : ScaleParams := { ScaleParams.default with subscriberSize := 1 }

open TatpBatchProcessor TatpPopulator in
/-- Ten transactions of one subscriber, all in one batch. -/
theorem tatpMain_processors_agree_oneSubscriber : ∃ s tuples g' t z,
    (startPopulate (manager layout) partitioned oneSubscriber).run .empty = some ((), s) ∧
    (TatpSource.start .one (fun _ => 0) 10).run (fun n => n) =
      some (tuples ++ [.endExecution], g') ∧ tuples.length = 10 ∧
    (TatpSerialProcessor.start (manager layout) partitioned (fun _ _ => 0) 0
      (tuples ++ [.endExecution])).run s = some ((), t) ∧ z.1.1 = t ∧
    (PooledConfig.start 4 (TatpBatchProcessor.start partitioned (fun _ _ _ => 0) 0
      [tuples ++ [.endExecution]]) ((s, fun _ => []), fun _ => none)).Determinate z := by
  obtain ⟨s, tuples, g', hpopulate, hsource, hlength, hknown, hall⟩ :=
    tatpMain_processors_agree partitioned (by decide : oneSubscriber.names.Nodup)
      (rfl : _ = ScaleParams.one.subscriberSize) (by decide) (fun n => n) (fun _ => 0) 10
  have hcut : Cut (tuples ++ [.endExecution]) [tuples ++ [.endExecution]] :=
    .last (fun hend => (hknown _ hend).1 rfl)
  obtain ⟨t, z, hserial, hz, -, hpool⟩ := hall _ hcut (fun _ _ _ => 0) (fun _ _ => 0) (fun _ => [])
    (fun _ => none)
  exact ⟨s, tuples, g', t, z, hpopulate, hsource, hlength, hserial, hz, hpool⟩

end ImdbD.Benchmark.TATP
