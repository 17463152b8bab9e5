import ImdbD.TatpDeterminism
import ImdbD.PooledScripts
import ImdbD.ScriptBarriers

/-!
# Batches of TATP are barriers

When `processBatch` returns it has waited for all its threads, so that none of
them outlives the vectors it refers to. Between two batches the tables are as the
serial processor leaves them after the tuples so far, and a pool of workers with
its queue does what the threads do.
-/
namespace ImdbD.Benchmark.TATP.TatpBatchProcessor
open ByteMemory StorageEngine AtomicProgram RecordStore

variable {K : Constants} {s : Tables} {batches earlier later : List (List EventTuple)}
  {b k : ℕ} {memory : ℕ → Memory} {memories : ℕ → ℕ → Memory} {batch : List EventTuple}
  {rest p q : Script Work (Role × ℕ)}

/-- All crews of a batch are waited for. -/
theorem leads_processBatch (h : rest.Leads p q []) :
    rest.Leads (processBatch K b memory batch p) (processBatch K b memory batch q) [] := by
  let size : Role → ℕ := fun _ => K.kParallelism
  refine .act (fun _ _ _ _ => ?_)
  refine leads_spawnAll size [] rfl ?_
  refine leads_spawnAll size [.sid .dcf] rfl ?_
  refine leads_spawnAll size [.sid .dcf, .sid .icf] rfl ?_
  refine leads_spawnAll size [.sid .dcf, .sid .icf, .sid .ul] rfl ?_
  refine leads_joinAll size [.sid .icf, .sid .ul, .gad] rfl rfl ?_
  refine leads_joinAll size [.sid .ul, .gad] rfl rfl ?_
  refine leads_joinAll size [.gad] rfl rfl ?_
  refine .act (fun _ _ _ _ => leads_fetch (fun _ _ => ?_))
  refine leads_spawnAll size [.gad] rfl ?_
  refine leads_spawnAll size [.gad, .dcfIcf] rfl ?_
  refine leads_spawnAll size [.gad, .dcfIcf, .gsdUlUsd] rfl ?_
  refine leads_joinAll size [.gad, .gsdUlUsd, .icfUsd] rfl rfl ?_
  refine leads_joinAll size [.gad, .icfUsd] rfl rfl ?_
  refine leads_joinAll size [.gad] rfl rfl ?_
  exact leads_joinAll size [] rfl rfl h

theorem leads_start (earlier later : List (List EventTuple)) (b : ℕ) :
    (start K memories (b + earlier.length) later).Leads
      (start K memories b (earlier ++ later)) (start K memories b earlier) [] := by
  induction earlier generalizing b with
  | nil => exact .rest
  | cons batch earlier ih =>
    have hrest := ih (b + 1)
    rw [Nat.add_right_comm] at hrest
    exact leads_processBatch hrest

/-- Where the next batches begin, no thread is at work, and the tables are as the serial processor
leaves them after the tuples so far. -/
theorem tatp_batches_are_barriers (executor : Executor) (hs : Indexed s)
    (hknown : ∀ batch ∈ earlier, ∀ tuple ∈ batch, Known s tuple)
    (hend : .endExecution ∉ earlier.flatten) (memories : ℕ → ℕ → Memory) (memories' : ℕ → Memory)
    (v : SIds) (n : Notes) : ∃ t,
    (TatpSerialProcessor.start (manager layout) K memories' 0
      (earlier.flatten ++ [.endExecution])).run s = some ((), t) ∧
    ∀ {k c'}, Runs (executor.limit K) k ⟨start K memories 0 (earlier ++ later), [], ((s, v), n)⟩ c' →
      c'.script = .done → ∃ j z, j ≤ k ∧
        Runs (executor.limit K) j ⟨start K memories 0 (earlier ++ later), [], ((s, v), n)⟩
          ⟨start K memories earlier.length later, [], z⟩ ∧
        Runs (executor.limit K) (k - j) ⟨start K memories earlier.length later, [], z⟩ c' ∧
        z.1.1 = t := by
  obtain ⟨t, z', hserial, hz', -, hthreads⟩ := determinate_start (K := K) memories v n
    (fun batch hbatch tuple htuple => hs.passes (hknown batch hbatch tuple htuple))
  refine ⟨t, ?_, fun {k c'} hruns hdone => ?_⟩
  · rw [run_serial hend, hserial, Option.map_some]
  · have hleads : (start K memories earlier.length later).Leads
        (start K memories 0 (earlier ++ later)) (start K memories 0 earlier) [] := by
      rw [← Nat.zero_add earlier.length]
      exact leads_start earlier later 0
    obtain ⟨j, z, hj, hbefore, hafter, hpart⟩ := hleads.passes hruns hdone
    have hz : z = z' := (hthreads executor).result hpart ⟨rfl, fun _ hmem => by cases hmem⟩
    exact ⟨j, z, hj, hbefore, hafter, hz ▸ hz'⟩

/-- A queue that ends, in any batches: serially, with threads, and with the workers of a pool, which
take the tasks of all batches from one queue. -/
theorem queue_reproduces_serial {queue : List EventTuple} (hpasses : ∀ tuple ∈ queue, Passes s tuple)
    (hcut : Cut queue batches) (memories : ℕ → ℕ → Memory) (memories' : ℕ → Memory) (v : SIds)
    (n : Notes) : ∃ t z,
    (TatpSerialProcessor.start (manager layout) K memories' 0 queue).run s = some ((), t) ∧
    z.1.1 = t ∧
    (∀ executor : Executor,
      Determinate (executor.limit K) ⟨start K memories 0 batches, [], ((s, v), n)⟩ z) ∧
    (PooledConfig.start K.kParallelism (start K memories 0 batches) ((s, v), n)).Determinate z := by
  obtain ⟨t, z, hserial, hz, -, hthreads⟩ := determinate_start (K := K) memories v n
    (hcut.passes hpasses)
  exact ⟨t, z, hcut.run_start memories' hserial, hz, hthreads,
    PooledConfig.determinate K.parallelism_pos (hthreads .threadPool)⟩

/-- The workers of the pool are woken one by one, and take the tasks of all batches in their order:
the tables end as the serial processor leaves them, and the destructor finds every worker returned. -/
theorem tatp_pool_reproduces_serial (hs : Indexed s) {queue : List EventTuple}
    (hknown : ∀ tuple ∈ queue, Known s tuple) (hcut : Cut queue batches)
    (memories : ℕ → ℕ → Memory) (memories' : ℕ → Memory) (v : SIds) (n : Notes) :
    ∃ t z, (TatpSerialProcessor.start (manager layout) K memories' 0 queue).run s = some ((), t) ∧
      (PooledConfig.start K.kParallelism (start K memories 0 batches) ((s, v), n)).Determinate z ∧
      z.1.1 = t := by
  obtain ⟨t, z, hserial, hz, -, hpool⟩ := queue_reproduces_serial
    (fun tuple htuple => hs.passes (hknown tuple htuple)) hcut memories memories' v n
  exact ⟨t, z, hserial, hpool, hz⟩

private theorem exists_carrying : ∃ s, Indexed s ∧ Carries s 1 firstNumber := by
  obtain ⟨s, -, hloaded⟩ :=
    run_startPopulate (K := partitioned) (by decide : oneSubscriber.names.Nodup)
  exact ⟨s, Loaded.indexed hloaded,
    Loaded.carries hloaded (by decide) (by rw [TatpUtil.padWithZero]; simp; decide)⟩

/-- A call forwarding that is inserted in one batch, and deleted in the next. -/
def insertingBatch : List EventTuple := [.insertCallForwarding ⟨firstNumber, 2, 16, 20, firstNumber⟩]

def deletingBatch : List EventTuple :=
  [.getSubscriberData ⟨1⟩, .deleteCallForwarding ⟨firstNumber, 2, 16⟩, .endExecution]

theorem known_batches (hcarries : Carries s 1 firstNumber) :
    ∀ batch ∈ [insertingBatch, deletingBatch], ∀ tuple ∈ batch, Known s tuple := by
  intro batch hbatch tuple htuple subNbr hsub
  have hfirst : subNbr = firstNumber := by
    simp only [insertingBatch, deletingBatch, List.mem_cons, List.not_mem_nil, or_false] at hbatch
    obtain rfl | rfl := hbatch
    · simp only [List.mem_cons, List.not_mem_nil, or_false] at htuple
      obtain rfl := htuple
      exact (Option.some.inj hsub).symm
    · simp only [List.mem_cons, List.not_mem_nil, or_false] at htuple
      obtain rfl | rfl | rfl := htuple
      · cases hsub
      · exact (Option.some.inj hsub).symm
      · cases hsub
  exact ⟨1, hfirst ▸ hcarries⟩

theorem tatp_batches_are_barriers_oneSubscriber : ∃ s t k c' j z,
    (TatpSerialProcessor.start (manager layout) partitioned (fun _ _ => 0) 0
      (insertingBatch ++ [.endExecution])).run s = some ((), t) ∧
    Runs (Executor.threads.limit partitioned) k
      ⟨start partitioned (fun _ _ _ => 0) 0 [insertingBatch, deletingBatch], [],
        ((s, fun _ => []), fun _ => none)⟩ c' ∧ Finished c' ∧
    Runs (Executor.threads.limit partitioned) j
      ⟨start partitioned (fun _ _ _ => 0) 0 [insertingBatch, deletingBatch], [],
        ((s, fun _ => []), fun _ => none)⟩
      ⟨start partitioned (fun _ _ _ => 0) 1 [deletingBatch], [], z⟩ ∧ z.1.1 = t := by
  obtain ⟨s, hs, hcarries⟩ := exists_carrying
  have hknown := known_batches hcarries
  obtain ⟨_, _, -, -, -, hthreads⟩ := determinate_start (K := partitioned) (fun _ _ _ => 0)
    (fun _ => []) (fun _ => none)
    (fun batch hbatch tuple htuple => hs.passes (hknown batch hbatch tuple htuple))
  obtain ⟨k, c', hruns, hfinished⟩ := (hthreads .threads).exists_finished
  obtain ⟨t, ht, hbarrier⟩ := @tatp_batches_are_barriers partitioned s [insertingBatch] [deletingBatch]
    .threads hs
    (fun batch hbatch => hknown batch (List.mem_cons.mpr (Or.inl (List.mem_singleton.mp hbatch))))
    (by simp [insertingBatch]) (fun _ _ _ => 0) (fun _ _ => 0) (fun _ => []) (fun _ => none)
  obtain ⟨j, z, -, hbefore, -, hz⟩ := hbarrier hruns hfinished.1
  exact ⟨s, t, k, c', j, z, ht, hruns, hfinished, hbefore, hz⟩

theorem tatp_pool_reproduces_serial_oneSubscriber : ∃ s t z,
    (TatpSerialProcessor.start (manager layout) partitioned (fun _ _ => 0) 0
      (insertingBatch ++ deletingBatch)).run s = some ((), t) ∧
    (PooledConfig.start 4 (start partitioned (fun _ _ _ => 0) 0 [insertingBatch, deletingBatch])
      ((s, fun _ => []), fun _ => none)).Determinate z ∧ z.1.1 = t := by
  obtain ⟨s, hs, hcarries⟩ := exists_carrying
  have hknown : ∀ tuple ∈ insertingBatch ++ deletingBatch, Known s tuple := by
    intro tuple htuple
    rcases List.mem_append.mp htuple with htuple | htuple
    · exact known_batches hcarries _ (by simp) tuple htuple
    · exact known_batches hcarries _ (by simp) tuple htuple
  have hlast : Cut ([.getSubscriberData ⟨1⟩, .deleteCallForwarding ⟨firstNumber, 2, 16⟩] ++
      [.endExecution]) [deletingBatch] := .last (by simp)
  have hcut : Cut (insertingBatch ++ deletingBatch) [insertingBatch, deletingBatch] :=
    .next (List.cons_ne_nil _ _) (by simp [insertingBatch]) hlast
  obtain ⟨t, z, hserial, hpool, hz⟩ := tatp_pool_reproduces_serial (K := partitioned) hs hknown hcut
    (fun _ _ _ => 0) (fun _ _ => 0) (fun _ => []) (fun _ => none)
  exact ⟨s, t, z, hserial, hpool, hz⟩

end ImdbD.Benchmark.TATP.TatpBatchProcessor
