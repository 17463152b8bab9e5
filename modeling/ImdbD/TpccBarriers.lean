import ImdbD.TpccDeterminism
import ImdbD.PooledScripts
import ImdbD.ScriptBarriers

/-!
# Batches of TPC-C are barriers

When `processBatch` returns it has waited for all its threads. Between two
batches the tables are as the serial processor leaves them after the tuples so
far, and a pool of workers with its queue does what the threads do.
-/
namespace ImdbD.Benchmark.TPCC.TpccBatchProcessor
open AtomicProgram KeyedStore GuardedRun

variable {K : Constants} {P : ScaleParams} {t : State} {b n k : ℕ} {batch : List EventTuple}
  {role : Role} {roles : List Role} {rest p q : Script Work ThreadId}

theorem leads_spawn {body : ℕ → Program Work Unit} (hsize : size K (b, role) = n)
    (h : rest.Leads p q (threads K b (roles ++ [role]))) :
    rest.Leads (spawnAll (b, role) n body p) (spawnAll (b, role) n body q) (threads K b roles) := by
  rw [threads, List.map_append] at h
  exact leads_spawnAll (size K) _ hsize h

theorem leads_join (roles' : List Role) (hsize : size K (b, role) = n)
    (hroles : roles.filter (fun r => r ≠ role) = roles')
    (h : rest.Leads p q (threads K b roles')) :
    rest.Leads (joinAll (b, role) n p) (joinAll (b, role) n q) (threads K b roles) := by
  refine leads_joinAll (size K) (roles'.map (Prod.mk b)) hsize ?_ h
  rw [← hroles, List.filter_map]
  refine congrArg (List.map (Prod.mk b)) (List.filter_congr (fun r _ => ?_))
  simp

/-- All crews of a batch are waited for. -/
theorem leads_processBatch (h : rest.Leads p q []) :
    rest.Leads (processBatch K P b batch p) (processBatch K P b batch q) [] := by
  change rest.Leads _ _ (threads K b [])
  refine .act (fun _ _ _ _ => leads_fetch (fun _ _ => leads_fetch (fun _ _ =>
    leads_fetch (fun _ _ => ?_))))
  refine leads_spawn rfl (.act (fun _ _ _ _ => ?_))
  refine leads_spawn rfl (leads_spawn rfl ?_)
  refine leads_spawn rfl (leads_spawn rfl (leads_spawn rfl ?_))
  refine leads_join [.no4, .no5, .paymentTxn1, .paymentTxn2, .paymentTxn3] rfl rfl ?_
  refine leads_spawn rfl ?_
  refine leads_join [.no4, .no5, .paymentTxn1, .paymentTxn2, .paymentTxn3] rfl rfl ?_
  refine leads_join [.no5, .paymentTxn1, .paymentTxn2, .paymentTxn3] rfl rfl ?_
  refine leads_join [.paymentTxn1, .paymentTxn2, .paymentTxn3] rfl rfl ?_
  refine .act (fun _ _ _ _ => .act (fun _ _ _ _ => ?_))
  refine leads_fetch (fun _ _ => leads_fetch (fun _ _ => ?_))
  refine leads_spawn rfl (leads_spawn rfl ?_)
  refine leads_join [.paymentTxn1, .paymentTxn2, .paymentTxn3, .del3] rfl rfl ?_
  refine leads_spawn rfl ?_
  refine leads_join [.paymentTxn1, .paymentTxn2, .paymentTxn3, .del3] rfl rfl ?_
  refine leads_join [.paymentTxn1, .paymentTxn2, .paymentTxn3] rfl rfl ?_
  refine leads_spawn rfl ?_
  refine leads_join [.paymentTxn2, .paymentTxn3, .conflict2] rfl rfl ?_
  refine leads_join [.paymentTxn3, .conflict2] rfl rfl ?_
  refine leads_join [.conflict2] rfl rfl ?_
  exact leads_join [] rfl rfl h

theorem leads_start (earlier later : List (List EventTuple)) (b : ℕ) :
    (start K P (b + earlier.length) later).Leads
      (start K P b (earlier ++ later)) (start K P b earlier) [] := by
  induction earlier generalizing b with
  | nil => exact .rest
  | cons batch earlier ih =>
    have hrest := ih (b + 1)
    rw [Nat.add_right_comm] at hrest
    exact leads_processBatch hrest

section Reached
variable {clock : Clock} {t₀ : State} {txns : List Txn}

/-- Where the next batches begin, no thread is at work, and the tables are as the serial processor
leaves them after the tuples so far. -/
theorem tpcc_batches_are_barriers (hpop : PopulatedState K P clock t₀) (hreached : ValidRun K t₀ txns)
    (hrun : run (TpccSerialProcessor.step K) t₀ txns = some t)
    {earlier later : List (List EventTuple)}
    (hvalid : ∀ tuple ∈ earlier.flatten, tuple.Valid t.1) (executor : Executor)
    (orders : ℕ → IterationOrder) (v : Vectors) : ∃ u,
    (TpccSerialProcessor.start K orders 0 (earlier.flatten ++ [.endExecution])).run t =
      some ((), u) ∧
    ∀ {k c'}, Runs (executor.limit K) k ⟨start K P 0 (earlier ++ later), [], (t, v)⟩ c' →
      c'.script = .done → ∃ j z, j ≤ k ∧
        Runs (executor.limit K) j ⟨start K P 0 (earlier ++ later), [], (t, v)⟩
          ⟨start K P earlier.length later, [], z⟩ ∧
        Runs (executor.limit K) (k - j) ⟨start K P earlier.length later, [], z⟩ c' ∧ z.1 = u := by
  have hledger := ledger_reached hpop hreached hrun
  obtain ⟨u, v', hserial, hthreads⟩ := determinate_start hledger
    (admitted_numbered hledger hvalid orders) (tuplesOf_numbered orders _).symm v
  refine ⟨u, run_numbered [] (fun hend => hvalid _ hend) hserial, fun {k c'} hruns hdone => ?_⟩
  have hleads : (start K P earlier.length later).Leads (start K P 0 (earlier ++ later))
      (start K P 0 earlier) [] := by
    have hstart := leads_start (K := K) (P := P) earlier later 0
    rwa [Nat.zero_add] at hstart
  obtain ⟨j, z, hj, hbefore, hafter, hpart⟩ := hleads.passes hruns hdone
  have hz : z = (u, v') := (hthreads executor).result hpart ⟨rfl, fun _ hmem => by cases hmem⟩
  exact ⟨j, z, hj, hbefore, hafter, congrArg Prod.fst hz⟩

/-- A queue that ends, in any batches: serially, with threads, and with the workers of a pool, which
take the tasks of all batches from one queue. -/
theorem queue_reproduces_serial (h : Ledger K P t.1) {tuples rest : List EventTuple}
    (hvalid : ∀ tuple ∈ tuples, tuple.Valid t.1) {batches : List (List EventTuple)}
    (hcut : Cut (tuples ++ .endExecution :: rest) batches) (orders : ℕ → IterationOrder)
    (v : Vectors) : ∃ u v',
    (TpccSerialProcessor.start K orders 0 (tuples ++ .endExecution :: rest)).run t =
      some ((), u) ∧
    (∀ executor : Executor,
      Determinate (executor.limit K) ⟨start K P 0 batches, [], (t, v)⟩ (u, v')) ∧
    (PooledConfig.start K.kParallelism (start K P 0 batches) (t, v)).Determinate (u, v') := by
  obtain ⟨u, v', hserial, hthreads⟩ := determinate_queue h hvalid hcut orders v
  exact ⟨u, v', hserial, hthreads,
    PooledConfig.determinate K.parallelism_pos (hthreads .threadPool)⟩

/-- The workers of the pool are woken one by one, and take the tasks of all batches in their order:
the tables end as the serial processor leaves them, and the destructor finds every worker returned. -/
theorem tpcc_pool_reproduces_serial (hpop : PopulatedState K P clock t₀) (hreached : ValidRun K t₀ txns)
    (hrun : run (TpccSerialProcessor.step K) t₀ txns = some t) {tuples rest : List EventTuple}
    (hvalid : ∀ tuple ∈ tuples, tuple.Valid t.1) {batches : List (List EventTuple)}
    (hcut : Cut (tuples ++ .endExecution :: rest) batches) (orders : ℕ → IterationOrder)
    (v : Vectors) : ∃ u z,
    (TpccSerialProcessor.start K orders 0 (tuples ++ .endExecution :: rest)).run t =
      some ((), u) ∧
    (PooledConfig.start K.kParallelism (start K P 0 batches) (t, v)).Determinate z ∧ z.1 = u := by
  obtain ⟨u, v', hserial, -, hpool⟩ :=
    queue_reproduces_serial (ledger_reached hpop hreached hrun) hvalid hcut orders v
  exact ⟨u, (u, v'), hserial, hpool, rfl⟩

end Reached

def firstBatch : List EventTuple := (tuplesOf shortRun).take 1

def lastBatch : List EventTuple := (tuplesOf shortRun).drop 1 ++ [.endExecution]

private theorem shortRun_valid {clock : Clock} (ht : PopulatedState .unpartitioned .small clock t) :
    ∀ tuple ∈ tuplesOf shortRun, tuple.Valid t.1 := by
  intro tuple htuple
  obtain ⟨txn, htxn, rfl⟩ := List.mem_map.mp htuple
  exact ht.ledger.valid_iff.mpr (shortRun_inScale txn htxn)

theorem tpcc_batches_are_barriers_shortRun : ∃ t u k c' j z,
    PopulatedState .unpartitioned .small (fun _ => 0) t ∧
    (TpccSerialProcessor.start .unpartitioned (fun _ => .listed) 0
      (firstBatch ++ [.endExecution])).run t = some ((), u) ∧
    Runs (Executor.threads.limit .unpartitioned) k
      ⟨start .unpartitioned .small 0 [firstBatch, lastBatch], [], (t, fun _ => [])⟩ c' ∧
    Finished c' ∧
    Runs (Executor.threads.limit .unpartitioned) j
      ⟨start .unpartitioned .small 0 [firstBatch, lastBatch], [], (t, fun _ => [])⟩
      ⟨start .unpartitioned .small 1 [lastBatch], [], z⟩ ∧ z.1 = u := by
  obtain ⟨t, ht⟩ := exists_small
  have hvalid := shortRun_valid ht
  have hreached : ValidRun .unpartitioned t [] := trivial
  have hadmitted : Admitted .small (shortRun ++ [(.endExecution, .listed)]) := by
    intro txn htxn
    rcases List.mem_append.mp htxn with htxn | htxn
    · exact Or.inl (shortRun_inScale txn htxn)
    · exact Or.inr (congrArg Prod.fst (List.mem_singleton.mp htxn))
  have htuples : [firstBatch, lastBatch].flatten =
      tuplesOf (shortRun ++ [(.endExecution, .listed)]) := by
    rw [List.flatten_cons, List.flatten_singleton, firstBatch, lastBatch, ← List.append_assoc,
      List.take_append_drop, tuplesOf, tuplesOf, List.map_append]
    rfl
  obtain ⟨_, _, -, hthreads⟩ := determinate_start (K := .unpartitioned) ht.ledger hadmitted htuples
    (fun _ => [])
  obtain ⟨k, c', hruns, hfinished⟩ := (hthreads .threads).exists_finished
  obtain ⟨u, hserial, hbarrier⟩ := @tpcc_batches_are_barriers .unpartitioned .small t _ t [] ht hreached
    rfl [firstBatch] [lastBatch]
    (fun tuple htuple => hvalid tuple (List.mem_of_mem_take (List.flatten_singleton ▸ htuple)))
    .threads (fun _ => .listed) (fun _ => [])
  obtain ⟨j, z, -, hbefore, -, hz⟩ := hbarrier hruns hfinished.1
  exact ⟨t, u, k, c', j, z, ht, hserial, hruns, hfinished, hbefore, hz⟩

theorem tpcc_pool_reproduces_serial_shortRun : ∃ t u z,
    PopulatedState .unpartitioned .small (fun _ => 0) t ∧
    (TpccSerialProcessor.start .unpartitioned (fun _ => .listed) 0
      (tuplesOf shortRun ++ [.endExecution])).run t = some ((), u) ∧
    (PooledConfig.start Constants.unpartitioned.kParallelism
      (start .unpartitioned .small 0 [firstBatch, lastBatch]) (t, fun _ => [])).Determinate z ∧
    z.1 = u := by
  obtain ⟨t, ht⟩ := exists_small
  have hreached : ValidRun .unpartitioned t [] := trivial
  have hlast : Cut ((tuplesOf shortRun).drop 1 ++ [.endExecution]) [lastBatch] :=
    .last (by simp [shortRun])
  have hcut : Cut (tuplesOf shortRun ++ [.endExecution]) [firstBatch, lastBatch] :=
    have hne : firstBatch ≠ [] := List.cons_ne_nil _ _
    .next hne (by simp [firstBatch, shortRun]) hlast
  obtain ⟨u, z, hserial, hpool, hz⟩ := tpcc_pool_reproduces_serial ht hreached rfl (shortRun_valid ht) hcut
    (fun _ => .listed) (fun _ => [])
  exact ⟨t, u, z, ht, hserial, hpool, hz⟩

end ImdbD.Benchmark.TPCC.TpccBatchProcessor
