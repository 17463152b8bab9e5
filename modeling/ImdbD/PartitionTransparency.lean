import ImdbD.TpccPartitionLoad
import ImdbD.TatpPartition

/-!
# Partitioning is transparent

Two runs from the same draws, with different partitions, meet the same answers
and leave the same rows. Every row lies in the copy of its table that its key
tells, and in no other.
-/
namespace ImdbD.Benchmark
open AtomicProgram KeyedStore StorageEngine

namespace TPCC
variable {K K' : Constants} {s t : Tables}

theorem Alike.symm (h : Alike K K' s t) : Alike K' K t s where
  row n := (h.row n).symm
  lines o d w := (h.lines o d w).symm
  heap id := (h.heap id).symm
  left := h.right
  right := h.left

theorem Alike.logicalRows_subset (h : Alike K K' s t) : logicalRows s ⊆ logicalRows t := by
  rintro l ⟨id, ⟨k, r, hr, rfl⟩ | ⟨r, hr, rfl⟩⟩
  · obtain ⟨n, hn⟩ := h.left id k (by simp [hr])
    cases hn
    have hrow := h.row n
    rw [hr, Option.map_some] at hrow
    obtain ⟨r', hr', he⟩ := Option.map_eq_some_iff.mp hrow.symm
    exact ⟨_, .inl ⟨_, r', hr', he⟩⟩
  · exact ⟨id, .inr ⟨r, h.heap id ▸ hr, rfl⟩⟩

theorem Alike.logicalRows_eq (h : Alike K K' s t) : logicalRows s = logicalRows t :=
  h.logicalRows_subset.antisymm h.symm.logicalRows_subset

/-- The processor comes to the end of a queue of valid transactions. -/
theorem Ledger.exists_start {P : ScaleParams} {t : State} (h : Ledger K P t.1)
    {queue : List EventTuple} (hqueue : ∀ e ∈ queue, e.InScale P) (orders : ℕ → IterationOrder) :
    ∃ u, (TpccSerialProcessor.start K orders 0 (queue ++ [.endExecution])).run t = some ((), u) := by
  have hnoEnd : ∀ e ∈ queue, e ≠ .endExecution := by
    rintro e he rfl
    exact hqueue _ he
  have htxns : ∀ txn ∈ queue.zipIdx.map (fun e => ((e.1, orders e.2) : Txn)), txn.1.InScale P := by
    intro txn htxn
    obtain ⟨e, he, rfl⟩ := List.mem_map.mp htxn
    exact hqueue _ (List.fst_mem_of_mem_zipIdx he)
  obtain ⟨u, hu, -⟩ := h.exists_run (h.validRun_iff.mpr htxns)
  rw [← run_start orders queue [] hnoEnd 0] at hu
  obtain ⟨⟨_, _⟩, hrun, rfl⟩ := Option.map_eq_some_iff.mp hu
  exact ⟨_, hrun⟩

/-- From the same draws, two partitionings lead to the same answers and the same rows. The rows
without a key, of HISTORY, are the same ones in the same order, and each as often. -/
def Transparent (K K' : Constants) : Prop :=
  ∀ (P : ScaleParams) (cLast : ℤ) (rounds : ℕ) (env : Rand × Clock) (t : Env),
    (TpccPopulator.startPopulate K P cLast rounds).run ((Store.empty, env.1), env.2) = some ((), t) →
    ∀ (orders : ℕ → IterationOrder) (queue : List EventTuple), (∀ e ∈ queue, e.InScale P) →
    ∃ t' u u',
      (TpccPopulator.startPopulate K' P cLast rounds).run ((Store.empty, env.1), env.2) =
        some ((), t') ∧
      List.Forall₂ SameAnswer
        ((TpccPopulator.startPopulate K P cLast rounds).answers ((Store.empty, env.1), env.2))
        ((TpccPopulator.startPopulate K' P cLast rounds).answers ((Store.empty, env.1), env.2)) ∧
      (TpccSerialProcessor.start K orders 0 (queue ++ [.endExecution])).run t.1 = some ((), u) ∧
      (TpccSerialProcessor.start K' orders 0 (queue ++ [.endExecution])).run t'.1 = some ((), u') ∧
      List.Forall₂ SameAnswer
        ((TpccSerialProcessor.start K orders 0 (queue ++ [.endExecution])).answers t.1)
        ((TpccSerialProcessor.start K' orders 0 (queue ++ [.endExecution])).answers t'.1) ∧
      logicalRows u.1 = logicalRows u'.1 ∧ u.1.heap = u'.1.heap ∧ Routed K u.1 ∧ Routed K' u'.1

theorem transparent (K K' : Constants) : Transparent K K' := by
  intro P cLast rounds env t ht orders queue hqueue
  have hempty : AlikeEnvs K' K ((Store.empty, env.1), env.2) ((Store.empty, env.1), env.2) :=
    ⟨⟨.empty, rfl⟩, rfl⟩
  obtain ⟨⟨_, t', ht', htt'⟩, hanswers⟩ := hempty.startPopulate P cLast rounds _ _ ht
  have hpopulated : PopulatedState K P env.2 t.1 := ⟨cLast, rounds, env.1, t.2, ht⟩
  obtain ⟨u, hu⟩ := hpopulated.ledger.exists_start hqueue orders
  obtain ⟨⟨_, u', hu', huu'⟩, hanswers'⟩ := htt'.1.start orders 0 (queue ++ [.endExecution]) _ _ hu
  exact ⟨t', u, u', ht', (List.Forall₂.flip hanswers).imp (fun _ _ h => h.symm), hu, hu',
    (List.Forall₂.flip hanswers').imp (fun _ _ h => h.symm), huu'.1.symm.logicalRows_eq,
    funext huu'.1.symm.heap, huu'.1.right, huu'.1.left⟩

end TPCC

namespace TATP
variable {K K' : Constants} {s t : Tables}

/-- The table without its partition. -/
def TableId.kind : TableId → TableKind
  | .subscriber => .subscriber
  | .accessInfo _ => .accessInfo
  | .specialFacility _ => .specialFacility
  | .callForwarding _ => .callForwarding

/-- The rows of a table, with its partitions put together. -/
def logicalRows (s : Tables) (kind : TableKind) : Set ByteMemory.Bytes :=
  { data | ∃ id : TableId, id.kind = kind ∧ ∃ k r, s.row id k = some r ∧ r.data = data }

theorem Alike.logicalRows_eq (h : Alike K K' s t) : logicalRows s = logicalRows t := by
  have hkind : ∀ n : RowName, (n.table K).kind = (n.table K').kind := fun n => by cases n <;> rfl
  funext kind
  refine Set.ext (fun data => ⟨?_, ?_⟩)
  · rintro ⟨id, rfl, k, r, hr, rfl⟩
    obtain ⟨-, n, hn⟩ := h.left id k r hr
    cases hn
    have hrow := h.row n
    rw [hr, Option.map_some] at hrow
    obtain ⟨r', hr', he⟩ := Option.map_eq_some_iff.mp hrow.symm
    exact ⟨_, (hkind n).symm, _, r', hr', he⟩
  · rintro ⟨id, rfl, k, r, hr, rfl⟩
    obtain ⟨-, n, hn⟩ := h.right id k r hr
    cases hn
    have hrow := h.row n
    rw [hr, Option.map_some] at hrow
    obtain ⟨r', hr', he⟩ := Option.map_eq_some_iff.mp hrow
    exact ⟨_, hkind n, _, r', hr', he⟩

/-- From the same draws, two partitionings lead to the same answers and the same rows. -/
def Transparent (K K' : Constants) : Prop :=
  ∀ (draws : Draws), draws.names.Nodup → ∃ s t : Tables,
    (TatpPopulator.startPopulate (RecordStore.manager layout) K draws).run .empty = some ((), s) ∧
    (TatpPopulator.startPopulate (RecordStore.manager layout) K' draws).run .empty = some ((), t) ∧
    List.Forall₂ SameAnswer
      ((TatpPopulator.startPopulate (RecordStore.manager layout) K draws).answers .empty)
      ((TatpPopulator.startPopulate (RecordStore.manager layout) K' draws).answers .empty) ∧
    ∀ (memories : ℕ → Memory) (tuples : List EventTuple) (effects : List Effect),
      List.Forall₂ (Denotes s) tuples effects → ∃ s' t' : Tables,
        (TatpSerialProcessor.start (RecordStore.manager layout) K memories 0
          (tuples ++ [.endExecution])).run s = some ((), s') ∧
        (TatpSerialProcessor.start (RecordStore.manager layout) K' memories 0
          (tuples ++ [.endExecution])).run t = some ((), t') ∧
        List.Forall₂ SameAnswer
          ((TatpSerialProcessor.start (RecordStore.manager layout) K memories 0
            (tuples ++ [.endExecution])).answers s)
          ((TatpSerialProcessor.start (RecordStore.manager layout) K' memories 0
            (tuples ++ [.endExecution])).answers t) ∧
        logicalRows s' = logicalRows t' ∧ Routed K s' ∧ Routed K' t'

theorem transparent (K K' : Constants) : Transparent K K' := by
  intro draws hkeys
  obtain ⟨s, hs, hloaded⟩ := run_startPopulate (K := K) hkeys
  obtain ⟨⟨_, t, ht, halike⟩, hanswers⟩ :=
    (partitionSimulation K' K).startPopulate .empty draws _ _ hs
  refine ⟨s, t, hs, ht, (List.Forall₂.flip hanswers).imp (fun _ _ h => h.symm),
    fun memories tuples effects hd => ?_⟩
  obtain ⟨s', hs', -⟩ := run_start (K := K) (Loaded.numbered hloaded) (.refl s) hd memories 0
  obtain ⟨⟨_, t', ht', halike'⟩, hanswers'⟩ :=
    (partitionSimulation K' K).start halike memories 0 _ _ _ hs'
  exact ⟨s', t', hs', ht', (List.Forall₂.flip hanswers').imp (fun _ _ h => h.symm),
    halike'.logicalRows_eq.symm, halike'.right, halike'.left⟩

end TATP

/-- Partitioning is transparent in both benchmarks, whatever the partitions are. -/
theorem partitioning_transparent (K K' : TPCC.Constants) (L L' : TATP.Constants) :
    TPCC.Transparent K K' ∧ TATP.Transparent L L' :=
  ⟨TPCC.transparent K K', TATP.transparent L L'⟩

/-- The constants with two partitions. -/
def TPCC.Constants.twoPartitions : TPCC.Constants :=
  { TPCC.Constants.unpartitioned with
    kPartition := true
    kPartitionCnt := 2
    partitionCnt_pos := by decide
    partitionCnt_le := by decide }

def TATP.unpartitioned : TATP.Constants := { TATP.partitioned with kPartition := false }

/-- Some transactions for this subscriber. -/
def TATP.firstTuples : List TATP.EventTuple :=
  [.insertCallForwarding ⟨TATP.firstNumber, 2, 16, 20, TATP.firstNumber⟩,
    .updateSubscriberData ⟨1, 1, 77, 2⟩, .deleteCallForwarding ⟨TATP.firstNumber, 2, 8⟩]

/-- Partitions against none, after a short run of each benchmark. -/
theorem partitioning_transparent_shortRun :
    (∃ t t' : TPCC.State, ∃ u u' : TPCC.State,
      TPCC.PopulatedState .twoPartitions .small (fun _ => 0) t ∧
      TPCC.PopulatedState .unpartitioned .small (fun _ => 0) t' ∧
      (TPCC.TpccSerialProcessor.start .twoPartitions (fun _ => .listed) 0
        (TPCC.shortRun.map Prod.fst ++ [.endExecution])).run t = some ((), u) ∧
      (TPCC.TpccSerialProcessor.start .unpartitioned (fun _ => .listed) 0
        (TPCC.shortRun.map Prod.fst ++ [.endExecution])).run t' = some ((), u') ∧
      TPCC.logicalRows u.1 = TPCC.logicalRows u'.1 ∧ u.1.heap = u'.1.heap) ∧
    ∃ s t s' t' : TATP.Tables,
      (TATP.TatpPopulator.startPopulate (RecordStore.manager TATP.layout) TATP.partitioned
        TATP.oneSubscriber).run .empty = some ((), s) ∧
      (TATP.TatpPopulator.startPopulate (RecordStore.manager TATP.layout) TATP.unpartitioned
        TATP.oneSubscriber).run .empty = some ((), t) ∧
      (TATP.TatpSerialProcessor.start (RecordStore.manager TATP.layout) TATP.partitioned
        (fun _ _ => 0) 0 (TATP.firstTuples ++ [.endExecution])).run s = some ((), s') ∧
      (TATP.TatpSerialProcessor.start (RecordStore.manager TATP.layout) TATP.unpartitioned
        (fun _ _ => 0) 0 (TATP.firstTuples ++ [.endExecution])).run t = some ((), t') ∧
      TATP.logicalRows s' = TATP.logicalRows t' := by
  obtain ⟨htpcc, htatp⟩ := partitioning_transparent .twoPartitions .unpartitioned TATP.partitioned
    TATP.unpartitioned
  refine ⟨?_, ?_⟩
  · obtain ⟨t, cLast, rounds, rand, clock', ht⟩ :=
      TPCC.exists_populatedState .twoPartitions (P := .small) (fun _ => 0) (by decide) (by decide)
    have hqueue : ∀ e ∈ TPCC.shortRun.map Prod.fst, e.InScale .small := by decide
    obtain ⟨t', u, u', ht', -, hu, hu', -, hrows, hheap, -⟩ :=
      htpcc .small cLast rounds (rand, fun _ => 0) (t, clock') ht (fun _ => .listed) _ hqueue
    exact ⟨t, t'.1, u, u', ⟨cLast, rounds, rand, clock', ht⟩, ⟨cLast, rounds, rand, t'.2, ht'⟩, hu, hu',
      hrows, hheap⟩
  · have hkeys : TATP.oneSubscriber.names.Nodup := by decide
    obtain ⟨s, t, hs, ht, -, hrun⟩ := htatp TATP.oneSubscriber hkeys
    have hcarries : TATP.Carries s 1 TATP.firstNumber := by
      obtain ⟨s₁, hs₁, hloaded⟩ := TATP.run_startPopulate (K := TATP.partitioned) hkeys
      rw [hs] at hs₁
      cases hs₁
      exact TATP.Loaded.carries hloaded (by decide) (by rw [TATP.TatpUtil.padWithZero]; simp; decide)
    obtain ⟨s', t', hs', ht', -, hrows, -⟩ := hrun (fun _ _ => 0) TATP.firstTuples _
      (.cons (.insertCallForwarding hcarries) (.cons (.updateSubscriberData _)
        (.cons (.deleteCallForwarding hcarries) .nil)))
    exact ⟨s, t, s', t', hs, ht, hs', ht', hrows⟩

end ImdbD.Benchmark
