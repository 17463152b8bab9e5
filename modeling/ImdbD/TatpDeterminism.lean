import ImdbD.TatpBatchRun

/-!
# Strong determinism of TATP

Whatever way a queue is cut into batches and however the threads interleave,
the tables end as the serial processor leaves them, and every call finds what
the transactions before it have left.
-/
namespace ImdbD.Benchmark.TATP.TatpBatchProcessor
open ByteMemory StorageEngine AtomicProgram RecordStore
open KeyedStore (Store)

variable {K : Constants} {s₀ s s' : Tables} {sIds : SIds} {batch : List EventTuple}
  {jobs : List Job} {b : ℕ} {memory : ℕ → Memory} {notes : Notes} {w z : Work}

theorem tupleJobs_placed {pos : Positions} {tuple : EventTuple}
    (h : tupleJobs K sIds pos tuple = some jobs) :
    ∀ job ∈ jobs, Second job.1.1 ∧ job.1.2 < K.kParallelism := by
  have hlt : ∀ sId, bucket K sId < K.kParallelism := fun _ => Nat.mod_lt _ K.parallelism_pos
  cases tuple with
  | deleteCallForwarding param =>
    obtain ⟨sId, -, rfl⟩ := Option.map_eq_some_iff.mp h
    simp [hlt, Second.dcfIcf]
  | insertCallForwarding param =>
    obtain ⟨sId, -, rfl⟩ := Option.map_eq_some_iff.mp h
    simp [hlt, Second.dcfIcf, Second.icfUsd]
  | updateLocation param =>
    obtain ⟨sId, -, rfl⟩ := Option.map_eq_some_iff.mp h
    simp [hlt, Second.gsdUlUsd]
  | getSubscriberData param =>
    cases h
    simp [hlt, Second.gsdUlUsd]
  | updateSubscriberData param =>
    cases h
    simp [hlt, Second.gsdUlUsd, Second.icfUsd]
  | getAccessData _ | getNewDestination _ | endExecution =>
    cases h
    nofun

theorem batchJobs_placed {pos : Positions} (h : batchJobs K sIds batch pos = some jobs) :
    ∀ job ∈ jobs, Second job.1.1 ∧ job.1.2 < K.kParallelism := by
  induction batch generalizing pos jobs with
  | nil =>
    cases h
    nofun
  | cons tuple batch ih =>
    obtain ⟨first, hfirst, h⟩ := Option.bind_eq_some_iff.mp h
    obtain ⟨rest, hrest, he⟩ := Option.bind_eq_some_iff.mp h
    cases he
    intro job hjob
    rcases List.mem_append.mp hjob with hjob | hjob
    · exact tupleJobs_placed hfirst job hjob
    · exact ih hrest job hjob

/-- The crews of the second round in the order of their start. -/
abbrev secondRound : List Role := [.dcfIcf, .gsdUlUsd, .icfUsd]

theorem Second.mem {r : Role} (h : Second r) : r ∈ secondRound := by
  cases h <;> decide

/-- Jobs of different threads commute, so the threads can run one after the other. -/
theorem run_sorted (hjobs : batchJobs K sIds batch (.of []) = some jobs)
    (h : GuardedRun.run (runJob K b memory batch sIds) w jobs = some z) :
    GuardedRun.run (runJob K b memory batch sIds) w
      ((crews (size K) secondRound).flatMap (fun id => jobs.filter (fun job => job.1 = id))) =
        some z := by
  have hwithin : ∀ job ∈ jobs,
      (perform K b memory batch sIds job.1.1 job.2).Within workPlaces (foot K job.1) := by
    intro job hjob
    exact perform_within (batchJobs_placed hjobs job hjob).1
      (fun sId hsId => batchJobs_sorted hjobs hjob hsId)
  refine GuardedRun.run_classes (fun _ _ _ _ _ => trivial) (fun id (hne : id ≠ id) => hne rfl)
    Prod.fst (List.nodup_iff_pairwise_ne.mp (nodup_crews (by decide))) (fun job hjob => ?_) ?_ trivial h
  · obtain ⟨hsecond, hlt⟩ := batchJobs_placed hjobs job hjob
    exact mem_crews.mpr ⟨hsecond.mem, hlt⟩
  · refine List.pairwise_of_forall_mem_list (fun job hjob job' hjob' hne => ?_)
    have hbeside := beside_second K (batchJobs_placed hjobs job hjob).1
      (batchJobs_placed hjobs job' hjob').1
    exact overtakes (hwithin job hjob) (hwithin job' hjob') (hbeside _ _ (Ne.symm hne))

/-- A crew runs the jobs of its buckets. -/
theorem each_crew {r : Role} (hr : Second r) (jobs : List Job) :
    Program.each (fun t => Program.each (perform K b memory batch sIds r)
        ((jobs.foldl Buckets.add ⟨fun _ => [], fun _ => [], fun _ => []⟩).of r t))
        (List.range K.kParallelism) =
      Program.each (fun job : Job => perform K b memory batch sIds job.1.1 job.2)
        ((crews (size K) [r]).flatMap (fun id => jobs.filter (fun job => job.1 = id))) := by
  have hthread : ∀ t, Program.each (perform K b memory batch sIds r)
      ((jobs.foldl Buckets.add ⟨fun _ => [], fun _ => [], fun _ => []⟩).of r t) =
        Program.each (fun job : Job => perform K b memory batch sIds job.1.1 job.2)
          (jobs.filter (fun job => job.1 = (r, t))) := by
    intro t
    have hempty : Buckets.of ⟨fun _ => [], fun _ => [], fun _ => []⟩ r t = [] := by cases hr <;> rfl
    rw [Buckets.of_foldl jobs _ hr, hempty, List.nil_append, Program.each_map]
    refine Program.each_congr (fun job hjob => ?_)
    rw [(Prod.ext_iff.mp (of_decide_eq_true (List.mem_filter.mp hjob).2)).1]
  rw [crews, List.flatMap_singleton, List.flatMap_map, Program.each_flatMap]
  exact Program.each_congr (fun t _ => hthread t)

private theorem each_secondRound (jobs : List Job) :
    (do
      Program.each (fun job : Job => perform K b memory batch sIds job.1.1 job.2)
        ((crews (size K) [.dcfIcf]).flatMap (fun id => jobs.filter (fun job => job.1 = id)))
      Program.each (fun job : Job => perform K b memory batch sIds job.1.1 job.2)
        ((crews (size K) [.gsdUlUsd]).flatMap (fun id => jobs.filter (fun job => job.1 = id)))
      Program.each (fun job : Job => perform K b memory batch sIds job.1.1 job.2)
        ((crews (size K) [.icfUsd]).flatMap (fun id => jobs.filter (fun job => job.1 = id)))) =
      Program.each (fun job : Job => perform K b memory batch sIds job.1.1 job.2)
        ((crews (size K) secondRound).flatMap (fun id => jobs.filter (fun job => job.1 = id))) := by
  rw [← Program.each_append, ← Program.each_append, ← List.flatMap_append, ← List.flatMap_append,
    ← crews_cons, ← crews_cons]

section Lookups
variable {lookup : Lookup}

private theorem mem_stripe {t k size i : ℕ} (hk : 0 < k) (hi : i ∈ stripe t k size) : i < size := by
  obtain ⟨j, hj, rfl⟩ := List.mem_range'.mp hi
  have hle : k * (j + 1) ≤ size - t + k - 1 := by
    rw [Nat.mul_comm]
    exact (Nat.le_div_iff_mul_le hk).mp hj
  rw [Nat.mul_succ] at hle
  omega

private theorem mem_stripe_mod {k size i : ℕ} (hk : 0 < k) (hi : i < size) : i ∈ stripe (i % k) k size := by
  refine List.mem_range'.mpr ⟨i / k, ?_, (Nat.mod_add_div i k).symm⟩
  rw [Nat.lt_iff_add_one_le, Nat.le_div_iff_mul_le hk, Nat.add_mul, Nat.one_mul, Nat.mul_comm]
  have hdiv := Nat.mod_add_div i k
  omega

/-- The vector of a lookup leads to the subscribers at the positions that are done. -/
structure Filled (s : Tables) (batch : List EventTuple) (lookup : Lookup) (v : SIds) (done : ℕ → Prop)
    (v' : SIds) : Prop where
  other : ∀ lookup' ≠ lookup, v' lookup' = v lookup'
  length : (v' lookup).length = (subNbrs batch lookup).length
  found : ∀ i, done i → ∀ subNbr, (subNbrs batch lookup)[i]? = some subNbr →
    ∃ sId, (v' lookup)[i]? = some sId ∧ Found s lookup subNbr sId

variable {v v' : SIds} {done : ℕ → Prop} {n : Notes}

theorem Filled.write {i : ℕ} {subNbr : CString} {sId : Int32} (h : Filled s batch lookup v done v')
    (hi : (subNbrs batch lookup)[i]? = some subNbr) (hfound : Found s lookup subNbr sId) :
    Filled s batch lookup v (fun j => done j ∨ j = i)
      (Function.update v' lookup ((v' lookup).set i sId)) := by
  have hlt : i < (v' lookup).length := h.length ▸ (List.getElem?_eq_some_iff.mp hi).1
  refine ⟨fun lookup' hne => ?_, ?_, fun j hj subNbr' hj' => ?_⟩
  · rw [Function.update_of_ne hne, h.other lookup' hne]
  · rw [Function.update_self, List.length_set, h.length]
  · rw [Function.update_self]
    by_cases he : i = j
    · subst he
      rw [hi] at hj'
      cases hj'
      exact ⟨sId, List.getElem?_set_self hlt, hfound⟩
    · rw [List.getElem?_set_ne he]
      exact h.found j (hj.resolve_right (Ne.symm he)) subNbr' hj'

private theorem run_sidThread (hknown : ∀ subNbr ∈ subNbrs batch lookup, ∃ sId, Found s lookup subNbr sId)
    (h : Filled s batch lookup v done v') (t : ℕ) : ∃ v'',
      (sidThread K batch lookup t).run ((s, v'), n) = some ((), ((s, v''), n)) ∧
      Filled s batch lookup v
        (fun j => done j ∨ j ∈ stripe t K.kParallelism (subNbrs batch lookup).length) v'' := by
  have hlt : ∀ i ∈ stripe t K.kParallelism (subNbrs batch lookup).length,
      i < (subNbrs batch lookup).length := fun i hi => mem_stripe K.parallelism_pos hi
  simp only [sidThread, Program.run_onFst]
  generalize stripe t K.kParallelism (subNbrs batch lookup).length = is at hlt ⊢
  induction is generalizing done v' with
  | nil => exact ⟨v', rfl, by simpa using h⟩
  | cons i is ih =>
    have hi := List.getElem?_eq_getElem (hlt i List.mem_cons_self)
    obtain ⟨sId, hfound⟩ := hknown _ (List.mem_of_getElem? hi)
    have hlen : i < (v' lookup).length := h.length ▸ hlt i List.mem_cons_self
    obtain ⟨v'', hrun, hv''⟩ := ih (h.write hi hfound) (fun j hj => hlt j (List.mem_cons_of_mem i hj))
    refine ⟨v'', ?_, ?_⟩
    · simp only [Program.run_each_cons, Program.run_bind, Program.run_fetch, hi, Option.map_some,
        Option.bind_some, Program.run_onFst, run_getSubscriberId, hfound.1, Program.run_onSnd,
        Program.run_writeAt _ hlen]
      exact hrun
    · simpa only [List.mem_cons, or_assoc] using hv''

theorem run_sidThreads (hknown : ∀ subNbr ∈ subNbrs batch lookup, ∃ sId, Found s lookup subNbr sId)
    (hlength : (v lookup).length = (subNbrs batch lookup).length) : ∃ v',
      (Program.each (sidThread K batch lookup) (List.range K.kParallelism)).run ((s, v), n) =
        some ((), ((s, v'), n)) ∧ Filled s batch lookup v (fun _ => True) v' := by
  have hts : ∀ ts done v', Filled s batch lookup v done v' → ∃ v'',
      (Program.each (sidThread K batch lookup) ts).run ((s, v'), n) = some ((), ((s, v''), n)) ∧
      Filled s batch lookup v (fun j => done j ∨
        ∃ t ∈ ts, j ∈ stripe t K.kParallelism (subNbrs batch lookup).length) v'' := by
    intro ts
    induction ts with
    | nil => exact fun done v' h => ⟨v', rfl, by simpa using h⟩
    | cons t ts ih =>
      intro done v' h
      obtain ⟨v₁, hrun, h₁⟩ := run_sidThread (K := K) (n := n) hknown h t
      obtain ⟨v₂, hrun₂, h₂⟩ := ih _ _ h₁
      refine ⟨v₂, ?_, ?_⟩
      · rw [Program.run_each_cons, hrun, Option.bind_some, hrun₂]
      · simpa only [List.mem_cons, exists_eq_or_imp, or_assoc] using h₂
  have hnone : Filled s batch lookup v (fun _ => False) v := ⟨fun _ _ => rfl, hlength, nofun⟩
  obtain ⟨v', hrun, h⟩ := hts (List.range K.kParallelism) _ _ hnone
  refine ⟨v', hrun, h.other, h.length, fun i _ subNbr hi => h.found i (Or.inr ?_) subNbr hi⟩
  have hlt : i < (subNbrs batch lookup).length := (List.getElem?_eq_some_iff.mp hi).1
  exact ⟨i % K.kParallelism, List.mem_range.mpr (Nat.mod_lt i K.parallelism_pos),
    mem_stripe_mod K.parallelism_pos hlt⟩

end Lookups

section Batch
variable {v : SIds} {n : Notes}

private theorem run_gadThreads (w : Work) :
    (Program.each (gadThread K batch) (List.range K.kParallelism)).run w = some ((), w) := by
  refine run_each_same (fun t _ => run_each_same (fun i hi => ?_))
  have hget := List.getElem?_eq_getElem (mem_stripe K.parallelism_pos hi)
  simp only [Program.run_bind, Program.run_fetch, hget, Option.map_some, Option.bind_some]
  exact run_onTables (run_getAccessInfo w.1.1 _)

/-- The first round ends with all numbers looked up. -/
theorem run_lookups (hknown : ∀ lookup, ∀ subNbr ∈ subNbrs batch lookup, ∃ sId, Found s lookup subNbr sId)
    (hlength : ∀ lookup, (v lookup).length = (subNbrs batch lookup).length) : ∃ v₁ v₂ v₃,
      (Program.each (sidThread K batch .dcf) (List.range K.kParallelism)).run ((s, v), n) =
        some ((), ((s, v₁), n)) ∧
      (Program.each (sidThread K batch .icf) (List.range K.kParallelism)).run ((s, v₁), n) =
        some ((), ((s, v₂), n)) ∧
      (Program.each (sidThread K batch .ul) (List.range K.kParallelism)).run ((s, v₂), n) =
        some ((), ((s, v₃), n)) ∧ LookedUp s batch v₃ := by
  obtain ⟨v₁, h₁, hdcf⟩ := run_sidThreads (K := K) (n := n) (hknown .dcf) (hlength .dcf)
  obtain ⟨v₂, h₂, hicf⟩ := run_sidThreads (K := K) (v := v₁) (n := n) (hknown .icf)
    (by rw [hdcf.other .icf nofun, hlength])
  obtain ⟨v₃, h₃, hul⟩ := run_sidThreads (K := K) (v := v₂) (n := n) (hknown .ul)
    (by rw [hicf.other .ul nofun, hdcf.other .ul nofun, hlength])
  refine ⟨v₁, v₂, v₃, h₁, h₂, h₃, fun lookup i subNbr hi => ?_⟩
  cases lookup with
  | dcf =>
    rw [hul.other .dcf nofun, hicf.other .dcf nofun]
    exact hdcf.found i trivial subNbr hi
  | icf =>
    rw [hul.other .icf nofun]
    exact hicf.found i trivial subNbr hi
  | ul => exact hul.found i trivial subNbr hi

theorem subNbrs_known (h : ∀ tuple ∈ batch, Passes s tuple) (lookup : Lookup) :
    ∀ subNbr ∈ subNbrs batch lookup, ∃ sId, Found s lookup subNbr sId := by
  intro subNbr hmem
  rw [subNbrs_eq] at hmem
  obtain ⟨tuple, htuple, hsub⟩ := List.mem_filterMap.mp hmem
  exact h tuple htuple lookup subNbr hsub

/-- The second round does what the jobs do in the order of the queue. -/
theorem run_buckets (hjobs : batchJobs K sIds batch (.of []) = some jobs)
    (h : GuardedRun.run (runJob K b memory batch sIds) w jobs = some z) : ∃ bkts w₁ w₂,
      fillBuckets K sIds batch ⟨0, 0, 0, 0, 0⟩ ⟨fun _ => [], fun _ => [], fun _ => []⟩ = some bkts ∧
      (Program.each (fun t => Program.each (dcfIcfEntry K b memory batch sIds) (bkts.dcfIcfBkt t))
        (List.range K.kParallelism)).run w = some ((), w₁) ∧
      (Program.each (fun t => Program.each (gsdUlUsdEntry b batch sIds) (bkts.gsdUlUsdBkt t))
        (List.range K.kParallelism)).run w₁ = some ((), w₂) ∧
      (Program.each (fun t => Program.each (icfUsdEntry K b batch sIds) (bkts.icfUsdBkt t))
        (List.range K.kParallelism)).run w₂ = some ((), z) := by
  have hfill : fillBuckets K sIds batch (.of []) ⟨fun _ => [], fun _ => [], fun _ => []⟩ =
      some (jobs.foldl Buckets.add ⟨fun _ => [], fun _ => [], fun _ => []⟩) := by
    rw [fillBuckets_eq, hjobs]
    rfl
  have hround := run_each (fun job : Job => perform K b memory batch sIds job.1.1 job.2)
    ((crews (size K) secondRound).flatMap (fun id => jobs.filter (fun job => job.1 = id))) w
  rw [run_sorted hjobs h, ← each_secondRound, ← each_crew .dcfIcf, ← each_crew .gsdUlUsd,
    ← each_crew .icfUsd] at hround
  obtain ⟨_, w₁, h₁, hround⟩ := Program.run_bind_eq_some.mp hround
  obtain ⟨_, w₂, h₂, h₃⟩ := Program.run_bind_eq_some.mp hround
  exact ⟨_, w₁, w₂, hfill, h₁, h₂, h₃⟩

/-- A batch does what the serial processor does with its tuples. -/
theorem runAlone_processBatch (memory : ℕ → Memory) (rest : Script Work (Role × ℕ))
    (h : ∀ tuple ∈ batch, Passes s tuple) :
    ∃ s' v' n', GuardedRun.run (serialStep K) s batch = some s' ∧ Kept s s' ∧
      Noted K b [] batch s n n' ∧
      (processBatch K b memory batch rest).runAlone ((s, v), n) = rest.runAlone ((s', v'), n') := by
  obtain ⟨v₁, v₂, sIds, h₁, h₂, h₃, hids⟩ := run_lookups (K := K) (n := n)
    (v := fun lookup => List.replicate (subNbrs batch lookup).length 0) (subNbrs_known h)
    (fun lookup => List.length_replicate)
  obtain ⟨s', jobs, hserial, hkept, hjobs, hruns⟩ :=
    run_jobs (K := K) (b := b) [] batch memory (.refl s) hids
  obtain ⟨n', hrun, hnoted⟩ := hruns n
  obtain ⟨bkts, w₁, w₂, hfill, hdcfIcf, hgsdUlUsd, hicfUsd⟩ := run_buckets hjobs hrun
  refine ⟨s', sIds, n', hserial, hkept, hnoted, ?_⟩
  simp only [processBatch, Script.runAlone, resize, Option.bind_some, runAlone_spawnAll,
    runAlone_joinAll, runAlone_fetch, h₁, h₂, h₃, run_gadThreads, hfill, hdcfIcf, hgsdUlUsd, hicfUsd]

end Batch

/-- Every call of the batches from number `b` on has found what the transactions before it in the
queue have left. -/
def Sees (K : Constants) (b : ℕ) (batches : List (List EventTuple)) (s : Tables) (notes : Notes) :
    Prop :=
  ∀ earlier passed tuple rest later u, batches = earlier ++ (passed ++ tuple :: rest) :: later →
    GuardedRun.run (serialStep K) s (earlier.flatten ++ passed) = some u →
    ∀ finding ∈ findings K u (b + earlier.length) (.of passed) tuple,
      notes finding.1 = some finding.2

section Batches
variable {v : SIds} {n n₁ n' : Notes} {batches : List (List EventTuple)}
  {memories : ℕ → ℕ → Memory}

theorem Sees.cons (hserial : GuardedRun.run (serialStep K) s batch = some s')
    (hnoted : Noted K b [] batch s n n₁) (hframe : ∀ call, call.batch < b + 1 → n' call = n₁ call)
    (h : Sees K (b + 1) batches s' n') : Sees K b (batch :: batches) s n' := by
  intro earlier passed tuple rest later u he hu finding hf
  cases earlier with
  | nil =>
    obtain ⟨rfl, rfl⟩ := List.cons.inj he
    obtain ⟨hb, -⟩ := mem_findings hf
    rw [hframe finding.1 (hb ▸ Nat.lt_succ_self _)]
    exact hnoted.seen passed tuple rest u rfl hu finding hf
  | cons first earlier =>
    obtain ⟨rfl, rfl⟩ := List.cons.inj he
    rw [List.flatten_cons, List.append_assoc, GuardedRun.run_append, hserial, Option.bind_some] at hu
    refine h earlier passed tuple rest later u rfl hu finding ?_
    rwa [List.length_cons, Nat.add_comm earlier.length 1, ← Nat.add_assoc] at hf

theorem runAlone_start (memories : ℕ → ℕ → Memory) (h : ∀ batch ∈ batches, ∀ tuple ∈ batch, Passes s tuple) :
    ∃ s' v' n', GuardedRun.run (serialStep K) s batches.flatten = some s' ∧
      (start K memories b batches).runAlone ((s, v), n) = some ((s', v'), n') ∧
      (∀ call, call.batch < b → n' call = n call) ∧ Sees K b batches s n' := by
  induction batches generalizing b s v n with
  | nil => exact ⟨s, v, n, rfl, rfl, fun _ _ => rfl, fun _ _ _ _ _ _ he => by simp at he⟩
  | cons batch batches ih =>
    obtain ⟨s₁, v₁, n₁, hserial, hkept, hnoted, hrun⟩ := runAlone_processBatch (K := K) (b := b)
      (v := v) (n := n) (memories b) (start K memories (b + 1) batches) (h batch List.mem_cons_self)
    obtain ⟨s', v', n', hserial', hrun', hframe, hsees⟩ := ih (b := b + 1) (s := s₁) (v := v₁)
      (n := n₁) (fun batch' hbatch tuple htuple =>
        (h batch' (List.mem_cons_of_mem batch hbatch) tuple htuple).kept hkept)
    refine ⟨s', v', n', ?_, hrun.trans hrun', fun call hcall => ?_, hsees.cons hserial hnoted hframe⟩
    · rw [List.flatten_cons, GuardedRun.run_append, hserial, Option.bind_some, hserial']
    · rw [hframe call (by omega), hnoted.frame call (Or.inl (by omega))]

theorem determinate_start (memories : ℕ → ℕ → Memory) (v : SIds) (n : Notes)
    (h : ∀ batch ∈ batches, ∀ tuple ∈ batch, Passes s tuple) : ∃ t z,
    GuardedRun.run (serialStep K) s batches.flatten = some t ∧ z.1.1 = t ∧ Sees K 0 batches s z.2 ∧
      ∀ executor : Executor,
        Determinate (executor.limit K) ⟨start K memories 0 batches, [], ((s, v), n)⟩ z := by
  obtain ⟨t, v', n', hserial, halone, -, hsees⟩ := runAlone_start (K := K) (b := 0) (v := v) (n := n)
    memories h
  exact ⟨t, ((t, v'), n'), hserial, rfl, hsees, fun executor =>
    determinate (executor.limit_zero K) (safe_start memories 0 batches) halone⟩

end Batches

section Serial
variable {tuples queue : List EventTuple} {memories : ℕ → Memory}

/-- What the buffers held before makes no difference. -/
theorem run_process_memory (tuple : EventTuple) (memory memory' : Memory) (s : Tables) :
    (TatpSerialProcessor.process (manager layout) K memory tuple).run s =
      (TatpSerialProcessor.process (manager layout) K memory' tuple).run s := by
  cases tuple with
  | insertCallForwarding param =>
    simp only [TatpSerialProcessor.process, TatpSerialProcessor.processInsertCallForwarding,
      Program.run_bind, run_insertCallForwardingRecord]
  | _ => rfl

theorem run_serial (h : .endExecution ∉ tuples) (txnCnt : ℕ) (s : Tables) :
    (TatpSerialProcessor.start (manager layout) K memories txnCnt
      (tuples ++ .endExecution :: queue)).run s =
        (GuardedRun.run (serialStep K) s tuples).map (fun t => ((), t)) := by
  induction tuples generalizing txnCnt s with
  | nil => rfl
  | cons tuple tuples ih =>
    rw [List.mem_cons, not_or] at h
    obtain ⟨hne, htuples⟩ := h
    have hstart : TatpSerialProcessor.start (manager layout) K memories txnCnt
        (tuple :: (tuples ++ .endExecution :: queue)) = (do
          TatpSerialProcessor.process (manager layout) K (memories txnCnt) tuple
          TatpSerialProcessor.start (manager layout) K memories (txnCnt + 1)
            (tuples ++ .endExecution :: queue)) := by
      cases tuple <;> first | rfl | exact absurd rfl hne
    rw [List.cons_append, hstart, Program.run_bind,
      run_process_memory tuple (memories txnCnt) (fun _ => 0), GuardedRun.run, serialStep]
    cases (TatpSerialProcessor.process (manager layout) K (fun _ => 0) tuple).run s with
    | none => rfl
    | some r => exact ih htuples (txnCnt + 1) r.2

/-- What comes before some tuple comes before the end. -/
theorem before_end {passed rest : List EventTuple} {tuple : EventTuple} (h : .endExecution ∉ tuples)
    (he : passed ++ (tuple :: rest) = tuples ++ [.endExecution]) : .endExecution ∉ passed := by
  rcases List.append_eq_append_iff.mp he with ⟨as, rfl, -⟩ | ⟨cs, rfl, hcs⟩
  · exact fun hmem => h (List.mem_append_left as hmem)
  · cases cs with
    | nil => simpa using h
    | cons c cs => simp at hcs

/-- The batches of a queue are the queue up to its end. -/
theorem Cut.flatten {batches : List (List EventTuple)} (h : Cut queue batches) : ∃ tuples rest,
    queue = tuples ++ .endExecution :: rest ∧ .endExecution ∉ tuples ∧
      batches.flatten = tuples ++ [.endExecution] := by
  induction h with
  | @last tuples queue h => exact ⟨tuples, queue, rfl, h, by simp⟩
  | @next tuples queue batches hne h hrest ih =>
    obtain ⟨later, rest, rfl, hlater, hflatten⟩ := ih
    refine ⟨tuples ++ later, rest, by simp, ?_, by simp [hflatten]⟩
    rw [List.mem_append, not_or]
    exact ⟨h, hlater⟩

variable {batches earlier later : List (List EventTuple)} {passed rest : List EventTuple}
  {tuple : EventTuple}

/-- The lookups of all batches succeed. -/
theorem Cut.passes (hcut : Cut queue batches) (h : ∀ tuple ∈ queue, Passes s tuple) :
    ∀ batch ∈ batches, ∀ tuple ∈ batch, Passes s tuple := by
  obtain ⟨tuples, queue', rfl, hend, hflatten⟩ := hcut.flatten
  intro batch hbatch tuple htuple
  have hmem : tuple ∈ tuples ++ [.endExecution] :=
    hflatten ▸ List.mem_flatten.mpr ⟨batch, hbatch, htuple⟩
  refine h tuple ?_
  rw [List.mem_append, List.mem_singleton] at hmem
  rw [List.mem_append, List.mem_cons]
  exact hmem.imp_right Or.inl

/-- What the batches do one after the other is what the serial processor does with the queue. -/
theorem Cut.run_start (hcut : Cut queue batches) (memories : ℕ → Memory)
    (h : GuardedRun.run (serialStep K) s batches.flatten = some s') :
    (TatpSerialProcessor.start (manager layout) K memories 0 queue).run s = some ((), s') := by
  obtain ⟨tuples, queue', rfl, hend, hflatten⟩ := hcut.flatten
  rw [hflatten, GuardedRun.run_append] at h
  obtain ⟨t, hrun, hlast⟩ := Option.bind_eq_some_iff.mp h
  cases hlast
  rw [run_serial hend, hrun, Option.map_some]

/-- And so with the tuples that come before one of a batch. -/
theorem Cut.run_passed (hcut : Cut queue batches) (memories : ℕ → Memory)
    (h : GuardedRun.run (serialStep K) s batches.flatten = some s')
    (he : batches = earlier ++ (passed ++ tuple :: rest) :: later) :
    ∃ u, GuardedRun.run (serialStep K) s (earlier.flatten ++ passed) = some u ∧
      (TatpSerialProcessor.start (manager layout) K memories 0
        (earlier.flatten ++ passed ++ [.endExecution])).run s = some ((), u) := by
  obtain ⟨tuples, queue', rfl, hend, hflatten⟩ := hcut.flatten
  have hsplit : earlier.flatten ++ passed ++ (tuple :: rest ++ later.flatten) =
      tuples ++ [.endExecution] := by
    rw [← hflatten, he]
    simp
  rw [hflatten, ← hsplit, GuardedRun.run_append] at h
  obtain ⟨u, hu, -⟩ := Option.bind_eq_some_iff.mp h
  exact ⟨u, hu, by rw [run_serial (before_end hend hsplit), hu, Option.map_some]⟩

end Serial

/-- Transactions keep the index of the numbers. -/
theorem Indexed.kept (h : Indexed s) (hkept : Kept s s') : Indexed s' := by
  have hrel : ∀ k, Option.Rel (SameBut [2, 33]) (s.row .subscriber k) (s'.row .subscriber k) :=
    hkept.row .subscriber (fun _ => nofun)
  refine ⟨fun k r' hr' => ?_, fun g k => ?_⟩
  · have hrow := hrel k
    rw [hr'] at hrow
    generalize hr : s.row .subscriber k = o at hrow
    cases hrow with
    | @some r _ hsame =>
      have hkey : r'.primaryKey = r.primaryKey :=
        Record.primaryKey_congr (by decide) (fun c hc => hsame c (by revert c; decide)
          (by revert c; decide))
      rw [hkey, h.key k r hr]
  · rw [hkept.groups, h.number]
    have hrow := hrel k
    generalize s.row .subscriber k = o at hrow
    generalize s'.row .subscriber k = o' at hrow
    cases hrow with
    | none => rfl
    | @some r r' hsame =>
      have hcolumn : r'.getColumn 1 = r.getColumn 1 := hsame 1 (by decide) (by decide)
      simp [hcolumn]

/-- The index of a populated database is exact. -/
theorem Loaded.indexed {records : List (Σ id, Record (layout id).schema)} (h : Loaded records s) :
    Indexed s := by
  refine ⟨fun k r hr => ((h.row .subscriber k r).mp hr).2, fun g k => ?_⟩
  rw [h.group .subscriber [1] rfl]
  refine exists_congr (fun r => ?_)
  have hsymbol : r.keySymbol [1] = r.getColumn 1 := List.flatMap_singleton _ _
  rw [h.row, hsymbol]
  exact ⟨fun ⟨hmem, hg, hk⟩ => ⟨⟨hmem, hk⟩, hg⟩, fun ⟨⟨hmem, hk⟩, hg⟩ => ⟨hmem, hg, hk⟩⟩

/-- A queue in any batches with any interleaving of the threads, when all lookups succeed. -/
theorem run_batches (executor : Executor) {queue : List EventTuple}
    (hpasses : ∀ tuple ∈ queue, Passes s tuple) {batches : List (List EventTuple)} (hcut : Cut queue batches) (memories : ℕ → ℕ → Memory)
    (memories' : ℕ → Memory) (v : SIds) (n : Notes) :
    ∃ t z, (TatpSerialProcessor.start (manager layout) K memories' 0 queue).run s = some ((), t) ∧
      Determinate (executor.limit K) ⟨start K memories 0 batches, [], ((s, v), n)⟩ z ∧ z.1.1 = t ∧
      ∀ earlier passed tuple rest later, batches = earlier ++ (passed ++ tuple :: rest) :: later →
        ∃ u, (TatpSerialProcessor.start (manager layout) K memories' 0
            (earlier.flatten ++ passed ++ [.endExecution])).run s = some ((), u) ∧
          ∀ finding ∈ findings K u earlier.length (.of passed) tuple,
            z.2 finding.1 = some finding.2 := by
  obtain ⟨t, z, hserial, hz, hsees, hthreads⟩ := determinate_start (K := K) memories v n
    (hcut.passes hpasses)
  refine ⟨t, z, hcut.run_start memories' hserial, hthreads executor, hz,
    fun earlier passed tuple rest later he => ?_⟩
  obtain ⟨u, hu, hstart⟩ := hcut.run_passed memories' hserial he
  refine ⟨u, hstart, fun finding hf => hsees earlier passed tuple rest later u he hu finding ?_⟩
  rwa [Nat.zero_add]

end ImdbD.Benchmark.TATP.TatpBatchProcessor
