import ImdbD.TpccBatchCrews

/-!
# Strong determinism of TPC-C

Whatever way a queue is cut into batches and however the threads interleave,
the tables and the random draws end as the serial processor leaves them.
-/
namespace ImdbD.Benchmark.TPCC.TpccBatchProcessor
open AtomicProgram KeyedStore GuardedRun

variable {K : Constants} {P : ScaleParams} {t t' : State} {v : Vectors} {b : ℕ}
  {batch : List EventTuple} {z : Work}

/-- The crews of a batch one after the other are its script alone. -/
theorem runAlone_crews (rest : Script Work ThreadId)
    (hlen : ∀ param, .newOrder param ∈ batch → param.iWIds.length = param.iIds.length)
    (hsize : ∀ pos < (deliveryParams batch).length, (v (.noOIdsVector pos)).length = 11)
    (h : run (jobStep (perform K batch)) (t, created batch)
      ((crews (Role.size K) crewRoles).flatMap (threadJobs K P (allJobs v batch))) = some z)
    (v₀ : Vectors) :
    (processBatch K P b batch rest).runAlone (t, v₀) = rest.runAlone z := by
  obtain ⟨items, hitems, hno4⟩ := no4_emplaced (K := K) (P := P) (v := v) hlen
  obtain ⟨items', hitems', hno5⟩ := no5_emplaced (K := K) (P := P) (v := v) hlen
  obtain rfl := Option.some.inj (hitems.symm.trans hitems')
  obtain ⟨orders, horders, hno12⟩ := no12_emplaced K P v batch
  obtain ⟨orders', horders', hno6⟩ := no6_emplaced K P v batch
  obtain rfl := Option.some.inj (horders.symm.trans horders')
  obtain ⟨mixed, hmixed, hconflict⟩ := neworderConflict_emplaced K P v batch
  obtain ⟨found, hfound, hdel3⟩ := del3_emplaced (K := K) (P := P) hsize
  obtain ⟨found', hfound', hdel2⟩ := del2_emplaced (K := K) (P := P) hsize
  obtain rfl := Option.some.inj (hfound.symm.trans hfound')
  obtain ⟨paid, hpaid, hconflict2⟩ := conflict2_emplaced (K := K) (P := P) hsize
  obtain ⟨w₁, c₁, w₂, c₂, w₃, c₃, w₄, c₄, w₅, c₅, w₆, c₆, w₇, c₇, w₈, c₈, w₉, c₉, w₁₀, c₁₀, w₁₁, c₁₁,
    w₁₂, c₁₂, w₁₃, c₁₃, w₁₄, c₁₄, rfl⟩ := run_crews h
  have hstart : (⟨0, 0, 0⟩ : Positions) = .of [] := rfl
  have r₁ := c₁.fromBuckets (by decide) rfl hno4
  obtain rfl := c₂.resize
  have r₃ := c₃.fromBuckets (by decide) rfl hno12
  have r₄ := c₄.fromBuckets (by decide) rfl hno5
  have r₅ : (Program.each (fun _ => paymentTxn1Thread batch) (List.range 1)).run w₄ = some ((), w₅) :=
    c₅.payments (by decide) rfl (paymentTxn1_crew _ _)
  have r₆ : (Program.each (fun _ => paymentTxn2Thread batch) (List.range 1)).run w₅ = some ((), w₆) :=
    c₆.payments (by decide) rfl (paymentTxn2_crew _ _)
  have r₇ : (Program.each (fun _ => paymentTxn3Thread batch) (List.range 1)).run w₆ = some ((), w₇) :=
    c₇.payments (by decide) rfl (paymentTxn3_crew _ _)
  have r₈ := c₈.fromBuckets (by decide) rfl hconflict
  obtain rfl := c₉.recreate
  obtain ⟨rfl, hread⟩ := c₁₀.found
  have r₁₁ := c₁₁.fromBuckets (by decide) rfl hdel3
  have r₁₂ := c₁₂.fromBuckets (by decide) rfl hno6
  have r₁₃ := c₁₃.fromBuckets (by decide) rfl hdel2
  have r₁₄ := c₁₄.fromBuckets (by decide) rfl hconflict2
  simp only [Role.size] at r₁ r₃ r₄ r₈ r₁₁ r₁₂ r₁₃ r₁₄
  simp only [processBatch, hstart, Script.runAlone, replaceVectors, Option.bind_some, runAlone_fetch,
    runAlone_spawnAll, runAlone_joinAll, readNoOIds, hread, hitems, horders, hmixed, hfound, hpaid,
    r₁, r₃, r₄, r₅, r₆, r₇, r₈, r₁₁, r₁₂, r₁₃, r₁₄]

/-- A batch does what the serial processor does with its tuples. -/
theorem runAlone_processBatch (txns : List Txn) (rest : Script Work ThreadId) (v : Vectors)
    (h : Ledger K P t.1) (hv : Admitted P txns) :
    ∃ t' v', run (TpccSerialProcessor.step K) t txns = some t' ∧ Ledger K P t'.1 ∧
      (processBatch K P b (tuplesOf txns) rest).runAlone (t, v) = rest.runAlone (t', v') := by
  obtain ⟨t', v', hserial, hledger, hsized, hjobs⟩ := run_allJobs txns h hv
  refine ⟨t', v', hserial, hledger, runAlone_crews rest ?_ ?_ (run_threads hjobs) v⟩
  · intro param hparam
    obtain ⟨txn, htxn, he⟩ := List.mem_map.mp hparam
    have hscale : (EventTuple.newOrder param).InScale P :=
      (he ▸ hv txn htxn : _ ∨ EventTuple.newOrder param = .endExecution).resolve_right nofun
    exact hscale.2.1.1
  · intro pos hpos
    rw [hsized, (prepared_delivery (List.getElem?_eq_getElem hpos)).1, length_perDistrict]

theorem runAlone_start (batches : List (List Txn)) (v : Vectors) (h : Ledger K P t.1)
    (hv : ∀ txns ∈ batches, Admitted P txns) :
    ∃ t' v', run (TpccSerialProcessor.step K) t batches.flatten = some t' ∧
      (start K P b (batches.map tuplesOf)).runAlone (t, v) = some (t', v') := by
  induction batches generalizing b t v with
  | nil => exact ⟨t, v, rfl, rfl⟩
  | cons txns batches ih =>
    obtain ⟨hfirst, hrest⟩ := List.forall_mem_cons.mp hv
    obtain ⟨t₁, v₁, hserial, hledger, hrun⟩ := runAlone_processBatch (b := b) txns
      (start K P (b + 1) (batches.map tuplesOf)) v h hfirst
    obtain ⟨t', v', hserial', hrun'⟩ := ih (b := b + 1) v₁ hledger hrest
    refine ⟨t', v', ?_, hrun.trans hrun'⟩
    rw [List.flatten_cons, run_append, hserial, Option.bind_some, hserial']

/-- The batches of a queue are the queue up to its end. -/
theorem Cut.flatten {queue : List EventTuple} {batches : List (List EventTuple)}
    (h : Cut queue batches) : ∃ tuples rest, queue = tuples ++ .endExecution :: rest ∧
      .endExecution ∉ tuples ∧ batches.flatten = tuples ++ [.endExecution] := by
  induction h with
  | @last tuples queue h => exact ⟨tuples, queue, rfl, h, by simp⟩
  | @next tuples queue batches hne h hrest ih =>
    obtain ⟨later, rest, rfl, hlater, hflatten⟩ := ih
    refine ⟨tuples ++ later, rest, by simp, ?_, by simp [hflatten]⟩
    rw [List.mem_append, not_or]
    exact ⟨h, hlater⟩

/-- The transactions of a queue, each with the order in which its map is walked. -/
def numbered (orders : ℕ → IterationOrder) (tuples : List EventTuple) : List Txn :=
  (tuples.zipIdx 0).map (fun e => (e.1, orders e.2))

@[simp] theorem tuplesOf_numbered (orders : ℕ → IterationOrder) (tuples : List EventTuple) :
    tuplesOf (numbered orders tuples) = tuples := by
  simp [tuplesOf, numbered, Function.comp_def]

theorem run_numbered {orders : ℕ → IterationOrder} {tuples : List EventTuple} {u : State}
    (rest : List EventTuple) (hend : .endExecution ∉ tuples)
    (hrun : run (TpccSerialProcessor.step K) t (numbered orders tuples) = some u) :
    (TpccSerialProcessor.start K orders 0 (tuples ++ .endExecution :: rest)).run t =
      some ((), u) := by
  have hstart := run_start (K := K) (t := t) orders tuples rest (fun e he hne => hend (hne ▸ he)) 0
  rw [← numbered, hrun] at hstart
  obtain ⟨⟨_, _⟩, hrun', rfl⟩ := Option.map_eq_some_iff.mp hstart
  exact hrun'

theorem determinate_start (h : Ledger K P t.1) {txns : List Txn} (hv : Admitted P txns)
    {batches : List (List EventTuple)} (hbatches : batches.flatten = tuplesOf txns) (v : Vectors) :
    ∃ u v', run (TpccSerialProcessor.step K) t txns = some u ∧ ∀ executor : Executor,
      Determinate (executor.limit K) ⟨start K P 0 batches, [], (t, v)⟩ (u, v') := by
  obtain ⟨parts, rfl, rfl⟩ := Lists.exists_parts hbatches
  obtain ⟨u, v', hserial, halone⟩ := runAlone_start (b := 0) parts v h
    (fun part hpart txn htxn => hv txn (List.mem_flatten.mpr ⟨part, hpart, htxn⟩))
  have hsafe : (start K P 0 (parts.map tuplesOf)).Safe workPlaces
      (foot K P (fun i => ((parts.map tuplesOf)[i]?).getD [])) [] :=
    safe_start 0 _ (fun i => by rw [Nat.zero_add])
  exact ⟨u, v', hserial, fun executor => determinate (executor.limit_zero K) hsafe halone⟩

theorem ledger_reached {clock : Clock} {t₀ : State} {txns : List Txn}
    (hpop : PopulatedState K P clock t₀) (hreached : ValidRun K t₀ txns)
    (hrun : run (TpccSerialProcessor.step K) t₀ txns = some t) : Ledger K P t.1 :=
  (hpop.ledger.reached (I := fun _ => True) trivial (fun _ _ _ _ _ _ _ => trivial) hreached hrun).1

theorem admitted_numbered (h : Ledger K P t.1) {tuples : List EventTuple}
    (hvalid : ∀ tuple ∈ tuples, tuple.Valid t.1) (orders : ℕ → IterationOrder) :
    Admitted P (numbered orders tuples) := by
  intro txn htxn
  obtain ⟨e, he, rfl⟩ := List.mem_map.mp htxn
  exact Or.inl (h.valid_iff.mp (hvalid e.1 (List.fst_mem_of_mem_zipIdx he)))

/-- A queue up to its end, in any batches and with threads of any kind. -/
theorem determinate_queue (h : Ledger K P t.1) {tuples rest : List EventTuple}
    (hvalid : ∀ tuple ∈ tuples, tuple.Valid t.1) {batches : List (List EventTuple)}
    (hcut : Cut (tuples ++ .endExecution :: rest) batches) (orders : ℕ → IterationOrder)
    (v : Vectors) : ∃ u v',
    (TpccSerialProcessor.start K orders 0 (tuples ++ .endExecution :: rest)).run t =
      some ((), u) ∧
    ∀ executor : Executor,
      Determinate (executor.limit K) ⟨start K P 0 batches, [], (t, v)⟩ (u, v') := by
  have hend : .endExecution ∉ tuples := fun hmem => hvalid _ hmem
  obtain ⟨tuples', rest', he, hend', hflatten⟩ := hcut.flatten
  obtain rfl := Lists.before_first hend hend' he
  have hadmitted : Admitted P (numbered orders tuples ++ [(.endExecution, .listed)]) := by
    intro txn htxn
    rcases List.mem_append.mp htxn with htxn | htxn
    · exact admitted_numbered h hvalid orders txn htxn
    · exact Or.inr (congrArg Prod.fst (List.mem_singleton.mp htxn))
  have htuples : batches.flatten =
      tuplesOf (numbered orders tuples ++ [(.endExecution, .listed)]) := by
    rw [hflatten, tuplesOf, List.map_append, ← tuplesOf, tuplesOf_numbered]
    rfl
  obtain ⟨u, v', hserial, hthreads⟩ := determinate_start h hadmitted htuples v
  rw [run_append] at hserial
  obtain ⟨u', hqueue, hlast⟩ := Option.bind_eq_some_iff.mp hserial
  cases hlast
  exact ⟨u', v', run_numbered rest hend hqueue, hthreads⟩

/-- A queue in any batches with any interleaving of the threads ends as the serial processor
leaves it. -/
theorem batches_reproduce_serial {clock : Clock} {t₀ : State} {txns : List Txn}
    (hpop : PopulatedState K P clock t₀) (hreached : ValidRun K t₀ txns)
    (hrun : run (TpccSerialProcessor.step K) t₀ txns = some t) {tuples rest : List EventTuple}
    (hvalid : ∀ tuple ∈ tuples, tuple.Valid t.1) {batches : List (List EventTuple)}
    (hcut : Cut (tuples ++ .endExecution :: rest) batches) (executor : Executor)
    (orders : ℕ → IterationOrder) (v : Vectors) :
    ∃ u z, (TpccSerialProcessor.start K orders 0 (tuples ++ .endExecution :: rest)).run t =
        some ((), u) ∧
      Determinate (executor.limit K) ⟨start K P 0 batches, [], (t, v)⟩ z ∧ z.1 = u := by
  obtain ⟨u, v', hserial, hthreads⟩ :=
    determinate_queue (ledger_reached hpop hreached hrun) hvalid hcut orders v
  exact ⟨u, (u, v'), hserial, hthreads executor, rfl⟩

/-- The short run in two batches, with a pool of threads. -/
theorem batches_reproduce_serial_shortRun : ∃ t u z,
    PopulatedState .unpartitioned .small (fun _ => 0) t ∧
    (TpccSerialProcessor.start .unpartitioned (fun _ => .listed) 0
      (tuplesOf shortRun ++ [.endExecution])).run t = some ((), u) ∧
    Determinate (Executor.threadPool.limit .unpartitioned)
      ⟨start .unpartitioned .small 0 [(tuplesOf shortRun).take 1,
        (tuplesOf shortRun).drop 1 ++ [.endExecution]], [], (t, fun _ => [])⟩ z ∧ z.1 = u := by
  obtain ⟨t, ht⟩ := exists_small
  have hvalid : ∀ tuple ∈ tuplesOf shortRun, tuple.Valid t.1 := by
    intro tuple htuple
    obtain ⟨txn, htxn, rfl⟩ := List.mem_map.mp htuple
    exact ht.ledger.valid_iff.mpr (shortRun_inScale txn htxn)
  have hlast : Cut ((tuplesOf shortRun).drop 1 ++ [.endExecution])
      [(tuplesOf shortRun).drop 1 ++ [.endExecution]] := .last (by simp [shortRun])
  have hcut : Cut (tuplesOf shortRun ++ [.endExecution])
      [(tuplesOf shortRun).take 1, (tuplesOf shortRun).drop 1 ++ [.endExecution]] :=
    have hne : (tuplesOf shortRun).take 1 ≠ [] := List.cons_ne_nil _ _
    .next hne (by simp [shortRun]) hlast
  have hreached : ValidRun .unpartitioned t [] := trivial
  obtain ⟨u, z, hserial, hbatches, hsame⟩ := batches_reproduce_serial ht hreached rfl hvalid hcut
    .threadPool (fun _ => .listed) (fun _ => [])
  exact ⟨t, u, z, ht, hserial, hbatches, hsame⟩

end ImdbD.Benchmark.TPCC.TpccBatchProcessor
