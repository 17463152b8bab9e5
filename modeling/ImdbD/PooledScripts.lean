import ImdbD.ForkJoin
import ImdbD.ThreadPool
import Mathlib.Data.List.Nodup

/-!
# Scripts on a thread pool

Instead of spawning threads the main thread puts tasks into a pool and waits
for their futures. The workers of the pool take the tasks in their order, so the
unfinished tasks before one that is at work are all at work as well: a pooled
script behaves as the script with threads of which only so many may run.
-/
namespace ImdbD.AtomicProgram
variable {σ θ α β : Type}

/-- What the main thread has of a task: its number among all tasks, its name, and what is left of
it. -/
structure Future (σ θ : Type) : Type 1 where
  ticket : ℕ
  id : θ
  left : Program σ Unit

/-- The main thread, the pool, the futures it has not waited for yet, and the shared state. -/
structure PooledConfig (σ θ : Type) : Type 1 where
  script : Script σ θ
  pool : ThreadPool ℕ
  futures : List (Future σ θ)
  state : σ

namespace PooledConfig

def start (workers : ℕ) (script : Script σ θ) (s : σ) : PooledConfig σ θ :=
  ⟨script, .init workers, [], s⟩

/-- The threads that the futures stand for. -/
def threads (futures : List (Future σ θ)) : List (θ × Program σ Unit) :=
  futures.map (fun future => (future.id, future.left))

/-- The same, with threads. -/
def unpooled (c : PooledConfig σ θ) : Config σ θ := ⟨c.script, threads c.futures, c.state⟩

/-- One step of the main thread, of the pool or of a task. The number counts the workers that wake
up for no reason. The main thread goes on when its notification is out; it waits for a future until
the task was taken and has ended. At the end of the script the pool is destructed. -/
inductive Step [DecidableEq θ] : ℕ → PooledConfig σ θ → PooledConfig σ θ → Prop where
  | spawn {id thread rest pool pool' futures s} (hready : pool.notifies = 0)
      (h : pool.step (.enqueue pool.enqueued.length) = some pool') :
      Step 0 ⟨.spawn id thread rest, pool, futures, s⟩
        ⟨rest, pool', futures ++ [⟨pool.enqueued.length, id, thread⟩], s⟩
  | join {id rest pool futures s} (hready : pool.notifies = 0)
      (h : ∀ f ∈ futures, f.id = id → f.ticket ∈ pool.started ∧ f.left.ended) :
      Step 0 ⟨.join id rest, pool, futures, s⟩
        ⟨rest, pool, futures.filter (fun f => f.id ≠ id), s⟩
  | act {α id pool futures s s'} {action : Action σ α} {next a} (hready : pool.notifies = 0)
      (h : action s = some (a, s')) :
      Step 0 ⟨.act id action next, pool, futures, s⟩ ⟨next a, pool, futures, s'⟩
  | close {pool pool' futures s} (hready : pool.notifies = 0) (h : pool.step .close = some pool') :
      Step 0 ⟨.done, pool, futures, s⟩ ⟨.done, pool', futures, s⟩
  | due {script event pool pool' futures s} (hdue : event.due)
      (hfinish : ∀ i, event = .finish i → ∀ f ∈ futures,
        pool.workers[i]? = some (.working f.ticket) → f.left.ended)
      (h : pool.step event = some pool') :
      Step 0 ⟨script, pool, futures, s⟩ ⟨script, pool', futures, s⟩
  | wake {script i pool pool' futures s} (h : pool.step (.wake i) = some pool') :
      Step 1 ⟨script, pool, futures, s⟩ ⟨script, pool', futures, s⟩
  | move {β script pool before ticket id after s s'} {action : Action σ β} {next b}
      (hwork : .working ticket ∈ pool.workers) (h : action s = some (b, s')) :
      Step 0 ⟨script, pool, before ++ ⟨ticket, id, .step action next⟩ :: after, s⟩
        ⟨script, pool, before ++ ⟨ticket, id, next b⟩ :: after, s'⟩

/-- The main thread or a task is at an action that fails, or a task is put into a stopped pool. -/
inductive Faults : PooledConfig σ θ → Prop where
  | act {α id pool futures s} {action : Action σ α} {next} (h : action s = none) :
      Faults ⟨.act id action next, pool, futures, s⟩
  | move {β script pool before ticket id after s} {action : Action σ β} {next}
      (hwork : .working ticket ∈ pool.workers) (h : action s = none) :
      Faults ⟨script, pool, before ++ ⟨ticket, id, .step action next⟩ :: after, s⟩
  | spawn {id thread rest pool futures s} (h : pool.step (.enqueue pool.enqueued.length) = none) :
      Faults ⟨.spawn id thread rest, pool, futures, s⟩

/-- The destructor of the pool has waited for all workers. -/
def Finished (c : PooledConfig σ θ) : Prop :=
  c.script = .done ∧ c.pool.stop ∧ ∀ w ∈ c.pool.workers, w = .returned

/-- So many steps, among them so many workers that wake up for no reason. -/
inductive Runs [DecidableEq θ] : ℕ → ℕ → PooledConfig σ θ → PooledConfig σ θ → Prop where
  | nil {c} : Runs 0 0 c c
  | cons {n w v c c' c''} (h : Step v c c') (hs : Runs n w c' c'') : Runs (n + 1) (w + v) c c''

/-- Every interleaving comes to an end unless workers wake up for no reason again and again, nothing
fails, and the end is the same state. -/
structure Determinate [DecidableEq θ] (c : PooledConfig σ θ) (z : σ) : Prop where
  bounded : ∃ n, ∀ {k w c'}, Runs k w c c' → k ≤ n + 2 * w
  safe : ∀ {k w c'}, Runs k w c c' → ¬ Faults c'
  progress : ∀ {k w c'}, Runs k w c c' → Finished c' ∨ ∃ c'', Step 0 c' c''
  result : ∀ {k w c'}, Runs k w c c' → Finished c' → c'.state = z

structure Sound (workers : ℕ) (c : PooledConfig σ θ) : Prop where
  pool : c.pool.Sound workers
  numbered : c.pool.enqueued = List.range c.pool.enqueued.length
  issued : ∀ f ∈ c.futures, f.ticket < c.pool.enqueued.length
  ordered : c.futures.Pairwise (fun f g => f.ticket < g.ticket)
  unfinished : ∀ f ∈ c.futures, f.left.ended = false → f.ticket ∉ c.pool.finished
  stopped : c.pool.stop = true → c.script = .done

variable {workers : ℕ} {c c' : PooledConfig σ θ}

theorem sound_start (workers : ℕ) (script : Script σ θ) (s : σ) :
    (start workers script s).Sound workers where
  pool := ThreadPool.sound_init workers
  numbered := rfl
  issued _ h := nomatch h
  ordered := List.Pairwise.nil
  unfinished _ h := nomatch h
  stopped h := nomatch h

private theorem Sound.nodup_enqueued (h : c.Sound workers) : (c.pool.started ++ c.pool.tasks).Nodup := by
  rw [← h.pool.fifo, h.numbered]
  exact List.nodup_range

private theorem Sound.nodup_taken (h : c.Sound workers) :
    (c.pool.finished ++ ThreadPool.inHand c.pool.workers).Nodup :=
  h.pool.taken.nodup_iff.mpr (List.nodup_append.mp h.nodup_enqueued).1

/-- The tasks that were taken are those with the first tickets. -/
theorem Sound.started_eq (h : c.Sound workers) :
    c.pool.started = List.range c.pool.started.length := by
  have htake : c.pool.started = (c.pool.started ++ c.pool.tasks).take c.pool.started.length := by
    simp
  rw [← h.pool.fifo, h.numbered, List.take_range] at htake
  refine htake.trans (congrArg List.range (Nat.min_eq_left ?_))
  rw [h.pool.fifo, List.length_append]
  exact Nat.le_add_right _ _

private theorem Sound.started_of_lt (h : c.Sound workers) {j k : ℕ} (hk : k ∈ c.pool.started) (hjk : j < k) :
    j ∈ c.pool.started := by
  rw [h.started_eq, List.mem_range] at hk ⊢
  exact Nat.lt_trans hjk hk

private theorem Sound.lt_of_finished (h : c.Sound workers) {k : ℕ} (hk : k ∈ c.pool.finished) :
    k < c.pool.enqueued.length := by
  have hstarted := h.pool.taken.subset (List.mem_append_left _ hk)
  rw [h.started_eq, List.mem_range] at hstarted
  rw [h.pool.fifo, List.length_append]
  omega

private theorem Sound.mem_started (h : c.Sound workers) {k : ℕ} (hwork : .working k ∈ c.pool.workers) :
    k ∈ c.pool.started :=
  h.pool.taken.subset (List.mem_append_right _ (ThreadPool.mem_inHand.mpr hwork))

private theorem Sound.not_finished (h : c.Sound workers) {k : ℕ} (hwork : .working k ∈ c.pool.workers) :
    k ∉ c.pool.finished :=
  fun hk => (List.nodup_append.mp h.nodup_taken).2.2 k hk k (ThreadPool.mem_inHand.mpr hwork) rfl

private theorem Sound.working_of_started (h : c.Sound workers) {f : Future σ θ} (hf : f ∈ c.futures)
    (hleft : f.left.ended = false) (hstarted : f.ticket ∈ c.pool.started) :
    f.ticket ∈ ThreadPool.inHand c.pool.workers :=
  (List.mem_append.mp (h.pool.taken.symm.subset hstarted)).resolve_left
    (h.unfinished f hf hleft)

/-- The unfinished tasks before one that is at work are at work, each with a worker of its own. -/
theorem Sound.running_lt (h : c.Sound workers) {before after : List (Future σ θ)} {f : Future σ θ}
    (hfutures : c.futures = before ++ f :: after) (hwork : .working f.ticket ∈ c.pool.workers) :
    running (threads before) < workers := by
  have hordered := h.ordered
  rw [hfutures, List.pairwise_append] at hordered
  obtain ⟨hbefore, -, hlt⟩ := hordered
  have hf : ∀ g ∈ before, g.ticket < f.ticket := fun g hg => hlt g hg f List.mem_cons_self
  have hnodup : ((before.filter (fun g => !g.left.ended)).map Future.ticket ++ [f.ticket]).Nodup := by
    refine List.nodup_append.mpr ⟨?_, List.nodup_singleton _, ?_⟩
    · exact List.pairwise_map.mpr ((hbefore.filter _).imp Nat.ne_of_lt)
    · intro k hk k' hk'
      obtain ⟨g, hg, rfl⟩ := List.mem_map.mp hk
      rw [List.mem_singleton.mp hk']
      exact Nat.ne_of_lt (hf g (List.mem_filter.mp hg).1)
  have hsubset : (before.filter (fun g => !g.left.ended)).map Future.ticket ++ [f.ticket] ⊆
      ThreadPool.inHand c.pool.workers := by
    intro k hk
    rcases List.mem_append.mp hk with hk | hk
    · obtain ⟨g, hg, rfl⟩ := List.mem_map.mp hk
      obtain ⟨hmem, hleft⟩ := List.mem_filter.mp hg
      refine h.working_of_started (by simp [hfutures, hmem]) (by simpa using hleft) ?_
      exact h.started_of_lt (h.mem_started hwork) (hf g hmem)
    · rw [List.mem_singleton.mp hk]
      exact ThreadPool.mem_inHand.mpr hwork
  have hle := (List.subperm_of_subset hnodup hsubset).length_le.trans ThreadPool.length_inHand_le
  have hrunning : running (threads before) = (before.filter (fun g => !g.left.ended)).length := by
    simp [running, threads, List.filter_map, Function.comp_def]
  rw [List.length_append, List.length_map, h.pool.size, ← hrunning] at hle
  exact hle

/-- A pooled script fails only where the threads do. -/
theorem Sound.not_faults (h : c.Sound workers) (hsafe : ¬ AtomicProgram.Faults c.unpooled) :
    ¬ Faults c := by
  intro hfault
  cases hfault with
  | act haction => exact hsafe (.act haction)
  | @move β script pool before ticket id after s action next hwork haction =>
    refine hsafe ?_
    simp only [unpooled, threads, List.map_append, List.map_cons]
    exact .move haction
  | @spawn id thread rest pool futures s henqueue =>
    have hstopped : pool.stop = true := by
      by_contra hopen
      simp [ThreadPool.step, hopen] at henqueue
    exact absurd (h.stopped hstopped) (by simp)

private theorem Sound.ready (h : c.Sound workers) (htasks : c.pool.tasks = [])
    (hhand : ThreadPool.inHand c.pool.workers = []) {f : Future σ θ} (hf : f ∈ c.futures) :
    f.ticket ∈ c.pool.started ∧ f.left.ended := by
  have hstarted : f.ticket ∈ c.pool.started := by
    have hlength : c.pool.enqueued.length = c.pool.started.length := by
      rw [h.pool.fifo, htasks, List.append_nil]
    rw [h.started_eq, List.mem_range, ← hlength]
    exact h.issued f hf
  refine ⟨hstarted, ?_⟩
  by_contra hleft
  have hwork := h.working_of_started hf (Bool.eq_false_iff.mpr hleft) hstarted
  rw [hhand] at hwork
  cases hwork

theorem Sound.finished (h : c.Sound workers) (hworkers : 0 < workers) (hf : Finished c) :
    AtomicProgram.Finished c.unpooled := by
  obtain ⟨hscript, -, hreturned⟩ := hf
  have hhand : ThreadPool.inHand c.pool.workers = [] :=
    List.filterMap_eq_nil_iff.mpr (fun w hw => hreturned w hw ▸ rfl)
  obtain ⟨w, hw⟩ := List.exists_mem_of_length_pos (h.pool.size.symm ▸ hworkers)
  have htasks := (h.pool.drained (hreturned w hw ▸ hw)).2
  refine ⟨hscript, fun t ht => ?_⟩
  obtain ⟨f, hmem, rfl⟩ := List.mem_map.mp ht
  exact (h.ready htasks hhand hmem).2

/-- A bound on the steps of the pool that are left. -/
def toRest (workers : ℕ) (c : PooledConfig σ θ) : ℕ :=
  c.pool.toRest + if c.pool.stop then 0 else workers + 2

theorem Sound.pool_step (h : c.Sound workers) {event : PoolEvent ℕ} {pool' : ThreadPool ℕ}
    (hstep : c.pool.step event = some pool') (hpushed : event.task? = none)
    (hstop : pool'.stop = true → c.script = .done)
    (hfinish : ∀ i, event = .finish i → ∀ f ∈ c.futures,
      c.pool.workers[i]? = some (.working f.ticket) → f.left.ended) :
    (⟨c.script, pool', c.futures, c.state⟩ : PooledConfig σ θ).Sound workers := by
  have hmoves := ThreadPool.moves_of_step hstep
  have henqueued : pool'.enqueued = c.pool.enqueued := by
    rw [ThreadPool.enqueued_moves hmoves, hpushed]
    exact List.append_nil _
  refine ⟨h.pool.moves hmoves, ?_, ?_, h.ordered, ?_, hstop⟩
  · rw [henqueued]
    exact h.numbered
  · intro f hf
    rw [henqueued]
    exact h.issued f hf
  · intro f hf hleft hmem
    rcases ThreadPool.finished_moves hmoves hmem with hmem | ⟨i, hi, hw⟩
    · exact h.unfinished f hf hleft hmem
    · simp [hfinish i hi f hf hw] at hleft

variable [DecidableEq θ] {v : ℕ}

/-- A pooled step is a step of the threads, or of the pool alone. -/
theorem Sound.step (h : c.Sound workers) (hstep : Step v c c') : c'.Sound workers ∧
    ∃ j, AtomicProgram.Runs (· < workers) j c.unpooled c'.unpooled ∧
      c'.toRest workers + 1 ≤ c.toRest workers + 5 * j + 2 * v := by
  cases hstep with
  | @spawn id thread rest pool pool' futures s hready henqueue =>
    have hmoves := ThreadPool.moves_of_step henqueue
    have hrest := ThreadPool.toRest_moves h.pool.size hmoves
    have hpool := h.pool.moves hmoves
    have hstop := ThreadPool.stop_moves hmoves (by simp)
    have henqueued := ThreadPool.enqueued_moves hmoves
    simp only [PoolEvent.task?, Option.toList_some] at henqueued
    have hlength : pool'.enqueued.length = pool.enqueued.length + 1 := by simp [henqueued]
    refine ⟨⟨hpool, ?_, ?_, ?_, ?_, ?_⟩, 1, .one ?_, ?_⟩
    · rw [hlength, List.range_succ, ← h.numbered]
      exact henqueued
    · intro f hf
      rw [hlength]
      rcases List.mem_append.mp hf with hf | hf
      · exact Nat.lt_succ_of_lt (h.issued f hf)
      · rw [List.mem_singleton.mp hf]
        exact Nat.lt_succ_self _
    · refine List.pairwise_append.mpr ⟨h.ordered, List.pairwise_singleton _ _, ?_⟩
      intro f hf g hg
      rw [List.mem_singleton.mp hg]
      exact h.issued f hf
    · intro f hf hleft hmem
      have hfinished : f.ticket ∈ pool.finished :=
        (ThreadPool.finished_moves hmoves hmem).resolve_right (by simp)
      rcases List.mem_append.mp hf with hf | hf
      · exact h.unfinished f hf hleft hfinished
      · rw [List.mem_singleton.mp hf] at hfinished
        exact absurd (h.lt_of_finished hfinished) (Nat.lt_irrefl _)
    · intro hstopped
      exact absurd (h.stopped (hstop ▸ hstopped)) (by simp)
    · simp only [unpooled, threads, List.map_append, List.map_cons, List.map_nil]
      exact .spawn
    · simp only [toRest, hstop, PoolEvent.brings] at hrest ⊢
      omega
  | @join id rest pool futures s hready hended =>
    refine ⟨⟨h.pool, h.numbered, ?_, h.ordered.filter _, ?_, ?_⟩, 1, .one ?_, ?_⟩
    · exact fun f hf => h.issued f (List.mem_filter.mp hf).1
    · exact fun f hf => h.unfinished f (List.mem_filter.mp hf).1
    · exact fun hstop => absurd (h.stopped hstop) (by simp)
    · have hthreads : threads (futures.filter (fun f => f.id ≠ id)) =
          (threads futures).filter (fun t => t.1 ≠ id) := by
        rw [threads, threads, List.filter_map]
        rfl
      simp only [unpooled, hthreads]
      refine .join (fun t ht hid => ?_)
      obtain ⟨f, hf, rfl⟩ := List.mem_map.mp ht
      exact (hended f hf hid).2
    · simp only [toRest]
      omega
  | @act α id pool futures s s' action next a hready haction =>
    refine ⟨⟨h.pool, h.numbered, h.issued, h.ordered, h.unfinished, ?_⟩, 1, .one (.act haction), ?_⟩
    · exact fun hstop => absurd (h.stopped hstop) (by simp)
    · simp only [toRest]
      omega
  | @close pool pool' futures s hready hclose =>
    have hmoves := ThreadPool.moves_of_step hclose
    have hrest := ThreadPool.toRest_moves h.pool.size hmoves
    refine ⟨h.pool_step hclose rfl (fun _ => rfl) (fun i hi => by cases hi), 0, .nil, ?_⟩
    cases hmoves with
    | close hopen =>
      simp only [toRest, PoolEvent.brings, hopen, if_true, Bool.false_eq_true, if_false] at hrest ⊢
      omega
  | @due script event pool pool' futures s hdue hfinish hpool =>
    have hmoves := ThreadPool.moves_of_step hpool
    have hrest := ThreadPool.toRest_moves h.pool.size hmoves
    have hstop := ThreadPool.stop_moves hmoves (by rintro rfl; cases hdue)
    have hbrings : event.brings workers = 0 ∧ event.task? = none := by
      cases event <;> first | exact ⟨rfl, rfl⟩ | cases hdue
    refine ⟨h.pool_step hpool hbrings.2 (fun hs => h.stopped (hstop ▸ hs)) hfinish, 0, .nil, ?_⟩
    simp only [toRest, hstop, hbrings.1] at hrest ⊢
    omega
  | @wake script i pool pool' futures s hpool =>
    have hmoves := ThreadPool.moves_of_step hpool
    have hrest := ThreadPool.toRest_moves h.pool.size hmoves
    have hstop := ThreadPool.stop_moves hmoves (by simp)
    refine ⟨h.pool_step hpool rfl (fun hs => h.stopped (hstop ▸ hs)) (fun i hi => by cases hi), 0,
      .nil, ?_⟩
    simp only [toRest, hstop, PoolEvent.brings] at hrest ⊢
    omega
  | @move β script pool before ticket id after s s' action next b hwork haction =>
    refine ⟨⟨h.pool, h.numbered, ?_, ?_, ?_, h.stopped⟩, 1, .one ?_, ?_⟩
    · intro f hf
      rcases List.mem_append.mp hf with hf | hf
      · exact h.issued f (List.mem_append_left _ hf)
      · rcases List.mem_cons.mp hf with rfl | hf
        · exact h.issued ⟨ticket, id, .step action next⟩ (by simp)
        · exact h.issued f (List.mem_append_right _ (List.mem_cons_of_mem _ hf))
    · have hordered := h.ordered
      rw [List.pairwise_append, List.pairwise_cons] at hordered ⊢
      refine ⟨hordered.1, hordered.2.1, fun f hf g hg => ?_⟩
      rcases List.mem_cons.mp hg with rfl | hg
      · exact (hordered.2.2 f hf ⟨ticket, id, .step action next⟩ List.mem_cons_self :)
      · exact hordered.2.2 f hf g (List.mem_cons_of_mem _ hg)
    · intro f hf hleft
      rcases List.mem_append.mp hf with hf | hf
      · exact h.unfinished f (List.mem_append_left _ hf) hleft
      · rcases List.mem_cons.mp hf with rfl | hf
        · exact h.not_finished hwork
        · exact h.unfinished f (List.mem_append_right _ (List.mem_cons_of_mem _ hf)) hleft
    · simp only [unpooled, threads, List.map_append, List.map_cons]
      exact .move (h.running_lt rfl hwork) haction
    · simp only [toRest]
      omega

theorem Sound.runs {k w : ℕ} (h : c.Sound workers) (hruns : Runs k w c c') : c'.Sound workers ∧
    ∃ j, AtomicProgram.Runs (· < workers) j c.unpooled c'.unpooled ∧
      c'.toRest workers + k ≤ c.toRest workers + 5 * j + 2 * w := by
  induction hruns with
  | nil => exact ⟨h, 0, .nil, by omega⟩
  | cons hstep _ ih =>
    obtain ⟨h', i, hi, hle⟩ := h.step hstep
    obtain ⟨h'', j, hj, hle'⟩ := ih h'
    exact ⟨h'', i + j, hi.trans hj, by omega⟩

private theorem task_progress {f : Future σ θ} (hsafe : ¬ AtomicProgram.Faults c.unpooled)
    (hf : f ∈ c.futures) (hwork : .working f.ticket ∈ c.pool.workers) (hleft : ¬ f.left.ended) :
    ∃ c', Step 0 c c' := by
  obtain ⟨script, pool, futures, s⟩ := c
  obtain ⟨before, after, rfl⟩ := List.append_of_mem hf
  obtain ⟨ticket, id, left⟩ := f
  cases left with
  | done u => exact absurd rfl hleft
  | step action next =>
    cases haction : action s with
    | some r => exact ⟨_, .move hwork haction⟩
    | none =>
      refine absurd ?_ hsafe
      simp only [unpooled, threads, List.map_append, List.map_cons]
      exact .move haction

/-- As long as the pool is not at rest, it or a task in it can go on. -/
theorem pool_progress (hsafe : ¬ AtomicProgram.Faults c.unpooled) (hq : ¬ c.pool.Quiet) :
    ∃ c', Step 0 c c' := by
  simp only [ThreadPool.Quiet, not_forall, Bool.not_eq_false] at hq
  obtain ⟨event, pool', hstep, hdue⟩ := hq
  by_cases hfinish : ∀ i, event = .finish i → ∀ f ∈ c.futures,
      c.pool.workers[i]? = some (.working f.ticket) → f.left.ended
  · exact ⟨_, .due hdue hfinish hstep⟩
  · simp only [not_forall] at hfinish
    obtain ⟨i, -, f, hf, hwork, hleft⟩ := hfinish
    exact task_progress hsafe hf (List.mem_of_getElem? hwork) hleft

theorem Sound.progress (h : c.Sound workers) (hworkers : 0 < workers)
    (hsafe : ¬ AtomicProgram.Faults c.unpooled) : Finished c ∨ ∃ c', Step 0 c c' := by
  by_cases hq : c.pool.Quiet
  · have hready := hq.notifies_eq
    have hall : ∀ f ∈ c.futures, f.ticket ∈ c.pool.started ∧ f.left.ended :=
      fun f hf => h.ready (h.pool.tasks_eq hworkers hq) hq.inHand_eq hf
    obtain ⟨script, pool, futures, s⟩ := c
    have hstopped := h.stopped
    cases script with
    | spawn id thread rest =>
      cases hstop : pool.stop with
      | true => cases hstopped hstop
      | false => exact Or.inr ⟨_, .spawn hready (by simp [ThreadPool.step, hstop]; rfl)⟩
    | join id rest => exact Or.inr ⟨_, .join hready (fun f hf _ => hall f hf)⟩
    | act id action next =>
      cases haction : action s with
      | none => exact absurd (.act haction) hsafe
      | some r => exact Or.inr ⟨_, .act hready haction⟩
    | done =>
      cases hstop : pool.stop with
      | false => exact Or.inr ⟨_, .close hready (by simp [ThreadPool.step, hstop]; rfl)⟩
      | true =>
        refine Or.inl ⟨rfl, hstop, fun w hw => (hq.asleep hw).resolve_left ?_⟩
        rintro rfl
        exact h.pool.woken hstop hq.notifyAll_eq hw
  · exact Or.inr (pool_progress hsafe hq)

/-- What the threads of a script do under a limit, the workers of a pool do: every interleaving comes
to an end, no task fails, and the end is the same. -/
theorem determinate {script : Script σ θ} {s z : σ} (hworkers : 0 < workers)
    (h : AtomicProgram.Determinate (· < workers) ⟨script, [], s⟩ z) :
    Determinate (start workers script s) z := by
  have hstart := sound_start workers script s
  obtain ⟨⟨n, hn⟩, hsafe, -, hresult⟩ := h
  refine ⟨⟨(start workers script s).toRest workers + 5 * n, fun h => ?_⟩, fun h => ?_, fun h => ?_,
    fun h hf => ?_⟩
  all_goals obtain ⟨hsound, j, hj, hle⟩ := hstart.runs h
  · have := hn hj
    omega
  · exact hsound.not_faults (hsafe hj)
  · exact hsound.progress hworkers (hsafe hj)
  · exact hresult hj (hsound.finished hworkers hf)

end PooledConfig
end ImdbD.AtomicProgram
