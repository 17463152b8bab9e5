import ImdbD.GuardedRun
import Mathlib.Algebra.Order.BigOperators.Group.List
import Mathlib.Data.List.Basic
import Mathlib.Tactic.Ring

/-!
# The thread pool

Workers wait on a condition variable for tasks. A task is put at the end of a
queue under the mutex, and one worker is notified after the mutex is released;
a worker that has the mutex looks at the queue and takes the first task, goes to
wait, or returns if the pool is stopped. Waiting workers may also wake up without
a notification.
-/
namespace ImdbD
open GuardedRun

/-- Where a worker stands: about to lock the mutex and look at the queue, blocked on the condition
variable, in a task, or out of its loop. -/
inductive Worker (τ : Type) where
  | checking
  | waiting
  | working (task : τ)
  | returned
  deriving DecidableEq

namespace Worker
variable {τ : Type}

def isWaiting : Worker τ → Bool
  | waiting => true
  | _ => false

def isChecking : Worker τ → Bool
  | checking => true
  | _ => false

/-- The task that a worker is in. -/
def task? : Worker τ → Option τ
  | working task => some task
  | _ => none

/-- How many steps it takes a worker to come to wait, without further tasks. -/
def toWait : Worker τ → ℕ
  | checking => 1
  | working _ => 2
  | waiting | returned => 0

private theorem eq_waiting {w : Worker τ} (h : w.isWaiting) : w = waiting := by
  cases w <;> first | rfl | cases h

end Worker

/-- `notifies` counts the calls of `enqueue` that have not notified yet, `notifyAll` tells whether
the destructor is still to do so. The last three lists are not read: the tasks accepted so far, those
taken from the queue and those completed, in this order. -/
structure ThreadPool (τ : Type) where
  workers : List (Worker τ)
  tasks : List τ
  stop : Bool
  notifies : ℕ
  notifyAll : Bool
  enqueued : List τ
  started : List τ
  finished : List τ

/-- What the users, the workers and the system do. Workers go by their numbers. -/
inductive PoolEvent (τ : Type) where
  | enqueue (task : τ)
  | notifyOne (woken : ℕ)
  | notifyNobody
  | wake (worker : ℕ)
  | look (worker : ℕ)
  | finish (worker : ℕ)
  | close
  | notifyAll
  deriving DecidableEq

namespace PoolEvent
variable {τ : Type}

/-- What is due by somebody in the pool: not a new task, nor the end of the pool, nor a worker that
wakes up for no reason. -/
def due : PoolEvent τ → Bool
  | enqueue _ | close | wake _ => false
  | _ => true

/-- How many further events an event of the users or the system brings, and itself. -/
def brings (threads : ℕ) : PoolEvent τ → ℕ
  | enqueue _ => 5
  | wake _ => 2
  | close => threads + 2
  | _ => 0

/-- The task that an event adds to the queue. -/
def task? : PoolEvent τ → Option τ
  | enqueue task => some task
  | _ => none

end PoolEvent

namespace ThreadPool
variable {τ : Type}

/-- The pool as it is constructed, with all threads on their way into the loop. -/
def init (threads : ℕ) : ThreadPool τ :=
  ⟨List.replicate threads .checking, [], false, 0, false, [], [], []⟩

/-- One event. An `enqueue` on a stopped pool throws. -/
def step (p : ThreadPool τ) : PoolEvent τ → Option (ThreadPool τ)
  | .enqueue task =>
    if p.stop then none
    else some { p with
      tasks := p.tasks ++ [task]
      notifies := p.notifies + 1
      enqueued := p.enqueued ++ [task] }
  | .notifyOne i =>
    match p.notifies, p.workers[i]? with
    | n + 1, some .waiting => some { p with workers := p.workers.set i .checking, notifies := n }
    | _, _ => none
  | .notifyNobody =>
    match p.notifies with
    | n + 1 => if p.workers.any Worker.isWaiting then none else some { p with notifies := n }
    | 0 => none
  | .wake i =>
    match p.workers[i]? with
    | some .waiting => some { p with workers := p.workers.set i .checking }
    | _ => none
  | .look i =>
    match p.workers[i]?, p.tasks with
    | some .checking, task :: rest =>
      some { p with
        workers := p.workers.set i (.working task)
        tasks := rest
        started := p.started ++ [task] }
    | some .checking, [] =>
      some { p with workers := p.workers.set i (if p.stop then .returned else .waiting) }
    | _, _ => none
  | .finish i =>
    match p.workers[i]? with
    | some (.working task) =>
      some { p with workers := p.workers.set i .checking, finished := p.finished ++ [task] }
    | _ => none
  | .close => if p.stop then none else some { p with stop := true, notifyAll := true }
  | .notifyAll =>
    if p.notifyAll then
      some { p with
        workers := p.workers.map (fun w => if w.isWaiting then .checking else w)
        notifyAll := false }
    else none

/-- An event with the worker it is about between the others. -/
inductive Moves : ThreadPool τ → PoolEvent τ → ThreadPool τ → Prop
  | enqueue {p task} (hopen : p.stop = false) : Moves p (.enqueue task)
      { p with
        tasks := p.tasks ++ [task]
        notifies := p.notifies + 1
        enqueued := p.enqueued ++ [task] }
  | notifyOne {p n before after} (hn : p.notifies = n + 1)
      (hw : p.workers = before ++ .waiting :: after) : Moves p (.notifyOne before.length)
      { p with workers := before ++ .checking :: after, notifies := n }
  | notifyNobody {p n} (hn : p.notifies = n + 1) (hw : .waiting ∉ p.workers) :
      Moves p .notifyNobody { p with notifies := n }
  | wake {p before after} (hw : p.workers = before ++ .waiting :: after) :
      Moves p (.wake before.length) { p with workers := before ++ .checking :: after }
  | pop {p before after task rest} (hw : p.workers = before ++ .checking :: after)
      (ht : p.tasks = task :: rest) : Moves p (.look before.length)
      { p with
        workers := before ++ .working task :: after
        tasks := rest
        started := p.started ++ [task] }
  | wait {p before after} (hw : p.workers = before ++ .checking :: after) (ht : p.tasks = [])
      (hopen : p.stop = false) :
      Moves p (.look before.length) { p with workers := before ++ .waiting :: after }
  | return {p before after} (hw : p.workers = before ++ .checking :: after) (ht : p.tasks = [])
      (hstop : p.stop = true) :
      Moves p (.look before.length) { p with workers := before ++ .returned :: after }
  | finish {p before after task} (hw : p.workers = before ++ .working task :: after) :
      Moves p (.finish before.length)
      { p with workers := before ++ .checking :: after, finished := p.finished ++ [task] }
  | close {p} (hopen : p.stop = false) : Moves p .close { p with stop := true, notifyAll := true }
  | notifyAll {p} (hall : p.notifyAll = true) : Moves p .notifyAll
      { p with
        workers := p.workers.map (fun w => if w.isWaiting then .checking else w)
        notifyAll := false }

variable {p p' : ThreadPool τ} {event : PoolEvent τ} {threads : ℕ}

/-- The worker of a number stands between those before and those after it. -/
theorem split_at {ws : List (Worker τ)} {i : ℕ} {w : Worker τ} (h : ws[i]? = some w) :
    ∃ before after, ws = before ++ w :: after ∧ i = before.length ∧
      ∀ w', ws.set i w' = before ++ w' :: after := by
  induction ws generalizing i with
  | nil => cases h
  | cons v ws ih =>
    cases i with
    | zero =>
      cases h
      exact ⟨[], ws, rfl, rfl, fun w' => rfl⟩
    | succ i =>
      obtain ⟨before, after, rfl, rfl, hset⟩ := ih h
      exact ⟨v :: before, after, rfl, rfl, fun w' => congrArg (v :: ·) (hset w')⟩

private theorem mem_waiting_iff {ws : List (Worker τ)} : ws.any Worker.isWaiting ↔ .waiting ∈ ws := by
  rw [List.any_eq_true]
  constructor
  · rintro ⟨w, hw, h⟩
    exact Worker.eq_waiting h ▸ hw
  · intro h
    exact ⟨_, h, rfl⟩

theorem moves_of_step (h : p.step event = some p') : p.Moves event p' := by
  cases event with
  | enqueue task =>
    simp only [step] at h
    split at h <;> cases h
    exact .enqueue (Bool.eq_false_iff.mpr ‹_›)
  | notifyOne i =>
    simp only [step] at h
    split at h <;> cases h
    rename_i n hn hw
    obtain ⟨before, after, hws, rfl, hset⟩ := split_at hw
    rw [hset]
    exact .notifyOne hn hws
  | notifyNobody =>
    simp only [step] at h
    split at h <;> try cases h
    split at h <;> cases h
    exact .notifyNobody ‹_› (fun hmem => ‹¬ _› (mem_waiting_iff.mpr hmem))
  | wake i =>
    simp only [step] at h
    split at h <;> cases h
    obtain ⟨before, after, hws, rfl, hset⟩ := split_at ‹_›
    rw [hset]
    exact .wake hws
  | look i =>
    simp only [step] at h
    split at h <;> cases h
    · obtain ⟨before, after, hws, rfl, hset⟩ := split_at ‹_›
      rw [hset]
      exact .pop hws ‹_›
    · obtain ⟨before, after, hws, rfl, hset⟩ := split_at ‹_›
      rw [hset]
      by_cases hstop : p.stop = true
      · rw [if_pos hstop]
        exact .return hws ‹_› hstop
      · rw [if_neg hstop]
        exact .wait hws ‹_› (Bool.eq_false_iff.mpr hstop)
  | finish i =>
    simp only [step] at h
    split at h <;> cases h
    obtain ⟨before, after, hws, rfl, hset⟩ := split_at ‹_›
    rw [hset]
    exact .finish hws
  | close =>
    simp only [step] at h
    split at h <;> cases h
    exact .close (Bool.eq_false_iff.mpr ‹_›)
  | notifyAll =>
    simp only [step] at h
    split at h <;> cases h
    exact .notifyAll ‹_›

private theorem step_of_moves (h : p.Moves event p') : p.step event = some p' := by
  cases h with
  | enqueue hopen => simp [step, hopen]
  | notifyOne hn hw => simp [step, hn, hw]
  | notifyNobody hn hw =>
    have hany : p.workers.any Worker.isWaiting = false := by
      rw [Bool.eq_false_iff]
      exact fun hany => hw (mem_waiting_iff.mp hany)
    simp [step, hn, hany]
  | wake hw => simp [step, hw]
  | pop hw ht => simp [step, hw, ht]
  | wait hw ht hopen => simp [step, hw, ht, hopen]
  | «return» hw ht hstop => simp [step, hw, ht, hstop]
  | finish hw => simp [step, hw]
  | close hopen => simp [step, hopen]
  | notifyAll hall => simp [step, hall]

/-- How many workers are about to look at the queue. -/
def looking (ws : List (Worker τ)) : ℕ := ws.countP Worker.isChecking

/-- The tasks that the workers are in. -/
def inHand (ws : List (Worker τ)) : List τ := ws.filterMap Worker.task?

section Workers
variable {before after ws : List (Worker τ)} {task : τ}

@[simp] theorem looking_append : looking (before ++ after) = looking before + looking after :=
  List.countP_append

@[simp] theorem looking_checking : looking (.checking :: ws) = looking ws + 1 :=
  List.countP_cons_of_pos rfl

@[simp] theorem looking_waiting : looking (.waiting :: ws) = looking ws :=
  List.countP_cons_of_neg (by simp [Worker.isChecking])

@[simp] theorem looking_working : looking (.working task :: ws) = looking ws :=
  List.countP_cons_of_neg (by simp [Worker.isChecking])

@[simp] theorem looking_returned : looking (.returned :: ws) = looking ws :=
  List.countP_cons_of_neg (by simp [Worker.isChecking])

@[simp] theorem inHand_nil : inHand ([] : List (Worker τ)) = [] := rfl

@[simp] theorem inHand_append : inHand (before ++ after) = inHand before ++ inHand after :=
  List.filterMap_append

@[simp] theorem inHand_checking : inHand (.checking :: ws) = inHand ws := rfl

@[simp] theorem inHand_waiting : inHand (.waiting :: ws) = inHand ws := rfl

@[simp] theorem inHand_working : inHand (.working task :: ws) = task :: inHand ws := rfl

@[simp] theorem inHand_returned : inHand (.returned :: ws) = inHand ws := rfl

theorem mem_inHand : task ∈ inHand ws ↔ .working task ∈ ws := by
  rw [inHand, List.mem_filterMap]
  constructor
  · rintro ⟨w, hw, htask⟩
    cases w with
    | working t => exact Option.some.inj htask ▸ hw
    | _ => cases htask
  · intro h
    exact ⟨_, h, rfl⟩

theorem length_inHand_le : (inHand ws).length ≤ ws.length := List.length_filterMap_le _ _

@[simp] theorem inHand_replicate {n : ℕ} : inHand (List.replicate n (.checking : Worker τ)) = [] := by
  simp [inHand, Worker.task?]

/-- A broadcast takes no task out of a hand. -/
theorem inHand_awake :
    inHand (ws.map (fun w => if w.isWaiting then .checking else w)) = inHand ws := by
  induction ws with
  | nil => rfl
  | cons w ws ih =>
    cases w with
    | working task => exact congrArg (task :: ·) ih
    | _ => exact ih

end Workers

structure Sound (threads : ℕ) (p : ThreadPool τ) : Prop where
  size : p.workers.length = threads
  /-- Tasks are taken in the order in which they were accepted. -/
  fifo : p.enqueued = p.started ++ p.tasks
  /-- Each task that was taken is completed or in one worker's hand. -/
  taken : (p.finished ++ inHand p.workers).Perm p.started
  /-- For each task in the queue somebody is about to look, or to be told, if anybody sleeps. -/
  told : .waiting ∈ p.workers → p.tasks.length ≤ looking p.workers + p.notifies
  announced : p.notifyAll = true → p.stop = true
  woken : p.stop = true → p.notifyAll = false → .waiting ∉ p.workers
  /-- Nobody leaves the loop while there are tasks. -/
  drained : .returned ∈ p.workers → p.stop = true ∧ p.tasks = []

theorem sound_init (threads : ℕ) : (init threads : ThreadPool τ).Sound threads where
  size := List.length_replicate
  fifo := rfl
  taken := by simp [init]
  told h := nomatch List.eq_of_mem_replicate h
  announced h := nomatch h
  woken h := nomatch h
  drained h := nomatch List.eq_of_mem_replicate h

section Lists
variable {before after : List (Worker τ)} {w w' : Worker τ} {tasks rest : List τ} {task : τ}

theorem mem_replaced {v : Worker τ} (hne : v ≠ w') (h : v ∈ before ++ w' :: after) :
    v ∈ before ++ w :: after := by
  rw [List.mem_append, List.mem_cons] at h ⊢
  rcases h with h | rfl | h
  · exact Or.inl h
  · exact absurd rfl hne
  · exact Or.inr (Or.inr h)

private theorem perm_started {done hand started : List τ} (h : (done ++ (hand ++ rest)).Perm started) :
    (done ++ (hand ++ task :: rest)).Perm (started ++ [task]) := by
  rw [← List.append_assoc] at h ⊢
  exact List.perm_middle.trans ((h.cons task).trans (List.perm_append_singleton task started).symm)

private theorem perm_finished {done hand started : List τ}
    (h : (done ++ (hand ++ task :: rest)).Perm started) :
    (done ++ [task] ++ (hand ++ rest)).Perm started := by
  rw [List.append_assoc, List.singleton_append]
  exact (List.perm_middle.symm.append_left done).trans h

end Lists

theorem Sound.moves (h : p.Sound threads) (hm : p.Moves event p') : p'.Sound threads := by
  cases hm with
  | enqueue hopen =>
    refine ⟨h.size, ?_, h.taken, ?_, h.announced, h.woken, ?_⟩
    · simp [h.fifo]
    · intro hmem
      have ht := h.told hmem
      simp only [List.length_append, List.length_singleton]
      exact Nat.succ_le_succ ht
    · intro hmem
      exact absurd (h.drained hmem).1 (by simp [hopen])
  | @notifyOne n before after hn hw =>
    refine ⟨?_, h.fifo, ?_, ?_, h.announced, ?_, ?_⟩
    · simpa [hw] using h.size
    · simpa [hw] using h.taken
    · intro _
      have htold := h.told (by simp [hw])
      simp only [hw, looking_append, looking_waiting, looking_checking] at htold ⊢
      omega
    · intro hstop hall
      exact absurd (hw ▸ h.woken hstop hall) (by simp)
    · intro hmem
      exact h.drained (hw ▸ mem_replaced (by simp) hmem)
  | notifyNobody hn hw =>
    exact ⟨h.size, h.fifo, h.taken, fun hmem => absurd hmem hw, h.announced, h.woken, h.drained⟩
  | @wake before after hw =>
    refine ⟨?_, h.fifo, ?_, ?_, h.announced, ?_, ?_⟩
    · simpa [hw] using h.size
    · simpa [hw] using h.taken
    · intro _
      have htold := h.told (by simp [hw])
      simp only [hw, looking_append, looking_waiting, looking_checking] at htold ⊢
      omega
    · intro hstop hall
      exact absurd (hw ▸ h.woken hstop hall) (by simp)
    · intro hmem
      exact h.drained (hw ▸ mem_replaced (by simp) hmem)
  | @pop before after task rest hw ht =>
    refine ⟨?_, ?_, ?_, ?_, h.announced, ?_, ?_⟩
    · simpa [hw] using h.size
    · simp [h.fifo, ht]
    · have htaken := h.taken
      simp only [hw, inHand_append, inHand_checking, inHand_working] at htaken ⊢
      exact perm_started htaken
    · intro hmem
      have htold := h.told (hw ▸ mem_replaced (by simp) hmem)
      simp only [hw, ht, looking_append, looking_checking, looking_working, List.length_cons]
        at htold ⊢
      omega
    · intro hstop hall hmem
      exact h.woken hstop hall (hw ▸ mem_replaced (by simp) hmem)
    · intro hmem
      exact absurd (h.drained (hw ▸ mem_replaced (by simp) hmem)).2 (by simp [ht])
  | @wait before after hw ht hopen =>
    refine ⟨?_, h.fifo, ?_, ?_, h.announced, ?_, ?_⟩
    · simpa [hw] using h.size
    · simpa [hw] using h.taken
    · intro _
      simp [ht]
    · intro hstop
      exact absurd hstop (by simp [hopen])
    · intro hmem
      exact h.drained (hw ▸ mem_replaced (by simp) hmem)
  | @«return» before after hw ht hstop =>
    refine ⟨?_, h.fifo, ?_, ?_, h.announced, ?_, ?_⟩
    · simpa [hw] using h.size
    · simpa [hw] using h.taken
    · intro _
      simp [ht]
    · intro hstop hall hmem
      exact h.woken hstop hall (hw ▸ mem_replaced (by simp) hmem)
    · intro _
      exact ⟨hstop, ht⟩
  | @finish before after task hw =>
    refine ⟨?_, h.fifo, ?_, ?_, h.announced, ?_, ?_⟩
    · simpa [hw] using h.size
    · have htaken := h.taken
      simp only [hw, inHand_append, inHand_checking, inHand_working] at htaken ⊢
      exact perm_finished htaken
    · intro hmem
      have htold := h.told (hw ▸ mem_replaced (by simp) hmem)
      simp only [hw, looking_append, looking_checking, looking_working] at htold ⊢
      omega
    · intro hstop hall hmem
      exact h.woken hstop hall (hw ▸ mem_replaced (by simp) hmem)
    · intro hmem
      exact h.drained (hw ▸ mem_replaced (by simp) hmem)
  | close hopen =>
    refine ⟨h.size, h.fifo, h.taken, h.told, fun _ => rfl, fun _ hall => ?_, fun hmem => ?_⟩
    · cases hall
    · exact absurd (h.drained hmem).1 (by simp [hopen])
  | notifyAll hall =>
    have hnone : .waiting ∉ p.workers.map (fun w => if w.isWaiting then .checking else w) := by
      intro hmem
      obtain ⟨w, -, hw⟩ := List.mem_map.mp hmem
      cases w <;> cases hw
    refine ⟨?_, h.fifo, ?_, fun hmem => absurd hmem hnone, fun hagain => ?_, fun _ _ => hnone, ?_⟩
    · simpa using h.size
    · rw [inHand_awake]
      exact h.taken
    · cases hagain
    · intro hmem
      obtain ⟨w, hmem, hw⟩ := List.mem_map.mp hmem
      cases w with
      | returned => exact h.drained hmem
      | _ => cases hw

theorem Sound.run {events : List (PoolEvent τ)} (h : p.Sound threads)
    (hrun : GuardedRun.run step p events = some p') : p'.Sound threads :=
  run_keeps (P := fun _ => True) (fun hs _ hstep => hs.moves (moves_of_step hstep)) h
    (fun _ _ => trivial) hrun

/-- Nothing is due. -/
def Quiet (p : ThreadPool τ) : Prop := ∀ event p', p.step event = some p' → event.due = false

theorem Quiet.not_moves (hq : p.Quiet) (hm : p.Moves event p') (hdue : event.due = true) : False :=
  absurd (hq event p' (step_of_moves hm)) (by simp [hdue])

theorem Quiet.asleep (hq : p.Quiet) {w : Worker τ} (hw : w ∈ p.workers) :
    w = .waiting ∨ w = .returned := by
  obtain ⟨before, after, hws⟩ := List.append_of_mem hw
  cases w with
  | waiting => exact Or.inl rfl
  | returned => exact Or.inr rfl
  | working task => exact (hq.not_moves (.finish hws) rfl).elim
  | checking =>
    cases ht : p.tasks with
    | cons task rest => exact (hq.not_moves (.pop hws ht) rfl).elim
    | nil =>
      cases hstop : p.stop with
      | false => exact (hq.not_moves (.wait hws ht hstop) rfl).elim
      | true => exact (hq.not_moves (.return hws ht hstop) rfl).elim

theorem Quiet.notifies_eq (hq : p.Quiet) : p.notifies = 0 := by
  cases hn : p.notifies with
  | zero => rfl
  | succ n =>
    by_cases hw : .waiting ∈ p.workers
    · obtain ⟨before, after, hws⟩ := List.append_of_mem hw
      exact (hq.not_moves (.notifyOne hn hws) rfl).elim
    · exact (hq.not_moves (.notifyNobody hn hw) rfl).elim

theorem Quiet.notifyAll_eq (hq : p.Quiet) : p.notifyAll = false := by
  cases hall : p.notifyAll with
  | false => rfl
  | true => exact (hq.not_moves (.notifyAll hall) rfl).elim

private theorem Quiet.looking_eq (hq : p.Quiet) : looking p.workers = 0 := by
  refine List.countP_eq_zero.mpr (fun w hw => ?_)
  rcases hq.asleep hw with rfl | rfl <;> simp [Worker.isChecking]

theorem Quiet.inHand_eq (hq : p.Quiet) : inHand p.workers = [] := by
  refine List.filterMap_eq_nil_iff.mpr (fun w hw => ?_)
  rcases hq.asleep hw with rfl | rfl <;> rfl

/-- With a worker at all, the queue is empty when nothing is due. -/
theorem Sound.tasks_eq (h : p.Sound threads) (hthreads : 0 < threads) (hq : p.Quiet) :
    p.tasks = [] := by
  by_cases hw : .waiting ∈ p.workers
  · have htold := h.told hw
    rw [hq.looking_eq, hq.notifies_eq] at htold
    exact List.eq_nil_of_length_eq_zero (by omega)
  · obtain ⟨w, hmem⟩ := List.exists_mem_of_length_pos (by rw [h.size]; exact hthreads)
    rcases hq.asleep hmem with rfl | rfl
    · exact absurd hmem hw
    · exact (h.drained hmem).2

/-- A bound on what is due. -/
def toRest (p : ThreadPool τ) : ℕ :=
  2 * p.tasks.length + 2 * p.notifies + (p.workers.map Worker.toWait).sum +
    if p.notifyAll then p.workers.length + 1 else 0

private theorem toWait_awake (ws : List (Worker τ)) :
    ((ws.map (fun w => if w.isWaiting then .checking else w)).map Worker.toWait).sum ≤
      (ws.map Worker.toWait).sum + ws.length := by
  induction ws with
  | nil => exact Nat.le_refl _
  | cons w ws ih =>
    simp only [List.map_cons, List.sum_cons, List.length_cons]
    cases w <;> simp [Worker.isWaiting, Worker.toWait] at ih ⊢ <;> omega

theorem sum_toWait (before after : List (Worker τ)) (w : Worker τ) :
    ((before ++ w :: after).map Worker.toWait).sum =
      (before.map Worker.toWait).sum + (w.toWait + (after.map Worker.toWait).sum) := by
  rw [List.map_append, List.sum_append, List.map_cons, List.sum_cons]

theorem toRest_moves (hsize : p.workers.length = threads) (hm : p.Moves event p') :
    p'.toRest + 1 ≤ p.toRest + event.brings threads := by
  cases hm with
  | enqueue hopen =>
    simp only [toRest, PoolEvent.brings, List.length_append, List.length_singleton]
    omega
  | notifyOne hn hw =>
    simp only [toRest, PoolEvent.brings, hn, hw, sum_toWait, List.length_append, List.length_cons,
      Worker.toWait]
    omega
  | notifyNobody hn hw =>
    simp only [toRest, PoolEvent.brings, hn]
    omega
  | wake hw =>
    simp only [toRest, PoolEvent.brings, hw, sum_toWait, List.length_append, List.length_cons,
      Worker.toWait]
    omega
  | pop hw ht =>
    simp only [toRest, PoolEvent.brings, hw, ht, sum_toWait, List.length_append, List.length_cons,
      Worker.toWait]
    omega
  | wait hw ht hopen =>
    simp only [toRest, PoolEvent.brings, hw, ht, sum_toWait, List.length_append, List.length_cons,
      List.length_nil, Worker.toWait]
    omega
  | «return» hw ht hstop =>
    simp only [toRest, PoolEvent.brings, hw, ht, sum_toWait, List.length_append, List.length_cons,
      List.length_nil, Worker.toWait]
    omega
  | finish hw =>
    simp only [toRest, PoolEvent.brings, hw, sum_toWait, List.length_append, List.length_cons,
      Worker.toWait]
    omega
  | close hopen =>
    simp only [toRest, PoolEvent.brings, if_true, hsize]
    omega
  | notifyAll hall =>
    have hle := toWait_awake p.workers
    simp only [toRest, PoolEvent.brings, hall, if_true, Bool.false_eq_true, if_false]
    omega

private theorem length_add_toRest_le {events : List (PoolEvent τ)} (h : p.Sound threads)
    (hrun : GuardedRun.run step p events = some p') :
    events.length + p'.toRest ≤ p.toRest + (events.map (PoolEvent.brings threads)).sum :=
  length_add_le (P := fun _ => True) (fun hs _ hstep => hs.moves (moves_of_step hstep))
    (fun hs _ hstep => toRest_moves hs.size (moves_of_step hstep)) h (fun _ _ => trivial) hrun

theorem enqueued_moves (hm : p.Moves event p') :
    p'.enqueued = p.enqueued ++ event.task?.toList := by
  cases hm with
  | enqueue hopen => rfl
  | _ => exact (List.append_nil _).symm

theorem stop_moves (hm : p.Moves event p') (hne : event ≠ .close) : p'.stop = p.stop := by
  cases hm with
  | close hopen => exact absurd rfl hne
  | _ => rfl

/-- A task is completed by the worker that has it in hand. -/
theorem finished_moves (hm : p.Moves event p') {task : τ} (h : task ∈ p'.finished) :
    task ∈ p.finished ∨ ∃ i, event = .finish i ∧ p.workers[i]? = some (.working task) := by
  cases hm with
  | finish hw =>
    rcases List.mem_append.mp h with h | h
    · exact Or.inl h
    · obtain rfl := List.mem_singleton.mp h
      exact Or.inr ⟨_, rfl, by simp [hw]⟩
  | _ => exact Or.inl h

theorem enqueued_run {events : List (PoolEvent τ)} (hrun : GuardedRun.run step p events = some p') :
    p'.enqueued = p.enqueued ++ events.filterMap PoolEvent.task? :=
  run_logs (fun hstep => enqueued_moves (moves_of_step hstep)) hrun

section Runs
variable {events : List (PoolEvent τ)}

/-- Every task that was accepted is taken once, in the order of acceptance, and whoever took it
completes it once. -/
theorem tasks_once_in_order (h : GuardedRun.run step (init threads) events = some p) :
    events.filterMap PoolEvent.task? = p.started ++ p.tasks ∧
      (p.finished ++ inHand p.workers).Perm p.started := by
  have hsound := (sound_init threads).run h
  have henqueued := enqueued_run h
  exact ⟨by rw [← hsound.fifo, henqueued]; rfl, hsound.taken⟩

/-- A pool with tasks 1 and 2, of which it is told once, and then its destructor. -/
def closingRun : List (PoolEvent ℕ) :=
  [.look 0, .enqueue 1, .enqueue 2, .notifyOne 0, .look 0, .close, .finish 0, .look 0, .notifyNobody,
    .finish 0, .notifyAll, .look 0]

theorem tasks_once_in_order_closing : ∃ p, GuardedRun.run step (init 1) closingRun = some p ∧
    [1, 2] = p.started ++ p.tasks ∧ (p.finished ++ inHand p.workers).Perm p.started := by
  have h : GuardedRun.run step (init 1) closingRun = some _ := rfl
  exact ⟨_, h, tasks_once_in_order h⟩

/-- No wake-up is lost: a run comes to rest after boundedly many events, and at rest every task
that was accepted is completed and, once the pool is stopped, every worker has returned. -/
theorem drains (hthreads : 0 < threads) (h : GuardedRun.run step (init threads) events = some p) :
    events.length + p.toRest ≤ threads + (events.map (PoolEvent.brings threads)).sum ∧
      (p.Quiet → p.finished.Perm (events.filterMap PoolEvent.task?) ∧
        (p.stop = true → ∀ w ∈ p.workers, w = .returned)) := by
  have hsound := (sound_init threads).run h
  constructor
  · have hle := length_add_toRest_le (sound_init threads) h
    simpa [toRest, init, Worker.toWait] using hle
  · intro hq
    have htaken := hsound.taken
    have hfifo := hsound.fifo
    rw [hsound.tasks_eq hthreads hq, List.append_nil, enqueued_run h] at hfifo
    rw [hq.inHand_eq, List.append_nil, ← hfifo] at htaken
    refine ⟨htaken, fun hstop w hw => (hq.asleep hw).resolve_left ?_⟩
    rintro rfl
    exact hsound.woken hstop hq.notifyAll_eq hw

theorem drains_closing : ∃ p, GuardedRun.run step (init 1) closingRun = some p ∧
    12 + p.toRest ≤ 1 + 13 ∧ (p.Quiet → p.finished.Perm [1, 2] ∧
      (p.stop = true → ∀ w ∈ p.workers, w = .returned)) := by
  have h : GuardedRun.run step (init 1) closingRun = some _ := rfl
  exact ⟨_, h, drains Nat.one_pos h⟩

end Runs

theorem single_eq {before after : List (Worker τ)} {w : Worker τ} (h : p.Sound 1)
    (hw : p.workers = before ++ w :: after) : before = [] ∧ after = [] := by
  have hsize := h.size
  rw [hw, List.length_append, List.length_cons] at hsize
  exact ⟨List.eq_nil_of_length_eq_zero (by omega), List.eq_nil_of_length_eq_zero (by omega)⟩

private theorem single_moves (h : p.Sound 1) (hm : p.Moves event p')
    (hdone : p.started = p.finished ++ inHand p.workers) :
    p'.started = p'.finished ++ inHand p'.workers := by
  cases hm with
  | pop hw ht =>
    obtain ⟨rfl, rfl⟩ := single_eq h hw
    simpa [hw] using hdone
  | finish hw =>
    obtain ⟨rfl, rfl⟩ := single_eq h hw
    simpa [hw] using hdone
  | notifyAll hall => rw [inHand_awake, hdone]
  | notifyOne hn hw => simpa [hw] using hdone
  | wake hw => simpa [hw] using hdone
  | wait hw ht hopen => simpa [hw] using hdone
  | «return» hw ht hstop => simpa [hw] using hdone
  | enqueue hopen => exact hdone
  | notifyNobody hn hw => exact hdone
  | close hopen => exact hdone

private theorem single_run {events : List (PoolEvent τ)} (h : p.Sound 1)
    (hdone : p.started = p.finished ++ inHand p.workers)
    (hrun : GuardedRun.run step p events = some p') :
    p'.started = p'.finished ++ inHand p'.workers := by
  have hboth : p'.Sound 1 ∧ p'.started = p'.finished ++ inHand p'.workers := by
    refine run_keeps (I := fun q => q.Sound 1 ∧ q.started = q.finished ++ inHand q.workers)
      (P := fun _ => True) (fun hs _ hstep => ?_) ⟨h, hdone⟩ (fun _ _ => trivial) hrun
    have hmoves := moves_of_step hstep
    exact ⟨hs.1.moves hmoves, single_moves hs.1 hmoves hs.2⟩
  exact hboth.2

/-- A single worker, as the thread of a node linker, completes the tasks in the order in which they
were accepted. -/
theorem single_worker_in_order {events : List (PoolEvent τ)}
    (h : GuardedRun.run step (init 1) events = some p) :
    events.filterMap PoolEvent.task? = p.finished ++ inHand p.workers ++ p.tasks := by
  have hfifo := ((sound_init 1).run h).fifo
  have hdone := single_run (sound_init 1) (by simp [init]) h
  rw [← hdone, ← hfifo, enqueued_run h]
  rfl

theorem single_worker_in_order_closing : ∃ p, GuardedRun.run step (init 1) closingRun = some p ∧
    [1, 2] = p.finished ++ inHand p.workers ++ p.tasks := by
  have h : GuardedRun.run step (init 1) closingRun = some _ := rfl
  exact ⟨_, h, single_worker_in_order h⟩

end ThreadPool
end ImdbD
