import ImdbD.ThreadPool
import ImdbD.EchoLink

/-!
# A node linker in full

The linker's thread waits for tasks as the worker of a pool does. In a task it
writes the request to the socket and reads the reply, and only then it looks at
the queue again. The session is there once the service at the other end has
accepted the connection.
-/
namespace ImdbD.DTXN
open ByteMemory GuardedRun

/-- `pool` has the queue with its mutex and the thread, `link` the connection. -/
structure NodeLinker where
  worker_id : ℕ
  pool : ThreadPool Bytes
  link : EchoLink
  accepted : Bool

/-- `accept`, `doRead` and `doWrite` are those of the service and the session, `close` and `notifyAll`
those of the destructor before it joins the thread. -/
inductive LinkerEvent where
  | submitTask (request : Bytes)
  | notifyOne
  | notifyNobody
  | wake
  | look
  | write
  | readSome (length : ℕ)
  | accept
  | doRead (length : ℕ)
  | doWrite
  | close
  | notifyAll
  deriving DecidableEq

namespace LinkerEvent

/-- What somebody is about to do: not a new request, nor the end, nor a thread that wakes up for no
reason. -/
def due : LinkerEvent → Bool
  | submitTask _ | wake | close => false
  | _ => true

/-- How many further events an event brings, and itself. -/
def brings : LinkerEvent → ℕ
  | submitTask request => 4 * request.length + 8
  | wake => 2
  | close => 3
  | _ => 0

def request? : LinkerEvent → Option Bytes
  | submitTask request => some request
  | _ => none

end LinkerEvent

namespace NodeLinker

/-- A new linker, with its thread on its way into the loop. -/
def connect (worker_id : ℕ) : NodeLinker := ⟨worker_id, .init 1, .connected, false⟩

def inPool (l : NodeLinker) (event : PoolEvent Bytes) : Option NodeLinker :=
  (l.pool.step event).map (fun pool => { l with pool := pool })

def onLink (l : NodeLinker) (event : LinkEvent) : Option NodeLinker :=
  (l.link.step event).map (fun link => { l with link := link })

/-- One event. A `submitTask` after the end throws. -/
def step (l : NodeLinker) : LinkerEvent → Option NodeLinker
  | .submitTask request =>
    (l.inPool (.enqueue request)).bind (fun l => l.onLink (.submitTask request))
  | .notifyOne => l.inPool (.notifyOne 0)
  | .notifyNobody => l.inPool .notifyNobody
  | .wake => l.inPool (.wake 0)
  | .look =>
    match l.pool.tasks with
    | [] => l.inPool (.look 0)
    | _ :: _ => (l.inPool (.look 0)).bind (fun l => l.onLink .popTask)
  | .write => l.onLink .write
  | .readSome length => (l.onLink (.readSome length)).bind (fun l => l.inPool (.finish 0))
  | .accept => if l.accepted then none else some { l with accepted := true }
  | .doRead length => if l.accepted then l.onLink (.doRead length) else none
  | .doWrite => l.onLink .doWrite
  | .close => l.inPool .close
  | .notifyAll => l.inPool .notifyAll

end NodeLinker

/-- Events that put nothing into the queue and nothing into a hand. -/
def aside : PoolEvent Bytes → Bool
  | .enqueue _ | .look _ | .finish _ => false
  | _ => true

section Parts
variable {p p' : ThreadPool Bytes} {s s' : EchoLink}
open ThreadPool EchoLink

private theorem pool_aside {event : PoolEvent Bytes} (h : p.step event = some p') (ha : aside event) :
    p'.tasks = p.tasks ∧ p'.enqueued = p.enqueued ∧ inHand p'.workers = inHand p.workers := by
  cases moves_of_step h with
  | notifyOne hn hw => exact ⟨rfl, rfl, by simp [hw]⟩
  | wake hw => exact ⟨rfl, rfl, by simp [hw]⟩
  | notifyAll hall => exact ⟨rfl, rfl, inHand_awake⟩
  | notifyNobody hn hw => exact ⟨rfl, rfl, rfl⟩
  | close hopen => exact ⟨rfl, rfl, rfl⟩
  | _ => cases ha

private theorem pool_enqueue {task : Bytes} (h : p.step (.enqueue task) = some p') :
    p'.tasks = p.tasks ++ [task] ∧ p'.enqueued = p.enqueued ++ [task] ∧ p'.workers = p.workers := by
  cases moves_of_step h
  exact ⟨rfl, rfl, rfl⟩

private theorem pool_look_nil (h : p.step (.look 0) = some p') (ht : p.tasks = []) :
    p'.tasks = p.tasks ∧ p'.enqueued = p.enqueued ∧ inHand p'.workers = inHand p.workers := by
  have hm := moves_of_step h
  generalize hlook : PoolEvent.look 0 = event at hm
  cases hm with
  | pop hw ht' => cases ht.symm.trans ht'
  | wait hw _ _ => exact ⟨rfl, rfl, by simp [hw]⟩
  | «return» hw _ _ => exact ⟨rfl, rfl, by simp [hw]⟩
  | _ => cases hlook

private theorem pool_look_cons (hp : p.Sound 1) (h : p.step (.look 0) = some p') {task : Bytes}
    {rest : List Bytes} (ht : p.tasks = task :: rest) :
    inHand p.workers = [] ∧ p'.tasks = rest ∧ p'.enqueued = p.enqueued ∧ inHand p'.workers = [task] := by
  have hm := moves_of_step h
  generalize hlook : PoolEvent.look 0 = event at hm
  cases hm with
  | pop hw ht' =>
    obtain ⟨rfl, rfl⟩ := single_eq hp hw
    cases ht.symm.trans ht'
    exact ⟨by simp [hw], rfl, rfl, rfl⟩
  | wait hw ht' _ => cases ht.symm.trans ht'
  | «return» hw ht' _ => cases ht.symm.trans ht'
  | _ => cases hlook

private theorem pool_finish (hp : p.Sound 1) (h : p.step (.finish 0) = some p') :
    (∃ task, p.workers = [.working task]) ∧ p'.tasks = p.tasks ∧ p'.enqueued = p.enqueued ∧
      inHand p'.workers = [] := by
  have hm := moves_of_step h
  generalize hfinish : PoolEvent.finish 0 = event at hm
  cases hm with
  | finish hw =>
    obtain ⟨rfl, rfl⟩ := single_eq hp hw
    exact ⟨⟨_, hw⟩, rfl, rfl, rfl⟩
  | _ => cases hfinish

private theorem pool_working (hp : p.Sound 1) {task : Bytes} (h : inHand p.workers = [task]) :
    p.workers = [.working task] := by
  obtain ⟨w, hw⟩ := List.length_eq_one_iff.mp hp.size
  rw [hw] at h ⊢
  cases w <;> cases h
  rfl

private theorem pool_due (hp : p.Sound 1) {event : PoolEvent Bytes} (h : p.step event = some p')
    (hdue : event.due = true) : event = .notifyOne 0 ∨ event = .notifyNobody ∨ event = .look 0 ∨
      event = .finish 0 ∨ event = .notifyAll := by
  cases moves_of_step h with
  | notifyOne hn hw => simp [(single_eq hp hw).1]
  | pop hw ht => simp [(single_eq hp hw).1]
  | wait hw ht hopen => simp [(single_eq hp hw).1]
  | «return» hw ht hstop => simp [(single_eq hp hw).1]
  | finish hw => simp [(single_eq hp hw).1]
  | notifyNobody hn hw => simp
  | notifyAll hall => simp
  | _ => cases hdue

private theorem link_popTask (h : s.step .popTask = some s') : ∃ request rest,
    s.tasks = request :: rest ∧ s'.tasks = rest ∧ s'.submitted = s.submitted ∧
      current s'.thread = [request] := by
  obtain ⟨submitted, tasks, thread, toSession, data, toLinker, replies⟩ := s
  simp only [EchoLink.step] at h
  split at h <;> cases h
  exact ⟨_, _, rfl, rfl, rfl, rfl⟩

private theorem link_readSome {length : ℕ} (h : s.step (.readSome length) = some s') :
    s'.tasks = s.tasks ∧ s'.submitted = s.submitted ∧ current s'.thread = [] := by
  simp only [EchoLink.step] at h
  split at h <;> try cases h
  split at h <;> cases h
  exact ⟨rfl, rfl, rfl⟩

/-- Writing a request and what the session does change nothing else of the linker's side. -/
theorem link_aside {event : LinkEvent} (h : s.step event = some s')
    (ha : event = .write ∨ event = .doWrite ∨ ∃ length, event = .doRead length) :
    s'.tasks = s.tasks ∧ s'.submitted = s.submitted ∧ current s'.thread = current s.thread := by
  rcases ha with rfl | rfl | ⟨length, rfl⟩
  · simp only [EchoLink.step] at h
    split at h <;> cases h
    rename_i hthread
    exact ⟨rfl, rfl, by rw [hthread]; rfl⟩
  · simp only [EchoLink.step] at h
    split at h <;> cases h
    exact ⟨rfl, rfl, rfl⟩
  · simp only [EchoLink.step] at h
    split at h <;> try cases h
    split at h <;> cases h
    exact ⟨rfl, rfl, rfl⟩

end Parts

namespace NodeLinker
variable {l l' : NodeLinker} {event : LinkerEvent}

theorem inPool_eq_some {event : PoolEvent Bytes} : l.inPool event = some l' ↔
    ∃ pool, l.pool.step event = some pool ∧ l' = { l with pool := pool } := by
  simp [inPool, eq_comm]

theorem onLink_eq_some {event : LinkEvent} : l.onLink event = some l' ↔
    ∃ link, l.link.step event = some link ∧ l' = { l with link := link } := by
  simp [onLink, eq_comm]

/-- The event of the pool, where the connection has no part in it. -/
def poolOnly : LinkerEvent → Option (PoolEvent Bytes)
  | .notifyOne => some (.notifyOne 0)
  | .notifyNobody => some .notifyNobody
  | .wake => some (.wake 0)
  | .close => some .close
  | .notifyAll => some .notifyAll
  | _ => none

/-- The event of the connection, where the pool has no part in it. -/
def linkOnly : LinkerEvent → Option LinkEvent
  | .write => some .write
  | .doRead length => some (.doRead length)
  | .doWrite => some .doWrite
  | _ => none

/-- An event with its steps in the pool and on the connection. -/
inductive Moves (l : NodeLinker) : LinkerEvent → NodeLinker → Prop
  | submitTask {request : Bytes} {m l' : NodeLinker} (hpool : l.inPool (.enqueue request) = some m)
      (hlink : m.onLink (.submitTask request) = some l') : Moves l (.submitTask request) l'
  | pool {event : LinkerEvent} {e : PoolEvent Bytes} {l' : NodeLinker} (he : poolOnly event = some e)
      (hpool : l.inPool e = some l') : Moves l event l'
  | link {event : LinkerEvent} {e : LinkEvent} {l' : NodeLinker} (he : linkOnly event = some e)
      (hlink : l.onLink e = some l') : Moves l event l'
  | lookNil {l' : NodeLinker} (ht : l.pool.tasks = []) (hpool : l.inPool (.look 0) = some l') :
      Moves l .look l'
  | lookCons {task : Bytes} {rest : List Bytes} {m l' : NodeLinker} (ht : l.pool.tasks = task :: rest)
      (hpool : l.inPool (.look 0) = some m) (hlink : m.onLink .popTask = some l') : Moves l .look l'
  | readSome {length : ℕ} {m l' : NodeLinker} (hlink : l.onLink (.readSome length) = some m)
      (hpool : m.inPool (.finish 0) = some l') : Moves l (.readSome length) l'
  | accept (hnot : l.accepted = false) : Moves l .accept { l with accepted := true }

theorem moves_of_step (hstep : l.step event = some l') : l.Moves event l' := by
  cases event with
  | submitTask request =>
    obtain ⟨m, hpool, hlink⟩ := Option.bind_eq_some_iff.mp hstep
    exact .submitTask hpool hlink
  | look =>
    simp only [step] at hstep
    split at hstep
    · exact .lookNil ‹_› hstep
    · obtain ⟨m, hpool, hlink⟩ := Option.bind_eq_some_iff.mp hstep
      exact .lookCons ‹_› hpool hlink
  | readSome length =>
    obtain ⟨m, hlink, hpool⟩ := Option.bind_eq_some_iff.mp hstep
    exact .readSome hlink hpool
  | accept =>
    simp only [step] at hstep
    split at hstep <;> cases hstep
    exact .accept (Bool.eq_false_iff.mpr ‹_›)
  | doRead length =>
    simp only [step] at hstep
    split at hstep
    · exact .link rfl hstep
    · cases hstep
  | write => exact .link rfl hstep
  | doWrite => exact .link rfl hstep
  | notifyOne => exact .pool rfl hstep
  | notifyNobody => exact .pool rfl hstep
  | wake => exact .pool rfl hstep
  | close => exact .pool rfl hstep
  | notifyAll => exact .pool rfl hstep

theorem poolOnly_spec {e : PoolEvent Bytes} (h : poolOnly event = some e) : aside e ∧
    e.brings 1 = event.brings ∧ event.request? = none ∧ (e = .close → event = .close) := by
  cases event <;> cases h <;> simp [aside, PoolEvent.brings, LinkerEvent.brings, LinkerEvent.request?]

theorem linkOnly_spec {e : LinkEvent} (h : linkOnly event = some e) :
    (e = .write ∨ e = .doWrite ∨ ∃ length, e = .doRead length) ∧
      (∀ request, e ≠ .submitTask request) ∧ event.request? = none := by
  cases event <;> cases h <;> simp [LinkerEvent.request?]

/-- The thread is in a task as long as its request is being served. -/
structure Sound (l : NodeLinker) : Prop where
  pool : l.pool.Sound 1
  link : ∃ served, l.link.Carried served
  tasks : l.link.tasks = l.pool.tasks
  submitted : l.link.submitted = l.pool.enqueued
  hand : EchoLink.current l.link.thread = ThreadPool.inHand l.pool.workers

theorem sound_connect (worker_id : ℕ) : (connect worker_id).Sound where
  pool := ThreadPool.sound_init 1
  link := ⟨[], EchoLink.carried_connected⟩
  tasks := rfl
  submitted := rfl
  hand := rfl

theorem Sound.moves (h : l.Sound) (hne : event ≠ .submitTask []) (hm : l.Moves event l') :
    l'.Sound := by
  obtain ⟨served, hserved⟩ := h.link
  cases hm with
  | submitTask hin hon =>
    obtain ⟨pool, hpool, rfl⟩ := inPool_eq_some.mp hin
    obtain ⟨link, hlink, rfl⟩ := onLink_eq_some.mp hon
    obtain ⟨htasks, henqueued, hworkers⟩ := pool_enqueue hpool
    have hserved' := hserved.step hlink (by simpa using hne)
    cases hlink
    refine ⟨h.pool.moves (ThreadPool.moves_of_step hpool), hserved', ?_, ?_, ?_⟩
    · rw [htasks, ← h.tasks]
    · rw [henqueued, ← h.submitted]
    · rw [hworkers]
      exact h.hand
  | pool he hin =>
    obtain ⟨pool, hpool, rfl⟩ := inPool_eq_some.mp hin
    obtain ⟨htasks, henqueued, hhand⟩ := pool_aside hpool (poolOnly_spec he).1
    exact ⟨h.pool.moves (ThreadPool.moves_of_step hpool), h.link, h.tasks.trans htasks.symm,
      h.submitted.trans henqueued.symm, h.hand.trans hhand.symm⟩
  | link he hon =>
    obtain ⟨link, hlink, rfl⟩ := onLink_eq_some.mp hon
    obtain ⟨hside, hrequest, -⟩ := linkOnly_spec he
    obtain ⟨htasks, hsubmitted, hcurrent⟩ := link_aside hlink hside
    exact ⟨h.pool, hserved.step hlink (hrequest []), htasks.trans h.tasks,
      hsubmitted.trans h.submitted, hcurrent.trans h.hand⟩
  | lookNil ht hin =>
    obtain ⟨pool, hpool, rfl⟩ := inPool_eq_some.mp hin
    obtain ⟨htasks, henqueued, hhand⟩ := pool_look_nil hpool ht
    exact ⟨h.pool.moves (ThreadPool.moves_of_step hpool), h.link, h.tasks.trans htasks.symm,
      h.submitted.trans henqueued.symm, h.hand.trans hhand.symm⟩
  | lookCons ht hin hon =>
    obtain ⟨pool, hpool, rfl⟩ := inPool_eq_some.mp hin
    obtain ⟨link, hlink, rfl⟩ := onLink_eq_some.mp hon
    obtain ⟨-, htasks, henqueued, hhand⟩ := pool_look_cons h.pool hpool ht
    obtain ⟨request, others, ht', htasks', hsubmitted, hcurrent⟩ := link_popTask hlink
    -- both queues have the same first task
    cases ht'.symm.trans (h.tasks.trans ht)
    exact ⟨h.pool.moves (ThreadPool.moves_of_step hpool), hserved.step hlink (by simp),
      htasks'.trans htasks.symm, hsubmitted.trans (h.submitted.trans henqueued.symm),
      hcurrent.trans hhand.symm⟩
  | readSome hon hin =>
    obtain ⟨link, hlink, rfl⟩ := onLink_eq_some.mp hon
    obtain ⟨pool, hpool, rfl⟩ := inPool_eq_some.mp hin
    obtain ⟨htasks, hsubmitted, hcurrent⟩ := link_readSome hlink
    obtain ⟨-, htasks', henqueued, hhand⟩ := pool_finish h.pool hpool
    exact ⟨h.pool.moves (ThreadPool.moves_of_step hpool), hserved.step hlink (by simp),
      htasks.trans (h.tasks.trans htasks'.symm), hsubmitted.trans (h.submitted.trans henqueued.symm),
      hcurrent.trans hhand.symm⟩
  | accept hnot => exact ⟨h.pool, h.link, h.tasks, h.submitted, h.hand⟩

/-- The linker keeps its number, is stopped by its destructor only, and is handed requests by
`submitTask` only. -/
structure Frame (l : NodeLinker) (requests : List Bytes) (closes : Prop) (l' : NodeLinker) : Prop where
  worker_id : l'.worker_id = l.worker_id
  stop : ¬ closes → l'.pool.stop = l.pool.stop
  submitted : l'.link.submitted = l.link.submitted ++ requests

theorem frame_inPool {event : PoolEvent Bytes} (hstep : l.inPool event = some l') :
    l.Frame [] (event = .close) l' := by
  obtain ⟨pool, hpool, rfl⟩ := inPool_eq_some.mp hstep
  exact ⟨rfl, ThreadPool.stop_moves (ThreadPool.moves_of_step hpool), (List.append_nil _).symm⟩

theorem frame_onLink {event : LinkEvent} (hstep : l.onLink event = some l')
    (hne : ∀ request, event ≠ .submitTask request) : l.Frame [] False l' := by
  obtain ⟨link, hlink, rfl⟩ := onLink_eq_some.mp hstep
  refine ⟨rfl, fun _ => rfl, ?_⟩
  rw [List.append_nil]
  cases event with
  | submitTask request => exact absurd rfl (hne request)
  | popTask =>
    obtain ⟨_, _, -, -, hsubmitted, -⟩ := link_popTask hlink
    exact hsubmitted
  | readSome length => exact (link_readSome hlink).2.1
  | write => exact (link_aside hlink (.inl rfl)).2.1
  | doWrite => exact (link_aside hlink (.inr (.inl rfl))).2.1
  | doRead length => exact (link_aside hlink (.inr (.inr ⟨length, rfl⟩))).2.1

theorem Frame.mono {closes closes' : Prop} (h : l.Frame [] closes l') (hc : closes → closes') :
    l.Frame [] closes' l' :=
  ⟨h.worker_id, fun hn => h.stop (fun hcl => hn (hc hcl)), h.submitted⟩

theorem Frame.trans {l'' : NodeLinker} {requests requests' : List Bytes} {closes : Prop}
    (h : l.Frame requests closes l') (h' : l'.Frame requests' closes l'') :
    l.Frame (requests ++ requests') closes l'' where
  worker_id := h'.worker_id.trans h.worker_id
  stop hn := (h'.stop hn).trans (h.stop hn)
  submitted := by rw [h'.submitted, h.submitted, List.append_assoc]

theorem frame_moves (hm : l.Moves event l') : l.Frame event.request?.toList (event = .close) l' := by
  cases hm with
  | submitTask hin hon =>
    obtain ⟨link, hlink, rfl⟩ := onLink_eq_some.mp hon
    have hframe := frame_inPool hin
    cases hlink
    refine ⟨hframe.worker_id, fun _ => hframe.stop (by simp), ?_⟩
    simp [hframe.submitted, LinkerEvent.request?]
  | pool he hin =>
    obtain ⟨-, -, hrequest, hclose⟩ := poolOnly_spec he
    rw [hrequest]
    exact (frame_inPool hin).mono hclose
  | link he hon =>
    obtain ⟨-, hne, hrequest⟩ := linkOnly_spec he
    rw [hrequest]
    exact (frame_onLink hon hne).mono False.elim
  | lookNil ht hin => exact (frame_inPool hin).mono (by simp)
  | lookCons ht hin hon =>
    exact ((frame_inPool hin).mono (by simp)).trans ((frame_onLink hon (by simp)).mono False.elim)
  | readSome hon hin =>
    exact ((frame_onLink hon (by simp)).mono False.elim).trans ((frame_inPool hin).mono (by simp))
  | accept hnot => exact ⟨rfl, fun _ => rfl, (List.append_nil _).symm⟩

/-- The destructor stops a linker once. -/
theorem stop_close (hm : l.Moves .close l') : l.pool.stop = false ∧ l'.pool.stop = true := by
  cases hm with
  | pool he hin =>
    cases he
    obtain ⟨pool, hpool, rfl⟩ := inPool_eq_some.mp hin
    cases ThreadPool.moves_of_step hpool with
    | close hopen => exact ⟨hopen, rfl⟩
  | link he hon => cases he

theorem close_isSome (hopen : l.pool.stop = false) : (l.step .close).isSome := by
  simp [step, inPool, ThreadPool.step, hopen]

/-- A bound on what is due. -/
def toRest (l : NodeLinker) : ℕ :=
  l.pool.toRest + l.link.remaining + if l.accepted then 0 else 1

theorem toRest_inPool (h : l.Sound) {event : PoolEvent Bytes} (hstep : l.inPool event = some l') :
    l'.toRest + 1 ≤ l.toRest + event.brings 1 := by
  obtain ⟨pool, hpool, rfl⟩ := inPool_eq_some.mp hstep
  have hle := ThreadPool.toRest_moves h.pool.size (ThreadPool.moves_of_step hpool)
  simp only [toRest]
  omega

theorem toRest_onLink {event : LinkEvent} (hstep : l.onLink event = some l')
    (hne : ∀ request, event ≠ .submitTask request) : l'.toRest + 1 ≤ l.toRest := by
  obtain ⟨link, hlink, rfl⟩ := onLink_eq_some.mp hstep
  have hlt := EchoLink.remaining_step hlink hne
  simp only [toRest]
  omega

theorem toRest_moves (h : l.Sound) (hm : l.Moves event l') :
    l'.toRest + 1 ≤ l.toRest + event.brings := by
  cases hm with
  | submitTask hin hon =>
    have hle := toRest_inPool h hin
    obtain ⟨link, hlink, rfl⟩ := onLink_eq_some.mp hon
    cases hlink
    simp only [toRest, EchoLink.remaining, List.map_append, List.map_singleton, List.sum_append,
      List.sum_singleton, PoolEvent.brings, LinkerEvent.brings] at hle ⊢
    omega
  | pool he hin =>
    rw [← (poolOnly_spec he).2.1]
    exact toRest_inPool h hin
  | link he hon => exact (toRest_onLink hon (linkOnly_spec he).2.1).trans (Nat.le_add_right _ _)
  | lookNil ht hin => exact toRest_inPool h hin
  | lookCons ht hin hon =>
    have hle := toRest_inPool h hin
    have hlt := toRest_onLink hon (by simp)
    simp only [PoolEvent.brings] at hle
    omega
  | readSome hon hin =>
    have hlt := toRest_onLink hon (by simp)
    obtain ⟨link, hlink, rfl⟩ := onLink_eq_some.mp hon
    obtain ⟨pool, hpool, rfl⟩ := inPool_eq_some.mp hin
    have hle := ThreadPool.toRest_moves h.pool.size (ThreadPool.moves_of_step hpool)
    simp only [toRest, PoolEvent.brings] at hlt hle ⊢
    omega
  | accept hnot => simp [toRest, hnot]

/-- Nothing is due. -/
def Quiet (l : NodeLinker) : Prop := ∀ event l', l.step event = some l' → event.due = false

/-- Nothing is due once all bytes have come and the thread has returned. -/
theorem quiet_of_returned (hworkers : l.pool.workers = [.returned])
    (hnotifies : l.pool.notifies = 0 ∧ l.pool.notifyAll = false)
    (hlink : l.link.thread = .idle ∧ l.link.toSession = [] ∧ l.link.data = none)
    (haccepted : l.accepted = true) : l.Quiet := by
  obtain ⟨worker_id, pool, link, accepted⟩ := l
  obtain ⟨workers, tasks, stop, notifies, notifyAll, enqueued, started, finished⟩ := pool
  obtain ⟨submitted, linkTasks, thread, toSession, data, toLinker, replies⟩ := link
  simp only at hworkers hnotifies hlink haccepted
  obtain ⟨rfl, rfl⟩ := hnotifies
  obtain ⟨rfl, rfl, rfl⟩ := hlink
  subst hworkers haccepted
  intro event l' hstep
  cases event with
  | submitTask | wake | close => rfl
  | look => cases tasks <;> cases hstep
  | doRead length =>
    simp only [step, onLink, EchoLink.step, if_true, List.length_nil] at hstep
    rw [if_neg (by omega)] at hstep
    cases hstep
  | _ => cases hstep

theorem Quiet.not_due (hq : l.Quiet) (event : LinkerEvent) (hstep : (l.step event).isSome)
    (hdue : event.due = true) : False := by
  obtain ⟨l', hl⟩ := Option.isSome_iff_exists.mp hstep
  exact absurd (hq event l' hl) (by simp [hdue])

/-- A thread in a task waits for nothing that does not come. -/
theorem Quiet.idle (hq : l.Quiet) (h : l.Sound) : l.link.thread = .idle := by
  obtain ⟨worker_id, pool, link, accepted⟩ := l
  obtain ⟨submitted, tasks, thread, toSession, data, toLinker, replies⟩ := link
  obtain ⟨served, hserved⟩ := h.link
  cases thread with
  | idle => rfl
  | writing request => exact (hq.not_due .write rfl rfl).elim
  | reading request =>
    refine absurd (hserved.coming request rfl) (not_not.mpr ?_)
    cases data with
    | some data => exact (hq.not_due .doWrite rfl rfl).elim
    | none =>
      cases toLinker with
      | cons b rest =>
        have hworkers : pool.workers = [.working request] := pool_working h.pool h.hand.symm
        have hfinish : (pool.step (.finish 0)).isSome := by simp [ThreadPool.step, hworkers]
        refine (hq.not_due (.readSome 1) ?_ rfl).elim
        simpa [step, onLink, inPool, EchoLink.step, max_length] using hfinish
      | nil =>
        cases toSession with
        | nil => rfl
        | cons b rest =>
          cases accepted with
          | false => exact (hq.not_due .accept rfl rfl).elim
          | true =>
            refine (hq.not_due (.doRead 1) ?_ rfl).elim
            simp [step, onLink, EchoLink.step, max_length]

theorem Quiet.pool (hq : l.Quiet) (h : l.Sound) : l.pool.Quiet := by
  intro event p' hstep
  by_contra hdue
  rw [Bool.not_eq_false] at hdue
  have hsome : (l.inPool event).isSome := by simp [inPool, hstep]
  have hidle := hq.idle h
  rcases pool_due h.pool hstep hdue with rfl | rfl | rfl | rfl | rfl
  · exact hq.not_due .notifyOne hsome rfl
  · exact hq.not_due .notifyNobody hsome rfl
  · refine hq.not_due .look ?_ rfl
    simp only [step]
    split
    · exact hsome
    · rename_i task rest ht
      have htasks := h.tasks.trans ht
      obtain ⟨m, hm⟩ := Option.isSome_iff_exists.mp hsome
      obtain ⟨pool, -, rfl⟩ := inPool_eq_some.mp hm
      simp [hm, onLink, EchoLink.step, hidle, htasks]
  · obtain ⟨⟨task, hworkers⟩, -⟩ := pool_finish h.pool hstep
    have hhand := h.hand
    rw [hidle, hworkers] at hhand
    cases hhand
  · exact hq.not_due .notifyAll hsome rfl

theorem Quiet.link (hq : l.Quiet) (h : l.Sound) : l.link.Quiet := by
  intro event s' hstep
  have hidle := hq.idle h
  have htasks := h.tasks.trans (h.pool.tasks_eq Nat.one_pos (hq.pool h))
  have hsome : (l.onLink event).isSome := by simp [onLink, hstep]
  cases event with
  | submitTask request => exact ⟨request, rfl⟩
  | popTask => simp [EchoLink.step, hidle, htasks] at hstep
  | write => simp [EchoLink.step, hidle] at hstep
  | readSome length => simp [EchoLink.step, hidle] at hstep
  | doWrite => exact (hq.not_due .doWrite hsome rfl).elim
  | doRead length =>
    cases haccepted : l.accepted with
    | false => exact (hq.not_due .accept (by simp [step, haccepted]) rfl).elim
    | true => exact (hq.not_due (.doRead length) (by simpa [step, haccepted] using hsome) rfl).elim

/-- At rest every request has its reply, and a thread that was told to stop has returned. -/
theorem Quiet.served (hq : l.Quiet) (h : l.Sound) :
    l.link.replies.length = l.link.submitted.length ∧
      l.link.replies.flatten ++ l.link.toLinker = l.link.submitted.flatten ∧
      (l.pool.stop = true → l.pool.notifyAll = false ∧ l.pool.workers = [.returned]) := by
  obtain ⟨served, hserved⟩ := h.link
  obtain ⟨rfl, hflight, hidle⟩ := hserved.quiet (hq.link h)
  have hbytes := hserved.bytes
  rw [hflight, hidle] at hbytes
  refine ⟨hserved.count.symm, by simpa [EchoLink.awaited] using hbytes, fun hstop => ?_⟩
  have hpool := hq.pool h
  obtain ⟨w, hw⟩ := List.length_eq_one_iff.mp h.pool.size
  have hasleep := hpool.asleep (show w ∈ l.pool.workers by simp [hw])
  have hnone := h.pool.woken hstop hpool.notifyAll_eq
  rcases hasleep with rfl | rfl
  · exact absurd hnone (by simp [hw])
  · exact ⟨hpool.notifyAll_eq, hw⟩

end NodeLinker
end ImdbD.DTXN
