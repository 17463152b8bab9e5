import ImdbD.Lists
import ImdbD.NodeLinker

/-!
# A coordinator and its nodes

The coordinator has a linker for each node, each with its own queue, thread and
connection. Requests go to a node by its number. The destructor deletes the
linkers one after the other, and waits for the thread of each.
-/
namespace ImdbD.DTXN
open ByteMemory GuardedRun

/-- `deleting` is the number of the linker at which the destructor is, once it has begun. -/
structure BaseCoordinatorService where
  linkers : List NodeLinker
  deleting : Option ℕ

/-- `close` and `join` are the destructor's, at the linker that it deletes; `inside` is what goes on at
a node. -/
inductive CoordinatorEvent where
  | addNodeLinker
  | request (node_no : ℕ) (data : Bytes)
  | delete
  | close
  | join
  | inside (node_no : ℕ) (event : LinkerEvent)
  deriving DecidableEq

namespace CoordinatorEvent

def due : CoordinatorEvent → Bool
  | addNodeLinker | request _ _ | delete => false
  | inside _ event => event.due
  | _ => true

/-- How many further events an event brings, and itself. -/
def brings : CoordinatorEvent → ℕ
  | addNodeLinker => 8
  | request _ data => 4 * data.length + 8
  | delete => 1
  | inside _ event => event.brings
  | _ => 0

/-- The request that a node gets. -/
def requestTo (node_no : ℕ) : CoordinatorEvent → Option Bytes
  | request node data => if node = node_no then some data else none
  | _ => none

end CoordinatorEvent

/-- What a node does by itself. -/
def LinkerEvent.own : LinkerEvent → Bool
  | .submitTask _ | .close => false
  | _ => true

namespace BaseCoordinatorService

/-- The constructor, with a list of that many nodes. -/
def init (nodes : ℕ) : BaseCoordinatorService :=
  ⟨(List.range nodes).map NodeLinker.connect, none⟩

/-- An event at one linker. There is none beyond the last. -/
def atLinker (c : BaseCoordinatorService) (node_no : ℕ) (event : LinkerEvent) :
    Option BaseCoordinatorService :=
  match c.linkers[node_no]? with
  | some l => (l.step event).map (fun l' => { c with linkers := c.linkers.set node_no l' })
  | none => none

/-- One event. Nobody calls a coordinator that is being deleted, nor deletes it during a call. -/
def step (c : BaseCoordinatorService) : CoordinatorEvent → Option BaseCoordinatorService
  | .addNodeLinker =>
    if c.deleting = none then
      some { c with linkers := c.linkers ++ [NodeLinker.connect c.linkers.length] }
    else none
  | .request node_no data =>
    if c.deleting = none then c.atLinker node_no (.submitTask data) else none
  | .delete =>
    if c.deleting = none ∧ ∀ l ∈ c.linkers, l.pool.notifies = 0 then some { c with deleting := some 0 }
    else none
  | .close =>
    match c.deleting with
    | some i => c.atLinker i .close
    | none => none
  | .join =>
    match c.deleting with
    | some i =>
      match c.linkers[i]? with
      | some l =>
        if l.pool.workers = [.returned] ∧ l.pool.notifyAll = false then
          some { c with deleting := some (i + 1) }
        else none
      | none => none
    | none => none
  | .inside node_no event => if event.own then c.atLinker node_no event else none

variable {c c' : BaseCoordinatorService} {event : CoordinatorEvent}

/-- One linker moves. -/
structure Moves (c : BaseCoordinatorService) (node_no : ℕ) (event : LinkerEvent)
    (c' : BaseCoordinatorService) (l l' : NodeLinker) : Prop where
  found : c.linkers[node_no]? = some l
  moves : l.Moves event l'
  result : c' = { c with linkers := c.linkers.set node_no l' }

theorem moves_of_atLinker {node_no : ℕ} {event : LinkerEvent}
    (h : c.atLinker node_no event = some c') : ∃ l l', c.Moves node_no event c' l l' := by
  simp only [atLinker] at h
  split at h
  · rename_i l hl
    obtain ⟨l', hstep, rfl⟩ := Option.map_eq_some_iff.mp h
    exact ⟨l, l', hl, NodeLinker.moves_of_step hstep, rfl⟩
  · cases h

theorem Moves.getElem? {node_no : ℕ} {event : LinkerEvent} {l l' : NodeLinker}
    (h : c.Moves node_no event c' l l') (i : ℕ) :
    c'.linkers[i]? = if node_no = i then some l' else c.linkers[i]? := by
  rw [h.result]
  obtain ⟨hlt, -⟩ := List.getElem?_eq_some_iff.mp h.found
  simp [List.getElem?_set, hlt]

/-- An event with what it does: at most one linker moves. -/
inductive Steps (c : BaseCoordinatorService) : CoordinatorEvent → BaseCoordinatorService → Prop
  | addNodeLinker (halive : c.deleting = none) : Steps c .addNodeLinker
      { c with linkers := c.linkers ++ [NodeLinker.connect c.linkers.length] }
  | request {node_no : ℕ} {data : Bytes} {c' : BaseCoordinatorService} {l l' : NodeLinker}
      (hm : c.Moves node_no (.submitTask data) c' l l') : Steps c (.request node_no data) c'
  | delete (halive : c.deleting = none) : Steps c .delete { c with deleting := some 0 }
  | close {node_no : ℕ} {c' : BaseCoordinatorService} {l l' : NodeLinker}
      (hm : c.Moves node_no .close c' l l') : Steps c .close c'
  | join {i : ℕ} {l : NodeLinker} (hi : c.deleting = some i) (hl : c.linkers[i]? = some l)
      (hreturned : l.pool.workers = [.returned]) : Steps c .join { c with deleting := some (i + 1) }
  | inside {node_no : ℕ} {event : LinkerEvent} {c' : BaseCoordinatorService} {l l' : NodeLinker}
      (hown : event.own = true) (hm : c.Moves node_no event c' l l') : Steps c (.inside node_no event) c'

theorem steps_of_step (hstep : c.step event = some c') : c.Steps event c' := by
  cases event with
  | addNodeLinker =>
    simp only [step] at hstep
    split at hstep <;> cases hstep
    exact .addNodeLinker ‹_›
  | request node_no data =>
    simp only [step] at hstep
    split at hstep
    · obtain ⟨l, l', hm⟩ := moves_of_atLinker hstep
      exact .request hm
    · cases hstep
  | delete =>
    simp only [step] at hstep
    split at hstep <;> cases hstep
    rename_i halive
    exact .delete halive.1
  | close =>
    simp only [step] at hstep
    split at hstep
    · obtain ⟨l, l', hm⟩ := moves_of_atLinker hstep
      exact .close hm
    · cases hstep
  | join =>
    simp only [step] at hstep
    split at hstep <;> try cases hstep
    rename_i i hi
    split at hstep <;> try cases hstep
    rename_i l hl
    split at hstep <;> cases hstep
    rename_i hjoin
    exact .join hi hl hjoin.1
  | inside node_no event =>
    simp only [step] at hstep
    split at hstep
    · obtain ⟨l, l', hm⟩ := moves_of_atLinker hstep
      exact .inside ‹_› hm
    · cases hstep

/-- Every linker is sound and has its place for a number; those that are deleted are stopped. -/
structure Sound (c : BaseCoordinatorService) : Prop where
  linkers : ∀ (i : ℕ) (l : NodeLinker), c.linkers[i]? = some l → l.Sound ∧ l.worker_id = i
  deleted : ∀ i, c.deleting = some i → i ≤ c.linkers.length ∧
    ∀ (j : ℕ) (l : NodeLinker), j < i → c.linkers[j]? = some l → l.pool.stop = true

theorem sound_init (nodes : ℕ) : (init nodes).Sound where
  linkers i l hl := by
    simp only [init, List.getElem?_map, Option.map_eq_some_iff] at hl
    obtain ⟨j, hj, rfl⟩ := hl
    obtain ⟨hlt, hget⟩ := List.getElem?_eq_some_iff.mp hj
    rw [List.getElem_range] at hget
    exact ⟨NodeLinker.sound_connect j, hget.symm⟩
  deleted i hi := by cases hi

theorem Sound.moves (h : c.Sound) {node_no : ℕ} {event : LinkerEvent} {l l' : NodeLinker}
    (hm : c.Moves node_no event c' l l') (hne : event ≠ .submitTask []) : c'.Sound where
  linkers i m hi := by
    rw [hm.getElem?] at hi
    split at hi
    · cases hi
      rename_i he
      subst he
      obtain ⟨hsound, hid⟩ := h.linkers node_no l hm.found
      exact ⟨hsound.moves hne hm.moves, (NodeLinker.frame_moves hm.moves).worker_id.trans hid⟩
    · exact h.linkers i m hi
  deleted i hi := by
    rw [hm.result] at hi
    obtain ⟨hle, hstopped⟩ := h.deleted i hi
    refine ⟨by simpa [hm.result] using hle, fun j m hj hget => ?_⟩
    rw [hm.getElem?] at hget
    split at hget
    · cases hget
      rename_i he
      subst he
      have hstop := hstopped node_no l hj hm.found
      by_cases hclose : event = .close
      · subst hclose
        exact (NodeLinker.stop_close hm.moves).2
      · rw [(NodeLinker.frame_moves hm.moves).stop hclose, hstop]
    · exact hstopped j m hj hget

theorem Sound.steps (h : c.Sound) (hne : ∀ node_no, event ≠ .request node_no [])
    (hs : c.Steps event c') : c'.Sound := by
  cases hs with
  | addNodeLinker halive =>
    refine ⟨fun i l hl => ?_, fun i hi => ?_⟩
    · rcases Nat.lt_trichotomy i c.linkers.length with hlt | rfl | hgt
      · rw [List.getElem?_append_left hlt] at hl
        exact h.linkers i l hl
      · rw [List.getElem?_concat_length] at hl
        cases hl
        exact ⟨NodeLinker.sound_connect _, rfl⟩
      · rw [List.getElem?_eq_none (by simp; omega)] at hl
        cases hl
    · cases halive.symm.trans hi
  | @request node_no data _ _ _ hm =>
    refine h.moves hm (fun he => hne node_no ?_)
    cases he
    rfl
  | delete halive =>
    refine ⟨h.linkers, fun i hi => ?_⟩
    cases hi
    exact ⟨Nat.zero_le _, fun j l hj => absurd hj (Nat.not_lt_zero j)⟩
  | close hm => exact h.moves hm (by simp)
  | @join i l hi hl hreturned =>
    refine ⟨h.linkers, fun k hk => ?_⟩
    cases hk
    obtain ⟨hlt, -⟩ := List.getElem?_eq_some_iff.mp hl
    refine ⟨hlt, fun j m hj hm => ?_⟩
    rcases Nat.lt_succ_iff_lt_or_eq.mp hj with hlt | rfl
    · exact (h.deleted i hi).2 j m hlt hm
    · cases hl.symm.trans hm
      exact ((h.linkers j l hl).1.pool.drained (by simp [hreturned])).1
  | inside hown hm =>
    refine h.moves hm (fun he => ?_)
    rw [he] at hown
    cases hown

/-- The requests handed to a node so far. -/
def submitted (c : BaseCoordinatorService) (node_no : ℕ) : List Bytes :=
  (c.linkers[node_no]?).elim [] (fun l => l.link.submitted)

theorem Moves.submitted {node_no : ℕ} {event : LinkerEvent} {l l' : NodeLinker}
    (h : c.Moves node_no event c' l l') (i : ℕ) : c'.submitted i =
      c.submitted i ++ if node_no = i then event.request?.toList else [] := by
  rw [BaseCoordinatorService.submitted, h.getElem?]
  split
  · rename_i he
    subst he
    rw [BaseCoordinatorService.submitted, h.found]
    exact (NodeLinker.frame_moves h.moves).submitted
  · exact (List.append_nil _).symm

private theorem submitted_steps (hs : c.Steps event c') (i : ℕ) :
    c'.submitted i = c.submitted i ++ (event.requestTo i).toList := by
  cases hs with
  | addNodeLinker halive =>
    simp only [submitted, CoordinatorEvent.requestTo, Option.toList_none, List.append_nil]
    rcases Nat.lt_trichotomy i c.linkers.length with hlt | rfl | hgt
    · rw [List.getElem?_append_left hlt]
    · rw [List.getElem?_concat_length, List.getElem?_eq_none (Nat.le_refl _)]
      rfl
    · rw [List.getElem?_eq_none (by simp; omega), List.getElem?_eq_none (by omega)]
  | request hm =>
    rw [hm.submitted]
    simp only [CoordinatorEvent.requestTo]
    split <;> rfl
  | delete halive => exact (List.append_nil _).symm
  | close hm =>
    rw [hm.submitted]
    simp [CoordinatorEvent.requestTo, LinkerEvent.request?]
  | join hi hl hreturned => exact (List.append_nil _).symm
  | @inside _ event _ _ _ hown hm =>
    rw [hm.submitted]
    cases event with
    | submitTask request => cases hown
    | _ => simp [CoordinatorEvent.requestTo, LinkerEvent.request?]

private theorem submitted_run {nodes : ℕ} {events : List CoordinatorEvent}
    (hrun : run step (init nodes) events = some c) (i : ℕ) :
    c.submitted i = events.filterMap (CoordinatorEvent.requestTo i) := by
  have hone : ∀ {d : BaseCoordinatorService} {o d'}, step d o = some d' →
      d'.submitted i = d.submitted i ++ (o.requestTo i).toList :=
    fun hstep => submitted_steps (steps_of_step hstep) i
  have hnone : (init nodes).submitted i = [] := by
    rw [submitted, init, List.getElem?_map]
    cases (List.range nodes)[i]? <;> rfl
  rw [run_logs @hone hrun, hnone, List.nil_append]

/-- What is due at a linker, with its end. -/
def weight (l : NodeLinker) : ℕ := l.toRest + if l.pool.stop then 0 else 4

def toRest (c : BaseCoordinatorService) : ℕ :=
  (c.linkers.map weight).sum + (c.linkers.length - c.deleting.getD 0)

private theorem weight_moves {l l' : NodeLinker} {event : LinkerEvent} (h : l.Sound)
    (hne : event ≠ .close) (hm : l.Moves event l') :
    weight l' + 1 ≤ weight l + event.brings := by
  have hrest := NodeLinker.toRest_moves h hm
  rw [weight, weight, (NodeLinker.frame_moves hm).stop hne]
  omega

private theorem weight_close {l l' : NodeLinker} (h : l.Sound) (hm : l.Moves .close l') :
    weight l' + 1 ≤ weight l := by
  have hrest := NodeLinker.toRest_moves h hm
  obtain ⟨hopen, hstop⟩ := NodeLinker.stop_close hm
  simp only [weight, hopen, hstop, LinkerEvent.brings, if_true, Bool.false_eq_true, if_false] at hrest ⊢
  omega

theorem Moves.toRest_le {node_no n : ℕ} {event : LinkerEvent} {l l' : NodeLinker}
    (h : c.Moves node_no event c' l l') (hweight : weight l' + 1 ≤ weight l + n) :
    c'.toRest + 1 ≤ c.toRest + n := by
  have hsum := Lists.sum_map_set weight h.found l'
  simp only [toRest, h.result, List.length_set]
  omega

private theorem toRest_steps (h : c.Sound) (hs : c.Steps event c') :
    c'.toRest + 1 ≤ c.toRest + event.brings := by
  cases hs with
  | addNodeLinker halive =>
    have hnew : weight (NodeLinker.connect c.linkers.length) = 6 := rfl
    simp only [toRest, halive, List.map_append, List.sum_append, List.map_singleton, List.sum_singleton,
      List.length_append, List.length_singleton, Option.getD_none, hnew, CoordinatorEvent.brings]
    omega
  | request hm => exact hm.toRest_le (weight_moves (h.linkers _ _ hm.found).1 (by simp) hm.moves)
  | delete halive => simp [toRest, halive, CoordinatorEvent.brings]
  | close hm => exact hm.toRest_le (weight_close (h.linkers _ _ hm.found).1 hm.moves)
  | join hi hl hreturned =>
    obtain ⟨hlt, -⟩ := List.getElem?_eq_some_iff.mp hl
    simp only [toRest, hi, Option.getD_some]
    omega
  | inside hown hm =>
    refine hm.toRest_le (weight_moves (h.linkers _ _ hm.found).1 (fun he => ?_) hm.moves)
    rw [he] at hown
    cases hown

private theorem toRest_init (nodes : ℕ) : (init nodes).toRest = 7 * nodes := by
  have hweight : weight ∘ NodeLinker.connect = fun _ => 6 := rfl
  simp only [toRest, init, List.map_map, hweight, List.map_const', List.sum_replicate_nat,
    List.length_map, List.length_range, Option.getD_none]
  omega

/-- Nothing is due. -/
def Quiet (c : BaseCoordinatorService) : Prop := ∀ event c', c.step event = some c' → event.due = false

theorem Quiet.linker (hq : c.Quiet) {i : ℕ} {l : NodeLinker} (hl : c.linkers[i]? = some l) :
    l.Quiet := by
  intro event l' hstep
  by_contra hdue
  rw [Bool.not_eq_false] at hdue
  have hown : event.own = true := by cases event <;> first | rfl | cases hdue
  have hinside : c.step (.inside i event) = some { c with linkers := c.linkers.set i l' } := by
    simp [step, hown, atLinker, hl, hstep]
  exact absurd (hq _ _ hinside) (by simp [CoordinatorEvent.due, hdue])

/-- Nothing is due with quiet linkers, and the destructor, if it was called, behind the last. -/
theorem quiet_of_linkers (hl : ∀ l ∈ c.linkers, l.Quiet)
    (hd : ∀ i, c.deleting = some i → c.linkers.length ≤ i) : c.Quiet := by
  intro event c' hstep
  cases event with
  | addNodeLinker | request | delete => rfl
  | close =>
    simp only [step] at hstep
    split at hstep
    · rename_i i hi
      rw [atLinker, List.getElem?_eq_none (hd i hi)] at hstep
      cases hstep
    · cases hstep
  | join =>
    simp only [step] at hstep
    split at hstep
    · rename_i i hi
      rw [List.getElem?_eq_none (hd i hi)] at hstep
      cases hstep
    · cases hstep
  | inside node_no event =>
    simp only [step, atLinker] at hstep
    split at hstep
    · split at hstep
      · rename_i l hget
        obtain ⟨l', hlinker, -⟩ := Option.map_eq_some_iff.mp hstep
        exact hl l (List.mem_of_getElem? hget) event l' hlinker
      · cases hstep
    · cases hstep

/-- A destructor that has begun comes behind the last linker. -/
theorem Quiet.deleted (hq : c.Quiet) (h : c.Sound) {i : ℕ} (hi : c.deleting = some i) :
    i = c.linkers.length := by
  refine Nat.le_antisymm (h.deleted i hi).1 (Nat.le_of_not_lt (fun hlt => ?_))
  have hl : c.linkers[i]? = some c.linkers[i] := List.getElem?_eq_getElem hlt
  cases hstop : c.linkers[i].pool.stop with
  | false =>
    obtain ⟨l', hclose⟩ := Option.isSome_iff_exists.mp (NodeLinker.close_isSome hstop)
    have hstep : c.step .close = some { c with linkers := c.linkers.set i l' } := by
      simp [step, hi, atLinker, hl, hclose]
    cases hq _ _ hstep
  | true =>
    obtain ⟨-, -, hjoin⟩ := (hq.linker hl).served (h.linkers i _ hl).1
    obtain ⟨hall, hreturned⟩ := hjoin hstop
    have hstep : c.step .join = some { c with deleting := some (i + 1) } := by
      simp [step, hi, hl, hall, hreturned]
    cases hq _ _ hstep

/-- However its nodes and their connections interleave: a coordinator comes to rest after boundedly
many events; a node is written its own requests, in their order, and what came back of them is in the
replies or on its way; at rest each request has a reply, and the destructor, if it was called, has
joined every thread. -/
theorem coordinator_serves {nodes : ℕ} {events : List CoordinatorEvent}
    (hne : ∀ event ∈ events, ∀ node_no, event ≠ .request node_no [])
    (hrun : run step (init nodes) events = some c) :
    events.length + c.toRest ≤ 7 * nodes + (events.map CoordinatorEvent.brings).sum ∧
    (∀ (i : ℕ) (l : NodeLinker), c.linkers[i]? = some l → l.worker_id = i ∧
      ∃ written unwritten, events.filterMap (CoordinatorEvent.requestTo i) = written ++ unwritten ∧
        l.link.replies.flatten ++ l.link.inFlight = written.flatten ∧
        l.link.replies.length ≤ written.length ∧ written.length ≤ l.link.replies.length + 1) ∧
    (c.Quiet →
      (∀ (i : ℕ) (l : NodeLinker), c.linkers[i]? = some l →
        l.link.replies.length = (events.filterMap (CoordinatorEvent.requestTo i)).length ∧
        l.link.replies.flatten ++ l.link.toLinker =
          (events.filterMap (CoordinatorEvent.requestTo i)).flatten) ∧
      ∀ i, c.deleting = some i → i = c.linkers.length ∧
        ∀ l ∈ c.linkers, l.pool.workers = [.returned]) := by
  have hsound : c.Sound := run_keeps (fun h hne hstep => h.steps hne (steps_of_step hstep))
    (sound_init nodes) hne hrun
  have hsubmitted : ∀ (i : ℕ) (l : NodeLinker), c.linkers[i]? = some l →
      l.link.submitted = events.filterMap (CoordinatorEvent.requestTo i) := by
    intro i l hl
    rw [← submitted_run hrun, submitted, hl]
    rfl
  refine ⟨?_, fun i l hl => ⟨(hsound.linkers i l hl).2, ?_⟩, fun hq => ⟨fun i l hl => ?_, ?_⟩⟩
  · rw [← toRest_init]
    exact length_add_le (fun h hne hstep => Sound.steps h hne (steps_of_step hstep))
      (fun h _ hstep => toRest_steps h (steps_of_step hstep)) (sound_init nodes) hne hrun
  · obtain ⟨served, hserved⟩ := (hsound.linkers i l hl).1.link
    rw [← hsubmitted i l hl]
    exact hserved.written
  · obtain ⟨hcount, hbytes, -⟩ := (hq.linker hl).served (hsound.linkers i l hl).1
    rw [← hsubmitted i l hl]
    exact ⟨hcount, hbytes⟩
  · intro i hi
    obtain rfl := hq.deleted hsound hi
    refine ⟨rfl, fun l hmem => ?_⟩
    obtain ⟨j, hlt, rfl⟩ := List.getElem_of_mem hmem
    have hl : c.linkers[j]? = some c.linkers[j] := List.getElem?_eq_getElem hlt
    obtain ⟨-, -, hjoin⟩ := (hq.linker hl).served (hsound.linkers j _ hl).1
    exact (hjoin ((hsound.deleted _ hi).2 j _ hlt hl)).2

/-- Two nodes, of which the second one is added and gets a request; the destructor deletes both. -/
def deletedRun : List CoordinatorEvent :=
  [.addNodeLinker, .inside 0 .look, .request 1 [1, 2], .inside 1 .notifyNobody, .delete, .inside 1 .look,
    .close, .inside 1 .write, .inside 0 .notifyAll, .inside 1 .accept, .inside 0 .look, .join,
    .inside 1 (.doRead 2), .inside 1 .doWrite, .close, .inside 1 (.readSome 2), .inside 1 .look,
    .inside 1 .notifyAll, .join, .inside 0 .accept]

/-- The end of the run: both threads have returned. -/
def deletedEnd : BaseCoordinatorService where
  linkers := [
    ⟨0, ⟨[.returned], [], true, 0, false, [], [], []⟩, .connected, true⟩,
    ⟨1, ⟨[.returned], [], true, 0, false, [[1, 2]], [[1, 2]], [[1, 2]]⟩,
      ⟨[[1, 2]], [], .idle, [], none, [], [[1, 2]]⟩, true⟩]
  deleting := some 2

private theorem quiet_deletedEnd : deletedEnd.Quiet :=
  quiet_of_linkers
    (List.forall_mem_cons.mpr ⟨NodeLinker.quiet_of_returned rfl ⟨rfl, rfl⟩ ⟨rfl, rfl, rfl⟩ rfl,
      List.forall_mem_singleton.mpr
        (NodeLinker.quiet_of_returned rfl ⟨rfl, rfl⟩ ⟨rfl, rfl, rfl⟩ rfl)⟩)
    (fun _ hi => (Option.some.inj hi).le)

theorem coordinator_serves_deleted : run step (init 1) deletedRun = some deletedEnd ∧
    deletedEnd.Quiet ∧
    (∀ (i : ℕ) (l : NodeLinker), deletedEnd.linkers[i]? = some l →
      l.link.replies.flatten ++ l.link.toLinker =
        (deletedRun.filterMap (CoordinatorEvent.requestTo i)).flatten) ∧
    ∀ l ∈ deletedEnd.linkers, l.pool.workers = [.returned] := by
  have hrun : run step (init 1) deletedRun = some deletedEnd := rfl
  have hne : ∀ event ∈ deletedRun, ∀ node_no, event ≠ .request node_no [] := by
    simp [deletedRun]
  obtain ⟨-, -, hrest⟩ := coordinator_serves hne hrun
  obtain ⟨hreplies, hjoined⟩ := hrest quiet_deletedEnd
  exact ⟨hrun, quiet_deletedEnd, fun i l hl => (hreplies i l hl).2, (hjoined 2 rfl).2⟩

end BaseCoordinatorService
end ImdbD.DTXN
