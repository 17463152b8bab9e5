import ImdbD.ByteMemory
import ImdbD.GuardedRun

/-!
# A node linker and its echo session

The linker's thread takes one task after the other, writes the request to the
socket and takes the bytes of one read as the reply. The session at the other
end sends back what it reads. A stream keeps its bytes in order; a write sends
all, a read returns any part of what has arrived that fits its buffer.
-/
namespace ImdbD.DTXN
open ByteMemory GuardedRun

/-- The size of the buffers at both ends. -/
def max_length : ℕ := 1024

/-- Where the linker's thread stands. -/
inductive LinkerThread where
  | idle
  | writing (request : Bytes)
  | reading (request : Bytes)
  deriving DecidableEq

/-- `replies` are those of the completed futures, in the order in which they were handed out. -/
structure EchoLink where
  submitted : List Bytes
  tasks : List Bytes
  thread : LinkerThread
  toSession : Bytes
  /-- What the session is to write, if it is not reading. -/
  data : Option Bytes
  toLinker : Bytes
  replies : List Bytes
  deriving DecidableEq

inductive LinkEvent where
  | submitTask (request : Bytes)
  | popTask
  | write
  | readSome (length : ℕ)
  | doRead (length : ℕ)
  | doWrite
  deriving DecidableEq

namespace EchoLink

def connected : EchoLink := ⟨[], [], .idle, [], none, [], []⟩

/-- What one of the parties does next. The lengths of the reads are up to the stream. -/
def step (s : EchoLink) : LinkEvent → Option EchoLink
  | .submitTask request =>
    some { s with submitted := s.submitted ++ [request], tasks := s.tasks ++ [request] }
  | .popTask =>
    match s.thread, s.tasks with
    | .idle, request :: rest => some { s with thread := .writing request, tasks := rest }
    | _, _ => none
  | .write =>
    match s.thread with
    | .writing request =>
      some { s with thread := .reading request, toSession := s.toSession ++ request }
    | _ => none
  | .readSome length =>
    match s.thread with
    | .reading _ =>
      if 1 ≤ length ∧ length ≤ max_length ∧ length ≤ s.toLinker.length then
        some { s with
          thread := .idle
          toLinker := s.toLinker.drop length
          replies := s.replies ++ [s.toLinker.take length] }
      else none
    | _ => none
  | .doRead length =>
    match s.data with
    | none =>
      if 1 ≤ length ∧ length ≤ max_length ∧ length ≤ s.toSession.length then
        some { s with data := some (s.toSession.take length), toSession := s.toSession.drop length }
      else none
    | some _ => none
  | .doWrite =>
    match s.data with
    | some data => some { s with data := none, toLinker := s.toLinker ++ data }
    | none => none

/-- An event that the parties and the stream allow, with requests that are not empty. -/
def Allowed (s : EchoLink) (event : LinkEvent) : Prop :=
  (s.step event).isSome ∧ event ≠ .submitTask []

instance (s : EchoLink) (event : LinkEvent) : Decidable (s.Allowed event) :=
  inferInstanceAs (Decidable ((s.step event).isSome ∧ event ≠ .submitTask []))

/-- Nobody has anything left to do. -/
def Quiet (s : EchoLink) : Prop :=
  ∀ event s', s.step event = some s' → ∃ request, event = .submitTask request

/-- Every future that is completed has the bytes of its own request, and at rest all of them are. -/
structure Matched (s : EchoLink) : Prop where
  replies : s.replies <+: s.submitted
  complete : s.Quiet → s.replies = s.submitted

/-- The reply is read in one piece: as many bytes as the request has. -/
def ReadsWhole (s : EchoLink) (event : LinkEvent) : Prop :=
  match event, s.thread with
  | .readSome length, .reading request => length = request.length
  | _, _ => True

instance (s : EchoLink) (event : LinkEvent) : Decidable (s.ReadsWhole event) := by
  unfold ReadsWhole
  split <;> infer_instance

/-- The request that is being served. -/
def current : LinkerThread → List Bytes
  | .idle => []
  | .writing request | .reading request => [request]

/-- The bytes that are between the two ends. -/
def inFlight (s : EchoLink) : Bytes := s.toLinker ++ s.data.getD [] ++ s.toSession

/-- What holds as long as every reply was read in one piece. -/
structure InStep (s : EchoLink) : Prop where
  order : s.submitted = s.replies ++ current s.thread ++ s.tasks
  nonempty : ∀ request ∈ s.submitted, request ≠ []
  flight : s.inFlight = match s.thread with
    | .reading request => request
    | _ => []

variable {s s' : EchoLink} {event : LinkEvent}

private theorem inStep_connected : connected.InStep where
  order := rfl
  nonempty := by simp [connected]
  flight := rfl

theorem InStep.quiet (h : s.InStep) (hq : s.Quiet) : s.replies = s.submitted := by
  obtain ⟨submitted, tasks, thread, toSession, data, toLinker, replies⟩ := s
  have horder := h.order
  cases thread with
  | idle =>
    cases tasks with
    | nil => simpa [current] using horder.symm
    | cons request rest =>
      obtain ⟨_, he⟩ := hq .popTask _ rfl
      cases he
  | writing request =>
    obtain ⟨_, he⟩ := hq .write _ rfl
    cases he
  | reading request =>
    have hne := h.nonempty request (by rw [horder]; simp [current])
    have hflight := h.flight
    cases data with
    | some data =>
      obtain ⟨_, he⟩ := hq .doWrite _ rfl
      cases he
    | none =>
      cases toLinker with
      | cons b rest =>
        obtain ⟨_, he⟩ := hq (.readSome 1) _ (by simp [step, max_length]; rfl)
        cases he
      | nil =>
        cases toSession with
        | cons b rest =>
          obtain ⟨_, he⟩ := hq (.doRead 1) _ (by simp [step, max_length]; rfl)
          cases he
        | nil => exact absurd hflight.symm hne

private theorem InStep.matched (h : s.InStep) : s.Matched where
  replies := by
    rw [h.order, List.append_assoc]
    exact List.prefix_append _ _
  complete := h.quiet

theorem InStep.submitTask (h : s.InStep) {request : Bytes} (hne : request ≠ []) :
    ({ s with submitted := s.submitted ++ [request], tasks := s.tasks ++ [request] } :
      EchoLink).InStep where
  order := by simp [h.order]
  nonempty r hr := by
    rcases List.mem_append.mp hr with hr | hr
    · exact h.nonempty r hr
    · exact List.mem_singleton.mp hr ▸ hne
  flight := h.flight

/-- Once as many bytes have come back as were sent, they are those that were sent. -/
theorem InStep.arrived (h : s.InStep) {request : Bytes} (hthread : s.thread = .reading request)
    (hlength : request.length ≤ s.toLinker.length) :
    s.toLinker = request ∧ s.data.getD [] = [] ∧ s.toSession = [] := by
  have hflight := h.flight
  simp only [hthread, inFlight, List.append_assoc] at hflight
  have hsum := congrArg List.length hflight
  rw [List.length_append] at hsum
  have hrest : s.data.getD [] ++ s.toSession = [] := List.eq_nil_of_length_eq_zero (by omega)
  rw [hrest, List.append_nil] at hflight
  exact ⟨hflight, List.append_eq_nil_iff.mp hrest⟩

/-- The reply to a request is right exactly when it is as long as the request. -/
theorem InStep.readSome_iff (h : s.InStep) {request : Bytes} {length : ℕ}
    (hthread : s.thread = .reading request) (hlength : length ≤ s.toLinker.length) :
    s.replies ++ [s.toLinker.take length] <+: s.submitted ↔ length = request.length := by
  rw [h.order, hthread, List.append_assoc, List.prefix_append_right_inj, current]
  constructor
  · intro hp
    have he : s.toLinker.take length = request := by simpa using hp
    rw [← he, List.length_take, Nat.min_eq_left hlength]
  · rintro rfl
    obtain ⟨harrived, -⟩ := h.arrived hthread hlength
    simp [harrived]

theorem InStep.step (h : s.InStep) (ha : s.Allowed event) (hw : s.ReadsWhole event) :
    ∃ s', s.step event = some s' ∧ s'.InStep := by
  obtain ⟨submitted, tasks, thread, toSession, data, toLinker, replies⟩ := s
  obtain ⟨hsome, hne⟩ := ha
  obtain ⟨s', hstep⟩ := Option.isSome_iff_exists.mp hsome
  refine ⟨s', hstep, ?_⟩
  have horder := h.order
  have hflight := h.flight
  simp only [inFlight] at hflight
  cases event with
  | submitTask request =>
    cases hstep
    exact h.submitTask (fun he => hne (by rw [he]))
  | popTask =>
    simp only [EchoLink.step] at hstep
    split at hstep <;> cases hstep
    exact ⟨by simpa [current] using horder, h.nonempty, hflight⟩
  | write =>
    simp only [EchoLink.step] at hstep
    split at hstep <;> cases hstep
    refine ⟨horder, h.nonempty, ?_⟩
    simp only [List.append_eq_nil_iff] at hflight
    simp [inFlight, hflight]
  | readSome length =>
    simp only [EchoLink.step] at hstep
    split at hstep <;> try cases hstep
    split at hstep <;> cases hstep
    rename_i request hlength
    obtain rfl : length = request.length := hw
    obtain ⟨harrived, hdata, hsession⟩ := h.arrived rfl hlength.2.2
    simp only at harrived hdata hsession
    subst harrived hsession
    exact ⟨by simpa [current] using horder, h.nonempty, by simp [inFlight, hdata]⟩
  | doRead length =>
    simp only [EchoLink.step] at hstep
    split at hstep <;> try cases hstep
    split at hstep <;> cases hstep
    refine ⟨horder, h.nonempty, ?_⟩
    simpa [inFlight] using hflight
  | doWrite =>
    simp only [EchoLink.step] at hstep
    split at hstep <;> cases hstep
    exact ⟨horder, h.nonempty, by simpa [inFlight] using hflight⟩

/-- In every run the futures are completed with the bytes of their requests, and all of them at
rest, if and only if every reply was read in one piece. -/
theorem matched_iff_readsWhole {events : List LinkEvent}
    (hallowed : Meets step Allowed connected events) :
    Holds step (fun _ _ s' => s'.Matched) connected events ↔
      Meets step ReadsWhole connected events := by
  refine holds_iff_meets (I := InStep) ?_ ?_ inStep_connected hallowed
  · intro s event h ha hw
    obtain ⟨s', hstep, hs'⟩ := h.step ha hw
    exact ⟨s', hstep, hs'.matched, hs'⟩
  · intro s event s' h ha hstep hmatched
    unfold ReadsWhole
    split
    · rename_i length request hthread
      simp only [EchoLink.step, hthread] at hstep
      split at hstep <;> cases hstep
      rename_i hlength
      exact (h.readSome_iff hthread hlength.2.2).mp hmatched.replies
    · trivial

theorem matched_wholeReply :
    Holds step (fun _ _ s' => s'.Matched) connected
      [.submitTask [1, 2], .popTask, .write, .doRead 2, .doWrite, .readSome 2] :=
  (matched_iff_readsWhole (by decide)).mpr (by decide)

/-- A reply of which only the first byte is read. -/
theorem partialReply_not_matched : ¬ (∀ events, Meets step Allowed connected events →
    Holds step (fun _ _ s' => s'.Matched) connected events) := by
  intro h
  have hread : Holds step (fun _ _ s' => s'.Matched) connected
      ([.submitTask [1, 2], .popTask, .write, .doRead 2, .doWrite] ++ [.readSome 1]) :=
    h _ (by decide)
  obtain ⟨s, s', -, hrun, hmatched⟩ := hread.last
  cases hrun
  exact absurd hmatched.replies (by decide)

/-- A bound on the events before the next request. -/
def remaining (s : EchoLink) : ℕ :=
  (s.tasks.map (fun request => 4 * request.length + 3)).sum +
    (match s.thread with
      | .idle => 0
      | .writing request => 4 * request.length + 2
      | .reading _ => 1) +
    4 * s.toSession.length + s.data.elim 0 (fun data => 2 * data.length + 1) + s.toLinker.length

theorem remaining_step (h : s.step event = some s') (hne : ∀ request, event ≠ .submitTask request) :
    s'.remaining < s.remaining := by
  obtain ⟨submitted, tasks, thread, toSession, data, toLinker, replies⟩ := s
  cases event with
  | submitTask request => exact absurd rfl (hne request)
  | popTask =>
    simp only [EchoLink.step] at h
    split at h <;> cases h
    simp only [remaining, List.map_cons, List.sum_cons]
    omega
  | write =>
    simp only [EchoLink.step] at h
    split at h <;> cases h
    simp only [remaining, List.length_append]
    omega
  | readSome length =>
    simp only [EchoLink.step] at h
    split at h <;> try cases h
    split at h <;> cases h
    simp only [remaining, List.length_drop]
    omega
  | doRead length =>
    simp only [EchoLink.step] at h
    split at h <;> try cases h
    split at h <;> cases h
    simp only [remaining, List.length_drop, List.length_take, Option.elim_some, Option.elim_none]
    omega
  | doWrite =>
    simp only [EchoLink.step] at h
    split at h <;> cases h
    simp only [remaining, List.length_append, Option.elim_some, Option.elim_none]
    omega

/-- Without new requests every run ends. -/
theorem length_add_remaining_le {events : List LinkEvent} (h : run step s events = some s')
    (hne : ∀ event ∈ events, ∀ request, event ≠ .submitTask request) :
    events.length + s'.remaining ≤ s.remaining := by
  have hle : events.length + s'.remaining ≤ s.remaining + (events.map (fun _ => 0)).sum :=
    GuardedRun.length_add_le (I := fun _ => True) (fun _ _ _ => trivial)
      (fun {s event s'} _ hevent (hstep : step s event = some s') => remaining_step hstep hevent)
      trivial hne h
  simpa using hle

/-- The request of which the reply is being read. -/
def awaited : LinkerThread → List Bytes
  | .reading request => [request]
  | _ => []

/-- However the replies are cut: those that are served have one reply each, and what was written is
in the replies or on its way, in its order. -/
structure Carried (s : EchoLink) (served : List Bytes) : Prop where
  count : served.length = s.replies.length
  order : s.submitted = served ++ current s.thread ++ s.tasks
  bytes : s.replies.flatten ++ s.inFlight = served.flatten ++ (awaited s.thread).flatten
  nonempty : ∀ request ∈ s.submitted, request ≠ []
  /-- The linker never waits for a reply of which nothing can come. -/
  coming : ∀ request, s.thread = .reading request → s.inFlight ≠ []

theorem carried_connected : connected.Carried [] where
  count := rfl
  order := rfl
  bytes := rfl
  nonempty := by simp [connected]
  coming request h := by cases h

theorem Carried.step {served : List Bytes} (h : s.Carried served) (hstep : s.step event = some s')
    (hne : event ≠ .submitTask []) : ∃ served', s'.Carried served' := by
  obtain ⟨submitted, tasks, thread, toSession, data, toLinker, replies⟩ := s
  obtain ⟨hcount, horder, hbytes, hnonempty, hcoming⟩ := h
  simp only [inFlight] at hbytes hcoming
  dsimp only at hcount horder hnonempty
  cases event with
  | submitTask request =>
    cases hstep
    refine ⟨served, hcount, by simp [horder], hbytes, fun r hr => ?_, hcoming⟩
    rcases List.mem_append.mp hr with hr | hr
    · exact hnonempty r hr
    · exact List.mem_singleton.mp hr ▸ fun he => hne (by rw [he])
  | popTask =>
    simp only [EchoLink.step] at hstep
    split at hstep <;> cases hstep
    exact ⟨served, hcount, by simpa [current] using horder, hbytes, hnonempty,
      fun _ he => by cases he⟩
  | write =>
    simp only [EchoLink.step] at hstep
    split at hstep <;> cases hstep
    rename_i request
    have hrequest := hnonempty request (by simp [horder, current])
    refine ⟨served, hcount, horder, ?_, hnonempty, fun _ _ => ?_⟩
    · simpa [inFlight, awaited, ← List.append_assoc] using hbytes
    · simp [inFlight, hrequest]
  | readSome length =>
    simp only [EchoLink.step] at hstep
    split at hstep <;> try cases hstep
    split at hstep <;> cases hstep
    rename_i request hlength
    refine ⟨served ++ [request], by simp [hcount], by simpa [current] using horder, ?_, hnonempty,
      fun _ he => by cases he⟩
    calc (replies ++ [toLinker.take length]).flatten ++
          (toLinker.drop length ++ data.getD [] ++ toSession)
        = replies.flatten ++ (toLinker.take length ++ toLinker.drop length ++ data.getD [] ++
            toSession) := by simp only [List.flatten_append, List.flatten_singleton, List.append_assoc]
      _ = served.flatten ++ request := by
        rw [List.take_append_drop, hbytes]
        exact congrArg (served.flatten ++ ·) (List.append_nil request)
      _ = (served ++ [request]).flatten ++ [] := by simp
  | doRead length =>
    simp only [EchoLink.step] at hstep
    split at hstep <;> try cases hstep
    split at hstep <;> cases hstep
    refine ⟨served, hcount, horder, ?_, hnonempty, fun request he => ?_⟩
    · simpa [inFlight] using hbytes
    · simpa [inFlight] using hcoming request he
  | doWrite =>
    simp only [EchoLink.step] at hstep
    split at hstep <;> cases hstep
    refine ⟨served, hcount, horder, by simpa [inFlight] using hbytes, hnonempty, fun request he => ?_⟩
    simpa [inFlight] using hcoming request he

theorem Carried.run {events : List LinkEvent} {served : List Bytes} (h : s.Carried served)
    (hallowed : Meets EchoLink.step Allowed s events)
    (hrun : GuardedRun.run EchoLink.step s events = some s') : ∃ served', s'.Carried served' := by
  induction events generalizing s served with
  | nil =>
    cases hrun
    exact ⟨served, h⟩
  | cons event events ih =>
    obtain ⟨t, ht, hrest⟩ := Option.bind_eq_some_iff.mp hrun
    obtain ⟨served', h'⟩ := h.step ht hallowed.1.2
    exact ih h' (hallowed.2 t ht) hrest

theorem Quiet.session (hq : s.Quiet) : s.data = none ∧ s.toSession = [] := by
  obtain ⟨submitted, tasks, thread, toSession, data, toLinker, replies⟩ := s
  cases data with
  | some data =>
    obtain ⟨_, he⟩ := hq .doWrite _ rfl
    cases he
  | none =>
    cases toSession with
    | nil => exact ⟨rfl, rfl⟩
    | cons b rest =>
      obtain ⟨_, he⟩ := hq (.doRead 1) _ (by simp [step, max_length]; rfl)
      cases he

/-- At rest every request has its reply. -/
theorem Carried.quiet {served : List Bytes} (h : s.Carried served) (hq : s.Quiet) :
    served = s.submitted ∧ s.inFlight = s.toLinker ∧ s.thread = .idle := by
  obtain ⟨hdata, hsession⟩ := hq.session
  have hflight : s.inFlight = s.toLinker := by simp [inFlight, hdata, hsession]
  have horder := h.order
  obtain ⟨submitted, tasks, thread, toSession, data, toLinker, replies⟩ := s
  cases thread with
  | idle =>
    cases tasks with
    | nil => exact ⟨by simpa [current] using horder.symm, hflight, rfl⟩
    | cons request rest =>
      obtain ⟨_, he⟩ := hq .popTask _ rfl
      cases he
  | writing request =>
    obtain ⟨_, he⟩ := hq .write _ rfl
    cases he
  | reading request =>
    have hcoming := h.coming request rfl
    rw [hflight] at hcoming
    cases toLinker with
    | nil => exact absurd rfl hcoming
    | cons b rest =>
      obtain ⟨_, he⟩ := hq (.readSome 1) _ (by simp [EchoLink.step, max_length]; rfl)
      cases he

/-- What was written is in the replies or on its way. -/
theorem Carried.written {served : List Bytes} (h : s.Carried served) : ∃ written unwritten,
    s.submitted = written ++ unwritten ∧ s.replies.flatten ++ s.inFlight = written.flatten ∧
      s.replies.length ≤ written.length ∧ written.length ≤ s.replies.length + 1 := by
  have horder := h.order
  have hbytes := h.bytes
  have hcount := h.count
  cases hthread : s.thread with
  | reading request =>
    rw [hthread] at horder hbytes
    refine ⟨served ++ [request], s.tasks, horder, by simpa [awaited] using hbytes, ?_, ?_⟩
    · simp [hcount]
    · simp [hcount]
  | writing request =>
    rw [hthread] at horder hbytes
    refine ⟨served, request :: s.tasks, by simpa [current] using horder,
      by simpa [awaited] using hbytes, by omega, by omega⟩
  | idle =>
    rw [hthread] at horder hbytes
    refine ⟨served, s.tasks, by simpa [current] using horder, by simpa [awaited] using hbytes,
      by omega, by omega⟩

/-- However the stream cuts what it carries, no byte is lost, doubled or moved past another one, and
at rest there is a reply to each request. -/
theorem bytes_conserved {events : List LinkEvent} (hallowed : Meets step Allowed connected events)
    (hrun : GuardedRun.run step connected events = some s) :
    (∃ written unwritten, s.submitted = written ++ unwritten ∧
      s.replies.flatten ++ s.inFlight = written.flatten ∧ s.replies.length ≤ written.length ∧
      written.length ≤ s.replies.length + 1) ∧
    (s.Quiet → s.replies.length = s.submitted.length ∧
      s.replies.flatten ++ s.toLinker = s.submitted.flatten) := by
  obtain ⟨served, h⟩ := carried_connected.run hallowed hrun
  refine ⟨h.written, fun hq => ?_⟩
  obtain ⟨rfl, hflight, hidle⟩ := h.quiet hq
  have hbytes := h.bytes
  rw [hflight, hidle] at hbytes
  exact ⟨h.count.symm, by simpa [awaited] using hbytes⟩

/-- Two requests of which the first reply is read in part: the second reply has the rest. -/
theorem bytes_conserved_partialReply : ∃ s, GuardedRun.run step connected
    [.submitTask [1, 2], .submitTask [3], .popTask, .write, .doRead 2, .doWrite, .readSome 1,
      .popTask, .write, .doRead 1, .doWrite, .readSome 2] = some s ∧
    (s.Quiet → s.replies.length = s.submitted.length ∧
      s.replies.flatten ++ s.toLinker = s.submitted.flatten) := by
  have hrun : GuardedRun.run step connected
      [.submitTask [1, 2], .submitTask [3], .popTask, .write, .doRead 2, .doWrite, .readSome 1,
        .popTask, .write, .doRead 1, .doWrite, .readSome 2] = some _ := rfl
  exact ⟨_, hrun, (bytes_conserved (by decide) hrun).2⟩

end EchoLink
end ImdbD.DTXN
