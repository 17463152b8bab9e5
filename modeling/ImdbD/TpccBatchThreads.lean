import ImdbD.TpccBatchJobs

/-!
# Which threads of a TPC-C batch can run together

The waits of the main thread cut a batch into phases. Of two jobs of different
threads that touch the same place, one belongs to a crew that has been waited for
before the other's is started.
-/
namespace ImdbD.Benchmark.TPCC.TpccBatchProcessor
open AtomicProgram KeyedStore

/-- The phase in which a crew is started. -/
def Role.began : Role → ℕ
  | main | create => 0
  | no4 | resize => 1
  | no12 | no5 | paymentTxn1 | paymentTxn2 | paymentTxn3 => 2
  | neworderConflict => 3
  | recreate | found => 4
  | del3 | no6 => 5
  | del2 => 6
  | conflict2 => 7

/-- The phase at the end of which it is waited for. -/
def Role.ended : Role → ℕ
  | create => 0
  | resize => 1
  | no12 => 2
  | no4 | no5 | neworderConflict => 3
  | recreate | found => 4
  | no6 => 5
  | del3 | del2 => 6
  | main | paymentTxn1 | paymentTxn2 | paymentTxn3 | conflict2 => 7

theorem Role.began_le_ended (role : Role) : role.began ≤ role.ended := by
  cases role <;> decide

/-- A crew that has come to its end when the other begins. -/
def Role.Before (role role' : Role) : Prop := role.ended < role'.began

instance (role role' : Role) : Decidable (role.Before role') :=
  inferInstanceAs (Decidable (_ < _))

/-- The tuples that bring jobs, by their kind and position. -/
inductive Origin where
  | newOrder (pos : ℕ)
  | delivery (pos : ℕ)
  | other
  deriving DecidableEq

namespace Job

def origin : Job → Origin
  | neworder12 pos _ _ | neworder3 pos _ | neworder4 pos _ _ | neworder5 pos _ _
  | neworder6 pos _ _ => .newOrder pos
  | delivery1 pos _ _ | delivery2 pos _ _ _ | delivery3 pos _ _ _ | delivery4 pos _ _ =>
    .delivery pos
  | create | resize | recreate | found _ | payment1 _ | payment2 _ | payment3 _ | payment4 _ =>
    .other

/-- The place of a job among those of its tuple. -/
def rank : Job → ℕ
  | neworder12 .. | delivery1 .. => 0
  | neworder3 .. | neworder4 .. | neworder5 .. | delivery2 .. | delivery3 .. => 1
  | neworder6 .. | delivery4 .. => 2
  | create | resize | recreate | found _ | payment1 _ | payment2 _ | payment3 _ | payment4 _ => 0

/-- Jobs with which the main thread gets vectors ready. -/
inductive Prepares : Job → Prop
  | create : Prepares .create
  | resize : Prepares .resize
  | recreate : Prepares .recreate

/-- The first job must be done before the second. -/
inductive Precedes : Job → Job → Prop
  | prepares {job job'} (h : job.role.Before job'.role) (hjob : job.Prepares) : Precedes job job'
  | rank {job job'} (h : job.role.Before job'.role) (ho : job.origin = job'.origin)
      (hr : job.rank < job'.rank) : Precedes job job'
  | found {job v} (h : job.role.Before .found) : Precedes job (.found v)
  | order {pos param o pos' param' d o'}
      (h : (o, param.dId, param.wId) = (o', d, param'.wId)) :
      Precedes (neworder12 pos param o) (delivery3 pos' param' d o')
  | lines {pos param o pos' param' d o'}
      (h : (o, param.dId, param.wId) = (o', d, param'.wId)) :
      Precedes (neworder6 pos param o) (delivery2 pos' param' d o')

theorem Precedes.before {job job' : Job} (h : job.Precedes job') : job.role.Before job'.role := by
  cases h with
  | prepares h _ | rank h _ _ | found h => exact h
  | order h => exact (by decide : Role.Before .no12 .del3)
  | lines h => exact (by decide : Role.Before .no6 .del2)

end Job

variable {K : Constants} {P : ScaleParams} {batch : List EventTuple} {job job' : Job} {vec : Vec}
  {i : ℕ}

/-- The crew that fills a vector. -/
def writerOf : Vec → Role
  | .dNextOIdVector => .no12
  | .sDistsVector _ => .no4
  | .olAmountsVector _ => .no5
  | .noOIdsVector _ => .neworderConflict
  | .cIdsVector _ => .del3
  | .sumsVector _ => .del2

/-- The tuple to which an element belongs. -/
def elementOrigin : Vec → ℕ → Origin
  | .dNextOIdVector, i => .newOrder i
  | .sDistsVector pos, _ | .olAmountsVector pos, _ => .newOrder pos
  | .noOIdsVector pos, _ | .cIdsVector pos, _ | .sumsVector pos, _ => .delivery pos

/-- The rank of the jobs that fill a vector. -/
def rankOf : Vec → ℕ
  | .dNextOIdVector | .noOIdsVector _ => 0
  | .sDistsVector _ | .olAmountsVector _ | .cIdsVector _ | .sumsVector _ => 1

/-- The bucket of the job that writes an element. -/
def elementBucket (K : Constants) (P : ScaleParams) (batch : List EventTuple) : Vec → ℕ → ℕ
  | .dNextOIdVector, i => (newOrderParams batch)[i]?.elim 0
    (fun param => districtBucket K param.wId param.dId)
  | .sDistsVector pos, i | .olAmountsVector pos, i => (newOrderParams batch)[pos]?.elim 0
    (fun param => itemBucket K P ((param.iIds[i]?).getD 0) ((param.iWIds[i]?).getD 0))
  | .noOIdsVector pos, i | .cIdsVector pos, i | .sumsVector pos, i =>
    (deliveryParams batch)[pos]?.elim 0 (fun param => districtBucket K param.wId i)

/-- An element is written by one thread, in one job. -/
theorem Writes.element (hfits : job.Fits batch) (h : Writes job (.inr (vec, i))) :
    (job.Prepares ∧ job.role.Before (writerOf vec)) ∨
    (job.thread K P = (writerOf vec, elementBucket K P batch vec i) ∧
      job.origin = elementOrigin vec i ∧ job.rank = rankOf vec) := by
  cases h with
  | create =>
    refine .inl ⟨.create, ?_⟩
    cases vec <;> simp [Role.Before, Job.role, writerOf, Role.began, Role.ended]
  | resize => exact .inl ⟨.resize, by decide⟩
  | newCIds => exact .inl ⟨.recreate, (by decide : Role.Before .recreate .del3)⟩
  | newSums => exact .inl ⟨.recreate, (by decide : Role.Before .recreate .del2)⟩
  | dNextOId | sDist | olAmount =>
    have hparam := hfits
    simp only [Job.Fits] at hparam
    exact .inr ⟨by simp [Job.thread, Job.role, Job.bucket, writerOf, elementBucket, hparam],
      rfl, rfl⟩
  | @noOId _ _ d | @sum _ _ d | @cId _ _ d =>
    obtain ⟨hparam, hd⟩ := hfits
    refine .inr ⟨?_, rfl, rfl⟩
    simp [Job.thread, Job.role, Job.bucket, writerOf, elementBucket, hparam, Int.toNat_of_nonneg hd]

/-- An element is read by the later jobs of its tuple, and by the main thread. -/
theorem Reads.element (h : Reads job (.inr (vec, i))) :
    (writerOf vec).Before job.role ∧
    ((job.origin = elementOrigin vec i ∧ rankOf vec < job.rank) ∨ ∃ v, job = .found v) := by
  cases h with
  | noOIds => exact ⟨by simp [Role.Before, Job.role, writerOf, Role.began, Role.ended], .inr ⟨_, rfl⟩⟩
  | _ =>
    refine ⟨?_, .inl ⟨rfl, ?_⟩⟩
    · simp [Role.Before, Job.role, writerOf, Role.began, Role.ended]
    · simp [rankOf, Job.rank]

theorem Role.Before.trans {role role' role'' : Role} (h : role.Before role')
    (h' : role'.Before role'') : role.Before role'' :=
  lt_trans (lt_of_lt_of_le h role'.began_le_ended) h'

private theorem Job.Prepares.thread_eq (h : job.Prepares) (h' : job'.Prepares) :
    job.thread K P = job'.thread K P ∨ job.Precedes job' ∨ job'.Precedes job := by
  rcases lt_trichotomy job.role.began job'.role.began with hlt | he | hlt
  · refine .inr (.inl (.prepares ?_ h))
    cases h <;> cases h' <;> exact hlt
  · cases h <;> cases h' <;> first | exact .inl rfl | cases he
  · refine .inr (.inr (.prepares ?_ h'))
    cases h <;> cases h' <;> exact hlt

/-- Two jobs that touch one element, of which one writes it. -/
theorem Writes.clash_element (hjob : job.Fits batch) (hjob' : job'.Fits batch)
    (h : Writes job (.inr (vec, i)))
    (h' : Reads job' (.inr (vec, i)) ∨ Writes job' (.inr (vec, i))) :
    job.thread K P = job'.thread K P ∨ job.Precedes job' ∨ job'.Precedes job := by
  rcases h.element (K := K) (P := P) hjob with ⟨hprep, hbefore⟩ | ⟨hthread, horigin, hrank⟩
  · rcases h' with h' | h'
    · exact .inr (.inl (.prepares (hbefore.trans h'.element.1) hprep))
    · rcases h'.element (K := K) (P := P) hjob' with ⟨hprep', -⟩ | ⟨hthread', -, -⟩
      · exact hprep.thread_eq hprep'
      · have hrole : job'.role = writerOf vec := congrArg Prod.fst hthread'
        exact .inr (.inl (.prepares (hrole ▸ hbefore) hprep))
  · have hrole : job.role = writerOf vec := congrArg Prod.fst hthread
    rcases h' with h' | h'
    · obtain ⟨hbefore, ⟨horigin', hrank'⟩ | ⟨v, rfl⟩⟩ := h'.element
      · exact .inr (.inl (.rank (hrole ▸ hbefore) (horigin.trans horigin'.symm) (hrank ▸ hrank')))
      · exact .inr (.inl (.found (hrole ▸ hbefore)))
    · rcases h'.element (K := K) (P := P) hjob' with ⟨hprep', hbefore⟩ | ⟨hthread', -, -⟩
      · exact .inr (.inr (.prepares (hrole ▸ hbefore) hprep'))
      · exact .inl (hthread.trans hthread'.symm)

variable {l : TablePlace ⊕ Unit}

/-- Two jobs that touch one place of the tables, of which one writes it. -/
theorem Writes.clash_table (h : Writes job (.inl l))
    (h' : Reads job' (.inl l) ∨ Writes job' (.inl l)) :
    job.thread K P = job'.thread K P ∨ job.Precedes job' ∨ job'.Precedes job := by
  rcases h' with h' | h'
  · -- the lines of an order are the one thing that is read here and written elsewhere
    cases h' with
    | item k => cases h
    | lines off hg =>
      cases h with
      | lines _ hg' =>
        exact .inr (.inl (.lines (hg'.symm.trans hg)))
  · cases h <;> cases h'
    case order.carried => exact .inr (.inl (.order (by grind)))
    case carried.order => exact .inr (.inr (.order (by grind)))
    case line.marked => exact .inr (.inl (.lines (by grind)))
    case marked.line => exact .inr (.inr (.lines (by grind)))
    -- every other place has one writer
    all_goals exact .inl (by grind [Job.thread, Job.role, Job.bucket])

/-- Jobs that touch the same place belong to one thread, or one of them must come first. -/
theorem Writes.clash {l : WorkPlace} (hjob : job.Fits batch) (hjob' : job'.Fits batch)
    (h : Writes job l) (h' : l ∈ (jobFoot job').touches) :
    job.thread K P = job'.thread K P ∨ job.Precedes job' ∨ job'.Precedes job := by
  rcases l with l | ⟨vec, i⟩
  · exact h.clash_table h'
  · exact h.clash_element hjob hjob' h'

/-- Jobs of different threads of which none must come first. -/
theorem independent (hjob : job.Fits batch) (hjob' : job'.Fits batch)
    (hne : job.thread K P ≠ job'.thread K P) (h : ¬ job.Precedes job') (h' : ¬ job'.Precedes job) :
    (jobFoot job).Independent (jobFoot job') := by
  refine ⟨Set.disjoint_left.mpr fun l hl hl' => ?_, Set.disjoint_left.mpr fun l hl hl' => ?_⟩
  · rcases Writes.clash hjob hjob' hl hl' with he | hp | hp
    · exact hne he
    · exact h hp
    · exact h' hp
  · rcases Writes.clash hjob' hjob hl hl' with he | hp | hp
    · exact hne he.symm
    · exact h' hp
    · exact h hp

variable (K P) in
/-- What the jobs of a thread touch, whatever numbers of orders they find. -/
def threadFoot (batch : List EventTuple) (thread : Role × ℕ) : Footprint WorkPlace where
  reads := {l | ∃ job : Job, job.Fits batch ∧ job.thread K P = thread ∧ Reads job l}
  writes := {l | ∃ job : Job, job.Fits batch ∧ job.thread K P = thread ∧ Writes job l}

theorem jobFoot_le {thread : Role × ℕ} (hjob : job.Fits batch) (hthread : job.thread K P = thread) :
    jobFoot job ≤ threadFoot K P batch thread :=
  ⟨fun _ h => ⟨job, hjob, hthread, h⟩, fun _ h => ⟨job, hjob, hthread, h⟩⟩

/-- The threads of all batches. -/
def foot (K : Constants) (P : ScaleParams) (batches : ℕ → List EventTuple) (id : ThreadId) :
    Footprint WorkPlace :=
  threadFoot K P (batches id.1.1) (id.1.2, id.2)

/-- Crews of which neither is waited for before the other begins. -/
def Role.Together (role role' : Role) : Prop := ¬ role.Before role' ∧ ¬ role'.Before role

instance (role role' : Role) : Decidable (role.Together role') :=
  inferInstanceAs (Decidable (_ ∧ _))

theorem beside_together (batches : ℕ → List EventTuple) (b : ℕ) {role role' : Role}
    (h : role.Together role') :
    Beside (foot K P batches) (b, role) (b, role') := by
  have hjobs : ∀ {t t' : ℕ} {job job' : Job}, ((b, role), t) ≠ ((b, role'), t') →
      job.Fits (batches b) → job'.Fits (batches b) → job.thread K P = (role, t) →
      job'.thread K P = (role', t') → (jobFoot job).Independent (jobFoot job') := by
    intro t t' job job' hne hjob hjob' hthread hthread'
    have hrole : job.role = role := congrArg Prod.fst hthread
    have hrole' : job'.role = role' := congrArg Prod.fst hthread'
    refine independent (K := K) (P := P) hjob hjob' (fun he => hne ?_) (fun hp => h.1 ?_)
      (fun hp => h.2 ?_)
    · rw [hthread, hthread'] at he
      obtain ⟨rfl, rfl⟩ := Prod.mk.inj he
      rfl
    · exact hrole ▸ hrole' ▸ hp.before
    · exact hrole ▸ hrole' ▸ hp.before
  refine fun t t' hne => ⟨Set.disjoint_left.mpr ?_, Set.disjoint_left.mpr ?_⟩
  · rintro l ⟨job, hjob, hthread, hl⟩ (⟨job', hjob', hthread', hl'⟩ | ⟨job', hjob', hthread', hl'⟩)
    · exact Set.disjoint_left.mp (hjobs hne hjob hjob' hthread hthread').left hl (Or.inl hl')
    · exact Set.disjoint_left.mp (hjobs hne hjob hjob' hthread hthread').left hl (Or.inr hl')
  · rintro l ⟨job', hjob', hthread', hl'⟩ (⟨job, hjob, hthread, hl⟩ | ⟨job, hjob, hthread, hl⟩)
    · exact Set.disjoint_left.mp (hjobs hne hjob hjob' hthread hthread').right hl' (Or.inl hl)
    · exact Set.disjoint_left.mp (hjobs hne hjob hjob' hthread hthread').right hl' (Or.inr hl)

end ImdbD.Benchmark.TPCC.TpccBatchProcessor
