import ImdbD.TpccBatchSafety
import ImdbD.TpccDelivery

/-!
# The jobs of a TPC-C batch in the order of the queue

Every tuple leaves its jobs one after the other as the serial processor would do
them. A job that comes later in the queue may overtake one of a crew that starts
no sooner: either the two are independent, or they cannot both succeed.
-/
namespace ImdbD.Benchmark.TPCC.TpccBatchProcessor
open AtomicProgram KeyedStore GuardedRun

/-- The jobs of a new order that gets the number `o`. -/
def newOrderJobs (pos : ℕ) (param : NewOrderParam) (o : ℤ) : List Job :=
  [.neworder12 pos param o, .neworder3 pos param] ++
    (List.range param.iIds.length).map (.neworder4 pos param) ++
    (List.range param.iIds.length).map (.neworder5 pos param) ++ [.neworder6 pos param o]

/-- The jobs of a delivery that finds some orders. -/
def deliveryJobs (pos : ℕ) (param : DeliveryParam) (found : List (ℤ × ℤ)) : List Job :=
  (upTo DISTRICTS_PER_WAREHOUSE).map (.delivery1 pos param) ++
    found.map (fun e => .delivery2 pos param e.1 e.2) ++
    found.map (fun e => .delivery3 pos param e.1 e.2) ++
    found.map (fun e => .delivery4 pos param e.1)

def paymentJobs (param : PaymentParam) : List Job :=
  [.payment1 param, .payment2 param, .payment3 param, .payment4 param]

/-- The districts with the orders found, read from the vector of a delivery. -/
def foundIn (noOIds : List ℤ) : List (ℤ × ℤ) :=
  ((upTo DISTRICTS_PER_WAREHOUSE).map (fun noDId =>
    let noOId := (noOIds[noDId.toNat]?).getD (-1)
    if noOId ≠ -1 then some (noDId, noOId) else none)).reduceOption

/-- The jobs of one tuple, when the vectors end as `v`. -/
def tupleJobs (v : Vectors) (pos : Positions) : EventTuple → List Job
  | .newOrder param => newOrderJobs pos.newOrderPos param
    (((v .dNextOIdVector)[pos.newOrderPos]?).getD 0)
  | .delivery param => deliveryJobs pos.deliveryPos param
    (foundIn (v (.noOIdsVector pos.deliveryPos)))
  | .payment param => paymentJobs param
  | .endExecution => []

def batchJobs (v : Vectors) : Positions → List EventTuple → List Job
  | _, [] => []
  | pos, tuple :: batch => tupleJobs v pos tuple ++ batchJobs v (pos.next tuple) batch

/-- With what the main thread does itself. -/
def allJobs (v : Vectors) (batch : List EventTuple) : List Job :=
  [.resize, .recreate] ++ batchJobs v (.of []) batch ++ [.found (noOIdsVector batch v)]

def tupleOrigin (pos : Positions) : EventTuple → Origin
  | .newOrder _ => .newOrder pos.newOrderPos
  | .delivery _ => .delivery pos.deliveryPos
  | .payment _ | .endExecution => .other

/-- The crews that work on the tuples. -/
def tupleRoles : List Role :=
  [.no4, .no12, .no5, .paymentTxn1, .paymentTxn2, .paymentTxn3, .neworderConflict, .del3, .no6,
    .del2, .conflict2]

variable {K : Constants} {P : ScaleParams} {v : Vectors} {before batch : List EventTuple}
  {tuple : EventTuple} {job x y : Job}

theorem mem_foundIn {noOIds : List ℤ} {e : ℤ × ℤ} (h : e ∈ foundIn noOIds) :
    e.1 ∈ upTo DISTRICTS_PER_WAREHOUSE := by
  obtain ⟨d, hd, he⟩ := List.mem_map.mp (List.reduceOption_mem_iff.mp h)
  by_cases hne : (noOIds[d.toNat]?).getD (-1) ≠ -1
  · rw [if_pos hne] at he
    cases he
    exact hd
  · rw [if_neg hne] at he
    cases he

theorem mem_tupleJobs (after : List EventTuple) (h : job ∈ tupleJobs v (.of before) tuple) :
    job.Fits (before ++ tuple :: after) ∧ job.origin = tupleOrigin (.of before) tuple ∧
      job.role ∈ tupleRoles := by
  cases tuple with
  | newOrder param =>
    have hparam := newOrderParams_at before after param
    simp only [tupleJobs, newOrderJobs, List.mem_append, List.mem_cons, List.not_mem_nil, or_false,
      List.mem_map] at h
    rcases h with (((rfl | rfl) | ⟨i, -, rfl⟩) | ⟨i, -, rfl⟩) | rfl
    all_goals exact ⟨hparam, rfl, by simp [Job.role, tupleRoles]⟩
  | delivery param =>
    have hparam := deliveryParams_at before after param
    have hpos : ∀ d ∈ upTo DISTRICTS_PER_WAREHOUSE, 0 ≤ d := fun d hd => by
      have := (mem_upTo.mp hd).1
      omega
    simp only [tupleJobs, deliveryJobs, List.mem_append, List.mem_map] at h
    rcases h with ((⟨d, hd, rfl⟩ | ⟨e, he, rfl⟩) | ⟨e, he, rfl⟩) | ⟨e, he, rfl⟩
    · exact ⟨⟨hparam, hpos d hd⟩, rfl, by simp [Job.role, tupleRoles]⟩
    all_goals exact ⟨⟨hparam, hpos e.1 (mem_foundIn he)⟩, rfl, by simp [Job.role, tupleRoles]⟩
  | payment param =>
    simp only [tupleJobs, paymentJobs, List.mem_cons, List.not_mem_nil, or_false] at h
    rcases h with rfl | rfl | rfl | rfl
    all_goals exact ⟨trivial, rfl, by simp [Job.role, tupleRoles]⟩
  | endExecution => cases h

/-- The jobs of a tuple come in the order of their ranks. -/
theorem tupleJobs_sorted (v : Vectors) (pos : Positions) (tuple : EventTuple) :
    (tupleJobs v pos tuple).Pairwise (fun y x => y.rank ≤ x.rank) := by
  have hsame : ∀ {α : Type} (f : α → Job) (r : ℕ) (as : List α), (∀ a, (f a).rank = r) →
      (as.map f).Pairwise (fun y x => y.rank ≤ x.rank) := by
    intro α f r as h
    refine List.pairwise_map.mpr (List.pairwise_of_forall (fun a b => ?_))
    rw [h a, h b]
  cases tuple with
  | newOrder param =>
    simp only [tupleJobs, newOrderJobs, List.pairwise_append, List.mem_append, List.mem_map,
      List.mem_cons, List.not_mem_nil, or_false]
    refine ⟨⟨⟨by simp [Job.rank], hsame _ 1 _ (fun _ => rfl), ?_⟩, hsame _ 1 _ (fun _ => rfl), ?_⟩,
      List.pairwise_singleton _ _, ?_⟩
    all_goals
      intro y hy x hx
      grind [Job.rank]
  | delivery param =>
    simp only [tupleJobs, deliveryJobs, List.pairwise_append, List.mem_append, List.mem_map]
    refine ⟨⟨⟨hsame _ 0 _ (fun _ => rfl), hsame _ 1 _ (fun _ => rfl), ?_⟩,
      hsame _ 1 _ (fun _ => rfl), ?_⟩, hsame _ 2 _ (fun _ => rfl), ?_⟩
    all_goals
      intro y hy x hx
      grind [Job.rank]
  | payment param => simp [tupleJobs, paymentJobs, Job.rank]
  | endExecution => exact .nil

/-- What is known of a job `x` that comes after `y`. -/
structure Follows (y x : Job) : Prop where
  prepares : x.Prepares → ¬ x.role.Before y.role
  rank : y.origin = x.origin → y.rank ≤ x.rank
  found : y.role ≠ .found

theorem not_prepares (h : job.role ∈ tupleRoles) : ¬ job.Prepares := by
  intro hp
  cases hp <;> simp [Job.role, tupleRoles] at h

theorem role_ne_found (h : job.role ∈ tupleRoles) : job.role ≠ .found := by
  intro he
  rw [he] at h
  revert h
  decide

private theorem rank_of_other (h : job.origin = .other) : job.rank = 0 := by
  cases job <;> first | rfl | cases h

/-- Tuples from some positions on. -/
def Origin.From (pos : Positions) : Origin → Prop
  | newOrder i => pos.newOrderPos ≤ i
  | delivery i => pos.deliveryPos ≤ i
  | other => True

theorem Origin.From.of_next {pos : Positions} {origin : Origin}
    (h : origin.From (pos.next tuple)) : origin.From pos := by
  cases origin <;> cases tuple <;> first | exact h | exact Nat.le_of_succ_le h

private theorem tupleOrigin_from (pos : Positions) (tuple : EventTuple) :
    (tupleOrigin pos tuple).From pos := by
  cases tuple <;> first | exact le_refl _ | trivial

private theorem tupleOrigin_next {pos : Positions}
    (h : (tupleOrigin pos tuple).From (pos.next tuple)) : tupleOrigin pos tuple = .other := by
  cases tuple with
  | newOrder param => exact absurd h (Nat.not_succ_le_self _)
  | delivery param => exact absurd h (Nat.not_succ_le_self _)
  | payment _ | endExecution => rfl

theorem mem_batchJobs (h : job ∈ batchJobs v (.of before) batch) :
    job.Fits (before ++ batch) ∧ job.origin.From (.of before) ∧ job.role ∈ tupleRoles := by
  induction batch generalizing before with
  | nil => cases h
  | cons tuple batch ih =>
    rcases List.mem_append.mp h with h | h
    · obtain ⟨hfits, horigin, hrole⟩ := mem_tupleJobs batch h
      exact ⟨hfits, horigin ▸ tupleOrigin_from _ _, hrole⟩
    · rw [Positions.next_of] at h
      obtain ⟨hfits, hfrom, hrole⟩ := ih h
      rw [← Positions.next_of] at hfrom
      exact ⟨by simpa using hfits, hfrom.of_next, hrole⟩

theorem batchJobs_follow (v : Vectors) (before batch : List EventTuple) :
    (batchJobs v (.of before) batch).Pairwise Follows := by
  induction batch generalizing before with
  | nil => exact .nil
  | cons tuple batch ih =>
    have hfirst : ∀ job ∈ tupleJobs v (.of before) tuple,
        job.origin = tupleOrigin (.of before) tuple ∧ job.role ∈ tupleRoles :=
      fun job hjob => (mem_tupleJobs batch hjob).2
    refine List.pairwise_append.mpr ⟨?_, ?_, fun y hy x hx => ?_⟩
    · refine (List.Pairwise.and_mem.mp (tupleJobs_sorted v (.of before) tuple)).imp ?_
      rintro y x ⟨hy, hx, hle⟩
      exact ⟨fun hp => absurd hp (not_prepares (hfirst x hx).2), fun _ => hle,
        role_ne_found (hfirst y hy).2⟩
    · rw [Positions.next_of]
      exact ih _
    · obtain ⟨horigin, hrole⟩ := hfirst y hy
      rw [Positions.next_of] at hx
      obtain ⟨-, hfrom, hrole'⟩ := mem_batchJobs hx
      refine ⟨fun hp => absurd hp (not_prepares hrole'), fun he => ?_, role_ne_found hrole⟩
      have hother : tupleOrigin (.of before) tuple = .other := by
        refine tupleOrigin_next ?_
        rw [Positions.next_of, ← horigin, he]
        exact hfrom
      rw [rank_of_other (horigin.trans hother)]
      exact Nat.zero_le _

private theorem mem_allJobs (h : job ∈ allJobs v batch) : job.Fits batch := by
  simp only [allJobs, List.mem_append, List.mem_cons, List.not_mem_nil, or_false] at h
  rcases h with ((rfl | rfl) | h) | rfl
  · trivial
  · trivial
  · exact (mem_batchJobs h).1
  · trivial

theorem allJobs_follow (v : Vectors) (batch : List EventTuple) :
    (allJobs v batch).Pairwise Follows := by
  have hmem : ∀ job ∈ batchJobs v (.of []) batch, job.role ∈ tupleRoles :=
    fun job hjob => (mem_batchJobs hjob).2.2
  simp only [allJobs, List.pairwise_append]
  refine ⟨⟨?_, batchJobs_follow v [] batch, fun y hy x hx => ?_⟩, List.pairwise_singleton _ _,
    fun y hy x hx => ?_⟩
  · refine List.pairwise_pair.mpr ⟨fun _ => ?_, fun _ => le_refl _, ?_⟩ <;> decide
  · refine ⟨fun hp => absurd hp (not_prepares (hmem x hx)), fun _ => ?_, ?_⟩
    · simp only [List.mem_cons, List.not_mem_nil, or_false] at hy
      rcases hy with rfl | rfl <;> exact Nat.zero_le _
    · simp only [List.mem_cons, List.not_mem_nil, or_false] at hy
      rcases hy with rfl | rfl <;> decide
  · obtain rfl := List.mem_singleton.mp hx
    refine ⟨fun hp => (nomatch hp), fun ho => ?_, ?_⟩
    · rw [rank_of_other ho]
      exact Nat.zero_le _
    · rcases List.mem_append.mp hy with hy | hy
      · simp only [List.mem_cons, List.not_mem_nil, or_false] at hy
        rcases hy with rfl | rfl <;> decide
      · exact role_ne_found (hmem y hy)

section Overtaking
variable {w w' z : Work} {s s' : Tables} {α : Type} {a : α}

theorem run_onTables {p : Program Tables α} (h : (onTables p).run w = some (a, w')) :
    p.run w.1.1 = some (a, w'.1.1) :=
  (Program.run_onFst_eq_some.mp (Program.run_onFst_eq_some.mp h).1).1

theorem fst_onSnd {p : Program Vectors α}
    (h : (Program.onSnd p : Program Work α).run w = some (a, w')) : w'.1 = w.1 :=
  (Program.run_onSnd_eq_some.mp h).2

theorem neworder12_new {pos : ℕ} {param : NewOrderParam} {o : ℤ}
    (h : (perform K batch (.neworder12 pos param o)).run w = some ((), w')) :
    w.1.1.row (.order (K.offset param.wId param.dId)) (o, param.dId, param.wId) = none := by
  obtain ⟨_, w₁, h₁, h⟩ := Program.run_bind_eq_some.mp h
  obtain ⟨_, w₂, h₂, h⟩ := Program.run_bind_eq_some.mp h
  obtain ⟨w₃, h₃, h₄⟩ := Program.run_expecting_eq_some h
  have hwithin : (neworderSubTxn1 param).Within tablePlaces
      ⟨∅, {.row .district (param.dId, param.wId) .rest}⟩ :=
    neworderSubTxn1_within rfl
  have hrow : w₁.1.1.row (.order (K.offset param.wId param.dId)) (o, param.dId, param.wId) =
      w.1.1.row (.order (K.offset param.wId param.dId)) (o, param.dId, param.wId) :=
    row_of_within hwithin (run_onTables h₁) (fun _ => by simp)
  have hnone := row_of_insertRecord (k := (o, param.dId, param.wId)) rfl (run_onTables h₄)
  rwa [fst_onSnd h₃, fst_onSnd h₂, hrow] at hnone

/-- An order that is carried has been entered. -/
theorem delivery3_entered {pos : ℕ} {param : DeliveryParam} {d o : ℤ}
    (h : (perform K batch (.delivery3 pos param d o)).run w = some ((), w')) :
    (w'.1.1.row (.order (K.offset param.wId d)) (o, d, param.wId)).isSome := by
  obtain ⟨w₁, h₁, h⟩ := Program.run_expecting_eq_some h
  obtain ⟨_, w₂, h₂, h₃⟩ := Program.run_bind_eq_some.mp h
  have hsub := run_onTables h₂
  rw [fst_onSnd h₃]
  cases hr : w₁.1.1.row (.order (K.offset param.wId d)) (o, d, param.wId) with
  | none => simp [deliverySubTxn3Single, hr] at hsub
  | some r =>
    have hrun : (deliverySubTxn3Single K param d o).run w₁.1.1 = _ := run_deliverySubTxn3Single hr
    rw [hrun] at hsub
    obtain ⟨-, he⟩ := Prod.mk.inj (Option.some.inj hsub)
    rw [← he, Store.row_setRow_self]
    rfl

/-- The lines of an order are inserted once. -/
theorem neworder6_first {pos : ℕ} {param : NewOrderParam} {o : ℤ}
    (h : (perform K batch (.neworder6 pos param o)).run w = some ((), w')) :
    w.1.1.groups (.orderLine (K.offset param.wId param.dId)) (o, param.dId, param.wId) = [] := by
  rw [perform] at h
  obtain ⟨w₁, h₁, h⟩ := Program.run_expecting_eq_some h
  obtain ⟨lines, w₂, h₂, h⟩ := Program.run_bind_eq_some.mp h
  obtain ⟨_, w₃, h₃, -⟩ := Program.run_bind_eq_some.mp h
  have hlines := run_onTables h₂
  rw [run_selectRecords, fst_onSnd h₁] at hlines
  obtain ⟨he, -⟩ := Prod.mk.inj (Option.some.inj hlines)
  rw [he]
  exact of_decide_eq_true (Program.run_assert_eq_some h₃).1

/-- An order whose lines are marked has some. -/
theorem delivery2_lines {pos : ℕ} {param : DeliveryParam} {d o : ℤ}
    (h : (perform K batch (.delivery2 pos param d o)).run w = some ((), w')) :
    w'.1.1.groups (.orderLine (K.offset param.wId d)) (o, d, param.wId) ≠ [] := by
  obtain ⟨w₁, h₁, h⟩ := Program.run_expecting_eq_some h
  obtain ⟨sum, w₂, h₂, h₃⟩ := Program.run_bind_eq_some.mp h
  have hsub := run_onTables h₂
  have hwithin : (deliverySubTxn2Single K param d o).Within tablePlaces
      (tableFoot (jobFoot (.delivery2 pos param d o))) :=
    deliverySubTxn2Single_within (Or.inl (.lines _ rfl)) (fun i => .marked _ i rfl)
  rw [fst_onSnd h₃, groups_of_within hwithin hsub (fun hg => nomatch hg)]
  obtain ⟨lines, s₁, hlines, hsub⟩ := Program.run_bind_eq_some.mp hsub
  obtain ⟨_, s₂, hassert, -⟩ := Program.run_bind_eq_some.mp hsub
  rw [run_selectRecords] at hlines
  obtain ⟨he, -⟩ := Prod.mk.inj (Option.some.inj hlines)
  rw [he]
  exact fun hnil => of_decide_eq_true (Program.run_assert_eq_some hassert).1 (hnil ▸ rfl)

/-- A later job of a crew that starts no later may be put first. -/
theorem Follows.overtakes (h : Follows y x) (hy : y.Fits batch) (hx : x.Fits batch)
    (hne : x.thread K P ≠ y.thread K P) (hbegan : x.role.began ≤ y.role.began) :
    Overtakes (jobStep (perform K batch)) (fun _ => True) y x := by
  have hback : ¬ y.Precedes x := fun hp => by
    have hlt : y.role.ended < x.role.began := hp.before
    have := y.role.began_le_ended
    omega
  by_cases hp : x.Precedes y
  · cases hp with
    | prepares hbefore hprep => exact absurd hbefore (h.prepares hprep)
    | rank hbefore ho hr => exact absurd (h.rank ho.symm) (Nat.not_le.mpr hr)
    | found hbefore => exact absurd rfl h.found
    | order he =>
      intro s z _ hrun
      obtain ⟨t, ht, hz⟩ := Option.bind_eq_some_iff.mp hrun
      have hsome := delivery3_entered (jobStep_eq_some.mp ht)
      have hnone := neworder12_new (jobStep_eq_some.mp hz)
      simp only [Prod.mk.injEq] at he
      obtain ⟨rfl, rfl, hw⟩ := he
      rw [← hw, hnone] at hsome
      cases hsome
    | lines he =>
      intro s z _ hrun
      obtain ⟨t, ht, hz⟩ := Option.bind_eq_some_iff.mp hrun
      have hsome := delivery2_lines (jobStep_eq_some.mp ht)
      have hnil := neworder6_first (jobStep_eq_some.mp hz)
      simp only [Prod.mk.injEq] at he
      obtain ⟨rfl, rfl, hw⟩ := he
      rw [← hw] at hsome
      exact absurd hnil hsome
  · exact AtomicProgram.overtakes (perform_within y) (perform_within x)
      (independent hy hx (Ne.symm hne) hback hp)

end Overtaking

/-- The crews in the order of their start. -/
def crewRoles : List Role :=
  [.no4, .resize, .no12, .no5, .paymentTxn1, .paymentTxn2, .paymentTxn3, .neworderConflict,
    .recreate, .found, .del3, .no6, .del2, .conflict2]

theorem bucket_lt (job : Job) : job.bucket K P < job.role.size K := by
  cases job <;> first | exact Nat.mod_lt _ K.parallelism_pos | exact Nat.one_pos

private theorem crews_sorted (K : Constants) : (crews (Role.size K) crewRoles).Pairwise
    (fun c c' => c ≠ c' ∧ c.1.began ≤ c'.1.began) := by
  refine List.Pairwise.and (List.nodup_iff_pairwise_ne.mp (nodup_crews (by decide))) ?_
  refine List.pairwise_flatMap.mpr ⟨fun role _ => ?_, ?_⟩
  · exact List.pairwise_map.mpr (List.pairwise_of_forall (fun _ _ => le_refl _))
  · refine (by decide : crewRoles.Pairwise (fun r r' => r.began ≤ r'.began)).imp ?_
    intro r r' hle c hc c' hc'
    obtain ⟨t, -, rfl⟩ := List.mem_map.mp hc
    obtain ⟨t', -, rfl⟩ := List.mem_map.mp hc'
    exact hle

/-- The jobs of a thread in the order of the queue. -/
def threadJobs (K : Constants) (P : ScaleParams) (jobs : List Job) (thread : Role × ℕ) : List Job :=
  jobs.filter (fun job => job.thread K P = thread)

/-- The jobs of a batch can be run thread by thread, crew after crew. -/
theorem run_threads {w z : Work}
    (h : run (jobStep (perform K batch)) w (allJobs v batch) = some z) :
    run (jobStep (perform K batch)) w
      ((crews (Role.size K) crewRoles).flatMap (threadJobs K P (allJobs v batch))) = some z := by
  refine run_classes (fun _ _ _ _ _ => trivial) (fun c hc => hc.1 rfl) (Job.thread K P)
    (crews_sorted K) (fun job hjob => ?_) ?_ trivial h
  · refine mem_crews.mpr ⟨?_, bucket_lt job⟩
    simp only [allJobs, List.mem_append, List.mem_cons, List.not_mem_nil, or_false] at hjob
    rcases hjob with ((rfl | rfl) | hjob) | rfl
    · simp [Job.thread, Job.role, crewRoles]
    · simp [Job.thread, Job.role, crewRoles]
    · exact (by decide : tupleRoles ⊆ crewRoles) (mem_batchJobs hjob).2.2
    · simp [Job.thread, Job.role, crewRoles]
  · refine (List.Pairwise.and_mem.mp (allJobs_follow v batch)).imp ?_
    rintro y x ⟨hy, hx, hfollows⟩ ⟨hne, hbegan⟩
    exact hfollows.overtakes (mem_allJobs hy) (mem_allJobs hx) hne hbegan

end ImdbD.Benchmark.TPCC.TpccBatchProcessor
