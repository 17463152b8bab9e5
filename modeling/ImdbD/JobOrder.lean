import ImdbD.GuardedRun
import Mathlib.Data.List.Basic
import Mathlib.Data.List.Pairwise

/-!
# Running a list of jobs class by class

The jobs of a list are sorted into classes, and the classes are run one after
the other, each in the order of the list. If every job may be overtaken by those
behind it that belong to an earlier class, then the result is the same.
-/
namespace ImdbD.GuardedRun
variable {σ ο κ : Type*} {step : σ → ο → Option σ} {Inv : σ → Prop} {s z : σ} {x y : ο}
  {jobs before after : List ο}

/-- Where the invariant holds and `y` and then `x` can be run, `x` and then `y` end the same. -/
def Overtakes (step : σ → ο → Option σ) (Inv : σ → Prop) (y x : ο) : Prop :=
  ∀ s z, Inv s → (step s y).bind (fun t => step t x) = some z →
    (step s x).bind (fun t => step t y) = some z

theorem run_append (s : σ) (before after : List ο) :
    run step s (before ++ after) = (run step s before).bind (fun t => run step t after) := by
  induction before generalizing s with
  | nil => rfl
  | cons o os ih => simp [run, ih, Option.bind_assoc]

theorem run_invariant (hkeep : ∀ s o s', Inv s → step s o = some s' → Inv s') (hs : Inv s)
    (h : run step s jobs = some z) : Inv z := by
  induction jobs generalizing s with
  | nil =>
    cases h
    exact hs
  | cons o os ih =>
    obtain ⟨t, ht, hrest⟩ := Option.bind_eq_some_iff.mp h
    exact ih (hkeep s o t hs ht) hrest

/-- The first job is put off until those of a list that may overtake it have run. -/
theorem run_put_off (hkeep : ∀ s o s', Inv s → step s o = some s' → Inv s') (hs : Inv s)
    (hover : ∀ x ∈ before, Overtakes step Inv y x)
    (h : run step s (y :: (before ++ after)) = some z) :
    run step s (before ++ y :: after) = some z := by
  induction before generalizing s with
  | nil => exact h
  | cons x xs ih =>
    have hswap : run step s (x :: y :: (xs ++ after)) = some z := by
      rw [List.cons_append, run] at h
      obtain ⟨t, ht, h'⟩ := Option.bind_eq_some_iff.mp h
      obtain ⟨u, hu, hrest⟩ := Option.bind_eq_some_iff.mp h'
      obtain ⟨v, hv, hvu⟩ := Option.bind_eq_some_iff.mp
        (hover x List.mem_cons_self s u hs (by simp [ht, hu]))
      simp [run, hv, hvu, hrest]
    obtain ⟨t, ht, hrest⟩ := Option.bind_eq_some_iff.mp hswap
    have hrest' := ih (hkeep s x t hs ht) (fun w hw => hover w (List.mem_cons_of_mem x hw)) hrest
    simp [run, ht, hrest']

/-- The jobs of one kind are run first. -/
theorem run_partition (hkeep : ∀ s o s', Inv s → step s o = some s' → Inv s') (p : ο → Bool)
    (hs : Inv s) (hover : jobs.Pairwise (fun y x => p x → ¬ p y → Overtakes step Inv y x))
    (h : run step s jobs = some z) :
    run step s (jobs.filter p ++ jobs.filter (fun o => !p o)) = some z := by
  induction jobs generalizing s with
  | nil => exact h
  | cons o os ih =>
    obtain ⟨hfirst, hrest⟩ := List.pairwise_cons.mp hover
    obtain ⟨t, ht, h'⟩ := Option.bind_eq_some_iff.mp h
    have hsorted := ih (hkeep s o t hs ht) hrest h'
    have hhead : run step s (o :: (os.filter p ++ os.filter (fun o => !p o))) = some z := by
      simp [run, ht, hsorted]
    cases hp : p o with
    | true =>
      rw [List.filter_cons_of_pos hp, List.filter_cons_of_neg (by simp [hp])]
      exact hhead
    | false =>
      rw [List.filter_cons_of_neg (by simp [hp]), List.filter_cons_of_pos (by simp [hp])]
      refine run_put_off hkeep hs (fun x hx => ?_) hhead
      obtain ⟨hmem, hpx⟩ := List.mem_filter.mp hx
      exact hfirst x hmem hpx (by simp [hp])

theorem run_classes [DecidableEq κ] (hkeep : ∀ s o s', Inv s → step s o = some s' → Inv s')
    {lt : κ → κ → Prop} (hirrefl : ∀ c, ¬ lt c c) (cls : ο → κ) {classes : List κ}
    (hclasses : classes.Pairwise lt) (hcover : ∀ o ∈ jobs, cls o ∈ classes)
    (hover : jobs.Pairwise (fun y x => lt (cls x) (cls y) → Overtakes step Inv y x))
    (hs : Inv s) (h : run step s jobs = some z) :
    run step s (classes.flatMap (fun c => jobs.filter (fun o => cls o = c))) = some z := by
  induction classes generalizing jobs s with
  | nil =>
    cases jobs with
    | nil => exact h
    | cons o os => exact (nomatch hcover o List.mem_cons_self)
  | cons c cs ih =>
    obtain ⟨hlt, hcs⟩ := List.pairwise_cons.mp hclasses
    have hmem : ∀ o ∈ jobs, cls o ≠ c → cls o ∈ cs := fun o ho hne =>
      (List.mem_cons.mp (hcover o ho)).resolve_left hne
    have hsplit := run_partition hkeep (fun o => cls o = c) hs (by
      refine (List.Pairwise.and_mem.mp hover).imp (fun {y x} hyx hx hy => ?_)
      have hxc : cls x = c := by simpa using hx
      exact hyx.2.2 (hxc ▸ hlt _ (hmem y hyx.1 (by simpa using hy)))) h
    rw [run_append] at hsplit
    obtain ⟨t, ht, hrest⟩ := Option.bind_eq_some_iff.mp hsplit
    have hcover' : ∀ o ∈ jobs.filter (fun o => !decide (cls o = c)), cls o ∈ cs := fun o ho => by
      obtain ⟨ho', hne⟩ := List.mem_filter.mp ho
      exact hmem o ho' (by simpa using hne)
    have hrest' := ih hcs hcover' (hover.filter _) (run_invariant hkeep hs ht) hrest
    have hsame : cs.flatMap (fun c' => (jobs.filter (fun o => !decide (cls o = c))).filter
        (fun o => cls o = c')) = cs.flatMap (fun c' => jobs.filter (fun o => cls o = c')) := by
      refine List.flatMap_congr (fun c' hc' => ?_)
      rw [List.filter_filter]
      refine List.filter_congr (fun o _ => ?_)
      by_cases ho : cls o = c'
      · have hne : c' ≠ c := fun he => hirrefl c (he ▸ hlt c' hc')
        simp [ho, hne]
      · simp [ho]
    rw [List.flatMap_cons, run_append, ht, Option.bind_some, ← hsame]
    exact hrest'

end ImdbD.GuardedRun
