import Mathlib.Algebra.GroupWithZero.Nat
import Mathlib.Data.Option.Basic
import Mathlib.Logic.Basic

/-!
# Runs of a partial step function

A step may fail, which stands for behaviour that is not defined. A run is judged
in two ways: whether each of its steps meets a condition on the state it starts
from, and whether each of its steps succeeds with a property of the transition.
An invariant turns the first into the second; where the property forces the
condition back, the two agree on every run.
-/
namespace ImdbD.GuardedRun
variable {σ ο α : Type*} {step : σ → ο → Option σ}

/-- The state after a list of operations. -/
def run (step : σ → ο → Option σ) : σ → List ο → Option σ
  | s, [] => some s
  | s, o :: os => (step s o).bind (fun s' => run step s' os)

/-- Every operation of the run meets a condition on the state it starts from. -/
def Meets (step : σ → ο → Option σ) (C : σ → ο → Prop) : σ → List ο → Prop
  | _, [] => True
  | s, o :: os => C s o ∧ ∀ s', step s o = some s' → Meets step C s' os

/-- Every operation of the run succeeds, and its transition has the property. -/
def Holds (step : σ → ο → Option σ) (T : σ → ο → σ → Prop) : σ → List ο → Prop
  | _, [] => True
  | s, o :: os => ∃ s', step s o = some s' ∧ T s o s' ∧ Holds step T s' os

/-- Whether a run meets a decidable condition can be computed. -/
instance decidableMeets (C : σ → ο → Prop) [∀ s o, Decidable (C s o)] :
    ∀ s os, Decidable (Meets step C s os)
  | _, [] => isTrue trivial
  | s, o :: os =>
    match h : step s o with
    | none => decidable_of_iff (C s o) (by simp [Meets, h])
    | some s' =>
      have := decidableMeets C s' os
      decidable_of_iff (C s o ∧ Meets step C s' os) (by simp [Meets, h])

/-- What holds of a run's last transition. -/
theorem Holds.last {T : σ → ο → σ → Prop} {s : σ} {os : List ο} {o : ο}
    (h : Holds step T s (os ++ [o])) :
    ∃ t t', run step s os = some t ∧ run step s (os ++ [o]) = some t' ∧ T t o t' := by
  induction os generalizing s with
  | nil =>
    obtain ⟨s', hs, ht, -⟩ := h
    exact ⟨s, s', rfl, by simp [run, hs], ht⟩
  | cons b os ih =>
    obtain ⟨s', hs, -, hrest⟩ := h
    obtain ⟨t, t', hrun, hrun', ht⟩ := ih hrest
    exact ⟨t, t', by simp [run, hs, hrun], by simp [run, hs, hrun'], ht⟩

/-- The invariant rule: steps that meet the condition keep the invariant and have the property. -/
theorem Meets.holds {C : σ → ο → Prop} {T : σ → ο → σ → Prop} {I : σ → Prop}
    (hstep : ∀ s o, I s → C s o → ∃ s', step s o = some s' ∧ T s o s' ∧ I s')
    {s : σ} {os : List ο} (hs : I s) (h : Meets step C s os) : Holds step T s os := by
  induction os generalizing s with
  | nil => trivial
  | cons o os ih =>
    obtain ⟨hc, hrest⟩ := h
    obtain ⟨s', ho, ht, hs'⟩ := hstep s o hs hc
    exact ⟨s', ho, ht, ih hs' (hrest s' ho)⟩

/-- Such steps carry the run, and the invariant, to its end. -/
theorem Meets.run_keeps {C : σ → ο → Prop} {I : σ → Prop}
    (hstep : ∀ s o, I s → C s o → ∃ s', step s o = some s' ∧ I s')
    {s : σ} {os : List ο} (hs : I s) (h : Meets step C s os) : ∃ s', run step s os = some s' ∧ I s' := by
  induction os generalizing s with
  | nil => exact ⟨s, rfl, hs⟩
  | cons o os ih =>
    obtain ⟨hc, hrest⟩ := h
    obtain ⟨t, ho, ht⟩ := hstep s o hs hc
    obtain ⟨s', hrun, hs'⟩ := ih ht (hrest t ho)
    exact ⟨s', by rw [run, ho, Option.bind_some, hrun], hs'⟩

theorem Meets.of_forall {C : σ → ο → Prop} (h : ∀ s o, C s o) {s : σ} {os : List ο} :
    Meets step C s os := by
  induction os generalizing s with
  | nil => trivial
  | cons o os ih => exact ⟨h s o, fun s' _ => ih⟩

theorem Meets.and {C D : σ → ο → Prop} {s : σ} {os : List ο} (h : Meets step C s os)
    (h' : Meets step D s os) : Meets step (fun s o => C s o ∧ D s o) s os := by
  induction os generalizing s with
  | nil => trivial
  | cons o os ih => exact ⟨⟨h.1, h'.1⟩, fun s' hs => ih (h.2 s' hs) (h'.2 s' hs)⟩

/-- The exact condition: on valid runs the property holds throughout if and only if every step
meets the condition, when an invariant makes the condition sufficient and the property of one
transition makes it necessary. -/
theorem holds_iff_meets {V C : σ → ο → Prop} {T : σ → ο → σ → Prop} {I : σ → Prop}
    (hstep : ∀ s o, I s → V s o → C s o → ∃ s', step s o = some s' ∧ T s o s' ∧ I s')
    (hback : ∀ s o s', I s → V s o → step s o = some s' → T s o s' → C s o)
    {s : σ} {os : List ο} (hs : I s) (hv : Meets step V s os) :
    Holds step T s os ↔ Meets step C s os := by
  constructor
  · intro h
    induction os generalizing s with
    | nil => trivial
    | cons o os ih =>
      obtain ⟨s', ho, ht, hrest⟩ := h
      have hc := hback s o s' hs hv.1 ho ht
      refine ⟨hc, fun t hto => ?_⟩
      obtain ⟨u, hu, -, hinv⟩ := hstep s o hs hv.1 hc
      rw [ho] at hto hu
      cases hto
      cases hu
      exact ih hinv (hv.2 s' ho) hrest
  · intro h
    exact (hv.and h).holds (fun s o hi hc => hstep s o hi hc.1 hc.2) hs

/-- Forward simulation: as long as the abstract machine runs, the concrete one does, and they stay
related. -/
theorem run_simulates {astep : α → ο → Option α} {R : σ → α → Prop}
    (hstep : ∀ s a o a', R s a → astep a o = some a' → ∃ s', step s o = some s' ∧ R s' a')
    {s : σ} {a a' : α} {os : List ο} (h : R s a) (ha : run astep a os = some a') :
    ∃ s', run step s os = some s' ∧ R s' a' := by
  induction os generalizing s a with
  | nil =>
    cases ha
    exact ⟨s, rfl, h⟩
  | cons o os ih =>
    simp only [run, Option.bind_eq_some_iff] at ha
    obtain ⟨b, hb, hrest⟩ := ha
    obtain ⟨t, ht, hR⟩ := hstep s a o b h hb
    obtain ⟨s', hs', hR'⟩ := ih hR hrest
    exact ⟨s', by simp [run, ht, hs'], hR'⟩

section Keeps
variable {I : σ → Prop} {P : ο → Prop} {s s' : σ} {os : List ο}

/-- What each operation keeps, the run keeps. -/
theorem run_keeps (hkeep : ∀ {s o s'}, I s → P o → step s o = some s' → I s') (hs : I s)
    (hall : ∀ o ∈ os, P o) (hrun : run step s os = some s') : I s' := by
  induction os generalizing s with
  | nil =>
    cases hrun
    exact hs
  | cons o os ih =>
    obtain ⟨t, ht, hrest⟩ := Option.bind_eq_some_iff.mp hrun
    obtain ⟨ho, hos⟩ := List.forall_mem_cons.mp hall
    exact ih (hkeep hs ho ht) hos hrest

/-- Operations that use up a measure, or bring more of it, bound the run. -/
theorem length_add_le {left : σ → ℕ} {brings : ο → ℕ}
    (hkeep : ∀ {s o s'}, I s → P o → step s o = some s' → I s')
    (huse : ∀ {s o s'}, I s → P o → step s o = some s' → left s' + 1 ≤ left s + brings o) (hs : I s)
    (hall : ∀ o ∈ os, P o) (hrun : run step s os = some s') :
    os.length + left s' ≤ left s + (os.map brings).sum := by
  induction os generalizing s with
  | nil =>
    cases hrun
    simp
  | cons o os ih =>
    obtain ⟨t, ht, hrest⟩ := Option.bind_eq_some_iff.mp hrun
    obtain ⟨ho, hos⟩ := List.forall_mem_cons.mp hall
    have hone := huse hs ho ht
    have hmore := ih (hkeep hs ho ht) hos hrest
    rw [List.length_cons, List.map_cons, List.sum_cons]
    omega

/-- A log to which each operation adds what it has to say. -/
theorem run_logs {log : σ → List α} {adds : ο → Option α}
    (hlog : ∀ {s o s'}, step s o = some s' → log s' = log s ++ (adds o).toList)
    (hrun : run step s os = some s') : log s' = log s ++ os.filterMap adds := by
  induction os generalizing s with
  | nil =>
    cases hrun
    exact (List.append_nil _).symm
  | cons o os ih =>
    obtain ⟨t, ht, hrest⟩ := Option.bind_eq_some_iff.mp hrun
    rw [ih hrest, hlog ht, List.append_assoc]
    cases ho : adds o with
    | none => rw [List.filterMap_cons_none ho, Option.toList_none, List.nil_append]
    | some a => rw [List.filterMap_cons_some ho, Option.toList_some, List.singleton_append]

end Keeps

end ImdbD.GuardedRun
