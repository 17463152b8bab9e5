import ImdbD.AtomicProgram
import Mathlib.Logic.Relation

/-!
# Invariants of a state that threads share

Threads come up at any time and their actions interleave in any order. An
invariant that every action of every thread keeps, whatever the others have done
in between, holds in every state that is reached.
-/
namespace ImdbD.AtomicProgram
variable {σ α β ι : Type}

namespace Program

/-- Each action of the program keeps `I`, in any state where it is taken, and the result of the
program satisfies `A`. -/
def Keeps (I : σ → Prop) (A : α → Prop) : Program σ α → Prop
  | done a => A a
  | step action next =>
    ∀ s b s', I s → action s = some (b, s') → I s' ∧ (next b).Keeps I A

namespace Keeps
variable {I : σ → Prop} {A A' : α → Prop} {B : β → Prop} {p : Program σ α} {s s' : σ} {a : α}

protected theorem pure (h : A a) : (Pure.pure a : Program σ α).Keeps I A := h

protected theorem atomic {action : Action σ α}
    (h : ∀ s a s', I s → action s = some (a, s') → I s' ∧ A a) : (Program.atomic action).Keeps I A := h

theorem mono (h : p.Keeps I A) (hA : ∀ a, A a → A' a) : p.Keeps I A' := by
  induction p with
  | done a => exact hA a h
  | step action next ih =>
    intro s b s' hs hrun
    exact ⟨(h s b s' hs hrun).1, ih b (h s b s' hs hrun).2⟩

protected theorem bind {q : α → Program σ β} (h : p.Keeps I A) (hq : ∀ a, A a → (q a).Keeps I B) :
    (p >>= q).Keeps I B := by
  induction p with
  | done a => exact hq a h
  | step action next ih =>
    intro s b s' hs hrun
    exact ⟨(h s b s' hs hrun).1, ih b (h s b s' hs hrun).2⟩

theorem discard (h : p.Keeps I A) :
    (do let _ ← p : Program σ Unit).Keeps I (fun _ => True) :=
  h.bind (fun _ _ => trivial)

protected theorem fault : (Program.fault : Program σ α).Keeps I A :=
  .atomic (fun _ _ _ _ hrun => nomatch hrun)

protected theorem fetch {x : Option α} (h : ∀ a, x = some a → A a) : (Program.fetch x).Keeps I A := by
  cases x with
  | none => exact .fault
  | some a => exact h a rfl

/-- Run alone, a program keeps the invariant. -/
theorem run (h : p.Keeps I A) (hs : I s) (hrun : p.run s = some (a, s')) : I s' ∧ A a := by
  induction p generalizing s with
  | done b =>
    cases hrun
    exact ⟨hs, h⟩
  | step action next ih =>
    obtain ⟨⟨b, s₁⟩, haction, hrest⟩ := Option.bind_eq_some_iff.mp hrun
    obtain ⟨hs₁, hnext⟩ := h s b s₁ hs haction
    exact ih b hnext hs₁ hrest

end Keeps
end Program

/-- The threads that are under way and the state that they share. -/
structure Pool (σ : Type) where
  threads : List (Program σ Unit)
  state : σ

namespace Pool

/-- A thread comes up, or one of the threads takes an action. -/
inductive Step (threadOf : Program σ Unit → Prop) : Pool σ → Pool σ → Prop
  | start {p : Program σ Unit} {threads s} (h : threadOf p) :
      Step threadOf ⟨threads, s⟩ ⟨threads ++ [p], s⟩
  | move {γ : Type} {before after s s'} {action : Action σ γ} {next b} (h : action s = some (b, s')) :
      Step threadOf ⟨before ++ .step action next :: after, s⟩ ⟨before ++ next b :: after, s'⟩

/-- Some run of such threads leads from one state to the other. -/
def Reaches (threadOf : Program σ Unit → Prop) (s s' : σ) : Prop :=
  ∃ threads, Relation.ReflTransGen (Step threadOf) ⟨[], s⟩ ⟨threads, s'⟩

variable {threadOf : Program σ Unit → Prop} {I : σ → Prop} {c c' : Pool σ} {s s' s'' : σ}
  {p : Program σ Unit}

/-- The invariant of the state, with threads that keep it. -/
def Keeps (I : σ → Prop) (c : Pool σ) : Prop :=
  I c.state ∧ ∀ p ∈ c.threads, p.Keeps I (fun _ => True)

theorem Step.keeps (h : Step threadOf c c') (hthread : ∀ p, threadOf p → p.Keeps I (fun _ => True))
    (hc : c.Keeps I) : c'.Keeps I := by
  cases h with
  | start hp =>
    refine ⟨hc.1, fun q hq => ?_⟩
    rcases List.mem_append.mp hq with hq | hq
    · exact hc.2 q hq
    · rw [List.mem_singleton.mp hq]
      exact hthread _ hp
  | move haction =>
    have hmoved := hc.2 _ (List.mem_append_right _ List.mem_cons_self)
    obtain ⟨hs, hnext⟩ := hmoved _ _ _ hc.1 haction
    refine ⟨hs, fun q hq => ?_⟩
    rcases List.mem_append.mp hq with hq | hq
    · exact hc.2 q (List.mem_append_left _ hq)
    · rcases List.mem_cons.mp hq with rfl | hq
      · exact hnext
      · exact hc.2 q (List.mem_append_right _ (List.mem_cons_of_mem _ hq))

namespace Reaches

/-- What all threads keep holds in every state reached. -/
theorem invariant (h : Reaches threadOf s s')
    (hthread : ∀ p, threadOf p → p.Keeps I (fun _ => True)) (hs : I s) : I s' := by
  obtain ⟨threads, hsteps⟩ := h
  have hkeeps : ∀ c, Relation.ReflTransGen (Step threadOf) ⟨[], s⟩ c → c.Keeps I := by
    intro c hc
    induction hc with
    | refl => exact ⟨hs, fun p hp => nomatch hp⟩
    | tail _ hstep ih => exact hstep.keeps hthread ih
  exact (hkeeps _ hsteps).1

theorem refl (s : σ) : Reaches threadOf s s := ⟨[], .refl⟩

/-- A thread run alone is one way for it to run. -/
theorem run (h : Reaches threadOf s s') (hp : threadOf p) (hrun : p.run s' = some ((), s'')) :
    Reaches threadOf s s'' := by
  obtain ⟨threads, hsteps⟩ := h
  have hmoves : ∀ (q : Program σ Unit) (u : σ), q.run u = some ((), s'') → ∃ q',
      Relation.ReflTransGen (Step threadOf) ⟨threads ++ [q], u⟩ ⟨threads ++ [q'], s''⟩ := by
    intro q
    induction q with
    | done a =>
      intro u hq
      cases hq
      exact ⟨_, .refl⟩
    | step action next ih =>
      intro u hq
      obtain ⟨⟨b, u'⟩, haction, hrest⟩ := Option.bind_eq_some_iff.mp hq
      obtain ⟨q', hq'⟩ := ih b u' hrest
      exact ⟨q', .head (.move haction) hq'⟩
  obtain ⟨q', hq'⟩ := hmoves p s' hrun
  exact ⟨_, (hsteps.tail (.start hp)).trans hq'⟩

end Reaches
end Pool
end ImdbD.AtomicProgram
