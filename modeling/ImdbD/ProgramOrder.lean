import ImdbD.Footprint
import Mathlib.Data.List.Forall2

/-!
# Programs that expect a result

A program that checks more than another does the same where it does not fail.
One that expects the result of a part fails when it gets a different one.
-/
namespace ImdbD.AtomicProgram.Program
variable {σ α β L : Type}

/-- Where the first program does not fail, the second does the same. -/
instance : LE (Program σ α) := ⟨fun p q => ∀ s r, p.run s = some r → q.run s = some r⟩

theorem le_rfl {p : Program σ α} : p ≤ p := fun _ _ h => h

theorem bind_le {p p' : Program σ α} {f f' : α → Program σ β} (h : p ≤ p') (hf : ∀ a, f a ≤ f' a) :
    p >>= f ≤ p' >>= f' := by
  intro s r hrun
  obtain ⟨a, t, hp, hrest⟩ := run_bind_eq_some.mp hrun
  exact run_bind_eq_some.mpr ⟨a, t, h s _ hp, hf a t r hrest⟩

theorem assert_bind_le {b : Bool} {p q : Program σ β} (h : p ≤ q) :
    (assert b >>= fun _ => p) ≤ q := by
  intro s r hrun
  cases b with
  | true => exact h s r hrun
  | false => cases hrun

/-- Before a program there may be a look at the state. -/
theorem look_bind_le {p : Program σ α} {f : α → Program σ β} {q : Program σ β}
    (h : ∀ s a t, p.run s = some (a, t) → t = s) (hf : ∀ a, f a ≤ q) : p >>= f ≤ q := by
  intro s r hrun
  obtain ⟨a, t, hp, hrest⟩ := run_bind_eq_some.mp hrun
  obtain rfl := h s a t hp
  exact hf a t r hrest

/-- Loops over lists whose elements belong together. -/
theorem each_le {f : α → Program σ Unit} {g : β → Program σ Unit} {as : List α} {bs : List β}
    (h : List.Forall₂ (fun a b => f a ≤ g b) as bs) : each f as ≤ each g bs := by
  induction h with
  | nil => exact le_rfl
  | cons hab _ ih => exact bind_le hab (fun _ => ih)

theorem run_assert_eq_some {b : Bool} {s s' : σ} {u : Unit}
    (h : (assert b : Program σ Unit).run s = some (u, s')) : b = true ∧ s' = s := by
  cases b with
  | true =>
    cases h
    exact ⟨rfl, rfl⟩
  | false => cases h

/-- A program that is expected to return `a`. -/
def expecting [DecidableEq α] (p : Program σ α) (a : α) (f : α → Program σ β) : Program σ β := do
  let b ← p
  assert (b = a)
  f a

theorem expecting_le [DecidableEq α] {p : Program σ α} {a : α} {f f' : α → Program σ β}
    (h : f a ≤ f' a) : p.expecting a f ≤ p >>= f' := by
  refine bind_le le_rfl (fun b s r hrun => ?_)
  by_cases hb : b = a
  · subst hb
    exact assert_bind_le h s r hrun
  · simp [hb] at hrun

theorem run_expecting [DecidableEq α] {p : Program σ α} {a : α} {f : α → Program σ β} {s t : σ}
    (h : p.run s = some (a, t)) : (p.expecting a f).run s = (f a).run t := by
  simp [expecting, h]

/-- What an expected result leads to. -/
theorem run_expecting_eq_some [DecidableEq α] {p : Program σ α} {a : α} {f : α → Program σ β}
    {s s' : σ} {b : β} (h : (p.expecting a f).run s = some (b, s')) :
    ∃ t, p.run s = some (a, t) ∧ (f a).run t = some (b, s') := by
  obtain ⟨a', t, hp, hthen⟩ := run_bind_eq_some.mp h
  obtain ⟨_, t', hassert, hf⟩ := run_bind_eq_some.mp hthen
  obtain ⟨he, rfl⟩ := run_assert_eq_some hassert
  obtain rfl := of_decide_eq_true he
  exact ⟨t', hp, hf⟩

namespace Ensures
variable {ok : Prop} {p : Program σ α} {s s' : σ} {a : α}

theorem expecting [DecidableEq α] {f : α → Program σ β} {Q : β → σ → Prop}
    (h : p.run s = some (a, s')) (hf : Ensures ok (f a) s' Q) : Ensures ok (p.expecting a f) s Q := by
  unfold Ensures
  rw [run_expecting h]
  exact hf

theorem assert_bind {b : Bool} {q : Program σ β} {Q : β → σ → Prop} (hb : b = true)
    (hq : Ensures ok q s Q) : Ensures ok (assert b >>= fun _ => q) s Q := by
  subst hb
  exact hq

end Ensures

theorem Within.expecting [DecidableEq α] {F : Places σ L} {f : Footprint L} {p : Program σ α} {a : α}
    {q : α → Program σ β} (h : p.Within F f) (hq : (q a).Within F f) :
    (p.expecting a q).Within F f :=
  .bind h (fun _ => .bind (.assert _) (fun _ => hq))

end ImdbD.AtomicProgram.Program
