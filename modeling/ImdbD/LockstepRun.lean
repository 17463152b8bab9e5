import ImdbD.AtomicProgram
import Mathlib.Data.List.Forall2

/-!
# Two programs run beside each other

`Follows` says that one program comes to an end whenever the other does, with
results and states that are related, and that on the way its actions get related
answers. The rules take both programs apart at the same places.
-/
namespace ImdbD.AtomicProgram

/-- What an action has returned. -/
abbrev Answer : Type 1 := Σ β : Type, β

namespace Program
variable {σ τ σ' τ' α β γ δ ι : Type}

/-- What the actions of a run return, in their order. -/
def answers : Program σ α → σ → List Answer
  | done _, _ => []
  | @step _ _ β action next, s =>
    match action s with
    | none => []
    | some r => ⟨β, r.1⟩ :: (next r.1).answers r.2

@[simp] theorem answers_pure (a : α) (s : σ) : (pure a : Program σ α).answers s = [] := rfl

theorem answers_bind {p : Program σ α} {f : α → Program σ β} {s s' : σ} {a : α}
    (h : p.run s = some (a, s')) : (p >>= f).answers s = p.answers s ++ (f a).answers s' := by
  induction p generalizing s with
  | done b =>
    cases h
    rfl
  | step action next ih =>
    obtain ⟨⟨b, s₁⟩, h₁, h₂⟩ := Option.bind_eq_some_iff.mp h
    change (step action fun b => next b >>= f).answers s = (step action next).answers s ++ _
    simp only [answers, h₁, List.cons_append]
    exact congrArg _ (ih b h₂)

theorem answers_atomic {action : Action σ α} {s s' : σ} {a : α} (h : action s = some (a, s')) :
    (atomic action).answers s = [⟨α, a⟩] := by
  simp only [atomic, answers, h]

theorem answers_onFst (p : Program σ α) (s : σ) (t : τ) : p.onFst.answers (s, t) = p.answers s := by
  induction p generalizing s with
  | done a => rfl
  | step action next ih =>
    simp only [onFst, answers]
    cases action s with
    | none => rfl
    | some r => exact congrArg _ (ih r.1 r.2)

theorem answers_onSnd (p : Program τ α) (s : σ) (t : τ) : p.onSnd.answers (s, t) = p.answers t := by
  induction p generalizing t with
  | done a => rfl
  | step action next ih =>
    simp only [onSnd, answers]
    cases action t with
    | none => rfl
    | some r => exact congrArg _ (ih r.1 r.2)

private theorem forall₂_trans {xs ys zs : List Answer} {A A' : Answer → Answer → Prop}
    (h : List.Forall₂ A xs ys) (h' : List.Forall₂ A' ys zs) :
    List.Forall₂ (fun x z => ∃ y, A x y ∧ A' y z) xs zs := by
  induction h generalizing zs with
  | nil =>
    cases h'
    exact .nil
  | cons hxy _ ih =>
    cases h' with
    | cons hyz hrest => exact .cons ⟨_, hxy, hyz⟩ (ih hrest)

/-- Whenever `q` ends from `t`, `p` ends from `s`, with `Q` between the results and the states and
with `A` between the answers. -/
def Follows (A : Answer → Answer → Prop) (p : Program σ α) (s : σ) (q : Program τ β) (t : τ)
    (Q : α → σ → β → τ → Prop) : Prop :=
  ∀ b t', q.run t = some (b, t') →
    (∃ a s', p.run s = some (a, s') ∧ Q a s' b t') ∧ List.Forall₂ A (p.answers s) (q.answers t)

namespace Follows
variable {A : Answer → Answer → Prop} {p : Program σ α} {q : Program τ β} {s s₁ : σ} {t t₁ : τ}
  {a : α} {b : β} {Q R : α → σ → β → τ → Prop}

protected theorem pure (h : Q a s b t) : Follows A (Pure.pure a) s (Pure.pure b) t Q := by
  intro b' t' ht
  cases ht
  exact ⟨⟨a, s, rfl, h⟩, .nil⟩

/-- A program that fails is followed by any other. -/
theorem of_none (hq : q.run t = none) : Follows A p s q t Q := by
  intro b' t' ht
  rw [hq] at ht
  cases ht

theorem mono (h : Follows A p s q t R) (hq : ∀ a s b t, R a s b t → Q a s b t) :
    Follows A p s q t Q := by
  intro b t' ht
  obtain ⟨⟨a, s', hs, hr⟩, hanswers⟩ := h b t' ht
  exact ⟨⟨a, s', hs, hq _ _ _ _ hr⟩, hanswers⟩

protected theorem bind {f : α → Program σ γ} {g : β → Program τ δ} {Q : γ → σ → δ → τ → Prop}
    (h : Follows A p s q t R) (hf : ∀ a s b t, R a s b t → Follows A (f a) s (g b) t Q) :
    Follows A (p >>= f) s (q >>= g) t Q := by
  intro d t' ht
  obtain ⟨b, t₁, hq, hg⟩ := run_bind_eq_some.mp ht
  obtain ⟨⟨a, s₁, hp, hr⟩, hanswers⟩ := h b t₁ hq
  obtain ⟨⟨c, s', hrun, hc⟩, hrest⟩ := hf a s₁ b t₁ hr d t' hg
  refine ⟨⟨c, s', run_bind_eq_some.mpr ⟨a, s₁, hp, hrun⟩, hc⟩, ?_⟩
  rw [answers_bind hp, answers_bind hq]
  exact List.rel_append hanswers hrest

protected theorem atomic {f : Action σ α} {g : Action τ β}
    (h : ∀ b t', g t = some (b, t') →
      ∃ a s', f s = some (a, s') ∧ Q a s' b t' ∧ A ⟨α, a⟩ ⟨β, b⟩) :
    Follows A (.atomic f) s (.atomic g) t Q := by
  intro b t' ht
  rw [run_atomic] at ht
  obtain ⟨a, s', hf, hq, ha⟩ := h b t' ht
  rw [answers_atomic hf, answers_atomic ht]
  exact ⟨⟨a, s', by rw [run_atomic, hf], hq⟩, .cons ha .nil⟩

protected theorem assert {c d : Bool} (hc : d = true → c = true) {Q : Unit → σ → Unit → τ → Prop}
    (h : d = true → Q () s () t) : Follows A (Program.assert c) s (Program.assert d) t Q := by
  cases d with
  | false => exact of_none (by simp)
  | true =>
    rw [hc rfl]
    exact .pure (h rfl)

protected theorem fetch {x : Option α} {y : Option β} (h : ∀ b, y = some b → ∃ a, x = some a ∧ Q a s b t) :
    Follows A (Program.fetch x) s (Program.fetch y) t Q := by
  cases y with
  | none => exact of_none (by simp)
  | some b =>
    obtain ⟨a, rfl, hq⟩ := h b rfl
    exact .pure hq

/-- The elements of two lists at one position. -/
theorem fetch_forall₂ {P : α → β → Prop} {xs : List α} {ys : List β} (h : List.Forall₂ P xs ys) (i : ℕ) :
    Follows A (Program.fetch xs[i]?) s (Program.fetch ys[i]?) t
      (fun x s' y t' => P x y ∧ s' = s ∧ t' = t) := by
  refine .fetch (fun y hy => ?_)
  obtain ⟨hlt, rfl⟩ := List.getElem?_eq_some_iff.mp hy
  have hlt' : i < xs.length := by
    rw [h.length_eq]
    exact hlt
  exact ⟨xs[i], List.getElem?_eq_getElem hlt', h.get hlt' hlt, rfl, rfl⟩

/-- First parts with one result that leave the states alone. -/
theorem read_bind {p : Program σ α} {q : Program τ α} {f : α → Program σ γ} {g : α → Program τ δ}
    {Q : γ → σ → δ → τ → Prop}
    (h : Follows A p s q t (fun x s' y t' => x = y ∧ s' = s ∧ t' = t))
    (hf : ∀ x, Follows A (f x) s (g x) t Q) : Follows A (p >>= f) s (q >>= g) t Q := by
  refine .bind h ?_
  rintro x _ _ _ ⟨rfl, rfl, rfl⟩
  exact hf x

theorem assert_bind {c d : Bool} (hc : d = true → c = true) {f : Unit → Program σ γ}
    {g : Unit → Program τ δ} {Q : γ → σ → δ → τ → Prop} (h : Follows A (f ()) s (g ()) t Q) :
    Follows A (Program.assert c >>= f) s (Program.assert d >>= g) t Q := by
  refine .bind (R := fun _ s' _ t' => s' = s ∧ t' = t) (.assert hc (fun _ => ⟨rfl, rfl⟩)) ?_
  rintro _ _ _ _ ⟨rfl, rfl⟩
  exact h

/-- A check that holds on the first side only. -/
theorem assert_left {c : Bool} (hc : c = true) {f : Unit → Program σ γ}
    {Q : γ → σ → β → τ → Prop} (h : Follows A (f ()) s q t Q) :
    Follows A (Program.assert c >>= f) s q t Q := by
  subst hc
  exact h

theorem fetch_bind {x : Option α} {f : α → Program σ γ} {g : α → Program τ δ}
    {Q : γ → σ → δ → τ → Prop} (h : ∀ a, Follows A (f a) s (g a) t Q) :
    Follows A (Program.fetch x >>= f) s (Program.fetch x >>= g) t Q :=
  read_bind (.fetch (fun b hb => ⟨b, hb, rfl, rfl, rfl⟩)) h

protected theorem each {f : ι → Program σ Unit} {g : ι → Program τ Unit} {I : σ → τ → Prop}
    {as : List ι} (hround : ∀ a ∈ as, ∀ s t, I s t → Follows A (f a) s (g a) t (fun _ s _ t => I s t))
    (h : I s t) : Follows A (Program.each f as) s (Program.each g as) t (fun _ s _ t => I s t) := by
  induction as generalizing s t with
  | nil => exact .pure h
  | cons a as ih =>
    refine .bind (hround a List.mem_cons_self s t h) (fun _ s₁ _ t₁ h₁ => ?_)
    exact ih (fun a' ha => hround a' (List.mem_cons_of_mem _ ha)) h₁

/-- Two loops over one list that give the same results. -/
protected theorem collect {f : ι → Program σ α} {g : ι → Program τ α} {I : σ → τ → Prop}
    {as : List ι}
    (hround : ∀ a ∈ as, ∀ s t, I s t → Follows A (f a) s (g a) t (fun x s y t => x = y ∧ I s t))
    (h : I s t) :
    Follows A (Program.collect f as) s (Program.collect g as) t (fun x s y t => x = y ∧ I s t) := by
  induction as generalizing s t with
  | nil => exact .pure ⟨rfl, h⟩
  | cons a as ih =>
    refine .bind (hround a List.mem_cons_self s t h) ?_
    rintro x s₁ _ t₁ ⟨rfl, h₁⟩
    refine .bind (ih (fun a' ha => hround a' (List.mem_cons_of_mem _ ha)) h₁) ?_
    rintro xs s₂ _ t₂ ⟨rfl, h₂⟩
    exact .pure ⟨rfl, h₂⟩

/-- Two loops over lists whose elements go together. -/
theorem collect₂ {κ : Type} {f : ι → Program σ α} {g : κ → Program τ β} {S : ι → κ → Prop}
    {P : α → β → Prop} {I : σ → τ → Prop} {as : List ι} {bs : List κ} (hab : List.Forall₂ S as bs)
    (hround : ∀ a b, S a b → ∀ s t, I s t →
      Follows A (f a) s (g b) t (fun x s y t => P x y ∧ I s t)) (h : I s t) :
    Follows A (Program.collect f as) s (Program.collect g bs) t
      (fun xs s ys t => List.Forall₂ P xs ys ∧ I s t) := by
  induction hab generalizing s t with
  | nil => exact .pure ⟨.nil, h⟩
  | cons hab _ ih =>
    refine .bind (hround _ _ hab s t h) (fun x s₁ y t₁ h₁ => ?_)
    refine .bind (ih h₁.2) (fun xs s₂ ys t₂ h₂ => ?_)
    exact .pure ⟨.cons h₁.1 h₂.1, h₂.2⟩

/-- What is known of the first program alone. -/
theorem and_left {P : α → σ → Prop} (h : Follows A p s q t Q)
    (hp : ∀ a s', p.run s = some (a, s') → P a s') :
    Follows A p s q t (fun a s' b t' => Q a s' b t' ∧ P a s') := by
  intro b t' ht
  obtain ⟨⟨a, s', hs, hq⟩, hanswers⟩ := h b t' ht
  exact ⟨⟨a, s', hs, hq, hp a s' hs⟩, hanswers⟩

/-- What is known of the second program alone. -/
theorem and_right {P : β → τ → Prop} (h : Follows A p s q t Q)
    (hp : ∀ b t', q.run t = some (b, t') → P b t') :
    Follows A p s q t (fun a s' b t' => Q a s' b t' ∧ P b t') := by
  intro b t' ht
  obtain ⟨⟨a, s', hs, hq⟩, hanswers⟩ := h b t' ht
  exact ⟨⟨a, s', hs, hq, hp b t' ht⟩, hanswers⟩

theorem weaken {A' : Answer → Answer → Prop} (h : Follows A p s q t Q) (hA : ∀ x y, A x y → A' x y) :
    Follows A' p s q t Q := by
  intro b t' ht
  obtain ⟨hrun, hanswers⟩ := h b t' ht
  exact ⟨hrun, hanswers.imp hA⟩

/-- A program that follows one that follows a third. -/
protected theorem trans {υ : Type} {A' : Answer → Answer → Prop} {r : Program υ γ} {u : υ}
    {Q' : β → τ → γ → υ → Prop} (h : Follows A p s q t Q) (h' : Follows A' q t r u Q') :
    Follows (fun x z => ∃ y, A x y ∧ A' y z) p s r u
      (fun a s' c u' => ∃ b t', Q a s' b t' ∧ Q' b t' c u') := by
  intro c u' hu
  obtain ⟨⟨b, t', hq, hq'⟩, hanswers'⟩ := h' c u' hu
  obtain ⟨⟨a, s', hp, hqa⟩, hanswers⟩ := h b t' hq
  exact ⟨⟨a, s', hp, b, t', hqa, hq'⟩, forall₂_trans hanswers hanswers'⟩

theorem refl (hA : ∀ x, A x x) (p : Program σ α) (s : σ) :
    Follows A p s p s (fun a s' b t' => a = b ∧ s' = t') :=
  fun b t' ht => ⟨⟨b, t', ht, rfl, rfl⟩, List.forall₂_same.mpr (fun x _ => hA x)⟩

theorem onSnd {p : Program σ' α} {q : Program τ' β} {u : σ'} {v : τ'} {Q : α → σ' → β → τ' → Prop}
    (h : Follows A p u q v Q) :
    Follows A p.onSnd (s, u) q.onSnd (t, v)
      (fun a s' b t' => Q a s'.2 b t'.2 ∧ s'.1 = s ∧ t'.1 = t) := by
  intro b t' ht
  obtain ⟨ht, hv⟩ := run_onSnd_eq_some.mp ht
  obtain ⟨⟨a, s', hp, hr⟩, hanswers⟩ := h _ _ ht
  refine ⟨⟨a, (s, s'), run_onSnd_eq_some.mpr ⟨hp, rfl⟩, hr, rfl, hv⟩, ?_⟩
  rwa [answers_onSnd, answers_onSnd]

theorem onFst {u : σ'} {v : τ'} (h : Follows A p s q t Q) :
    Follows A p.onFst (s, u) q.onFst (t, v)
      (fun a s' b t' => Q a s'.1 b t'.1 ∧ s'.2 = u ∧ t'.2 = v) := by
  intro b t' ht
  obtain ⟨ht, hv⟩ := run_onFst_eq_some.mp ht
  obtain ⟨⟨a, s', hp, hr⟩, hanswers⟩ := h _ _ ht
  refine ⟨⟨a, (s', u), run_onFst_of hp u, hr, rfl, hv⟩, ?_⟩
  rwa [answers_onFst, answers_onFst]

end Follows
end Program
end ImdbD.AtomicProgram
