import Mathlib.Data.Option.Basic
import Mathlib.Logic.Basic

/-!
# Programs whose steps are atomic

A program over a shared state is a tree of actions. Each action reads and
changes the state at once and may fail; what follows depends on its result only.
Run alone, a program is itself one large action.
-/
namespace ImdbD.AtomicProgram

/-- What one step does: a result and the next state, or failure. -/
abbrev Action (σ α : Type) := σ → Option (α × σ)

inductive Program (σ α : Type) : Type 1 where
  | done (a : α)
  | step {β : Type} (action : Action σ β) (next : β → Program σ α)

namespace Program
variable {σ τ α β γ : Type}

def bind : Program σ α → (α → Program σ β) → Program σ β
  | done a, f => f a
  | step action next, f => step action (fun b => (next b).bind f)

instance : Monad (Program σ) where
  pure := done
  bind := bind

theorem bind_pure (p : Program σ α) : p >>= pure = p := by
  induction p with
  | done a => rfl
  | step action next ih =>
    change step action (fun b => next b >>= pure) = step action next
    congr 1
    funext b
    exact ih b

theorem bind_assoc (p : Program σ α) (f : α → Program σ β) (g : β → Program σ γ) :
    p >>= f >>= g = p >>= fun a => f a >>= g := by
  induction p with
  | done a => rfl
  | step action next ih =>
    change step action (fun b => next b >>= f >>= g) = step action (fun b => next b >>= fun a => f a >>= g)
    congr 1
    funext b
    exact ih b

/-- One action. -/
def atomic (action : Action σ α) : Program σ α := step action done

/-- A failed assertion, or a use of `NULL`. -/
def fault : Program σ α := atomic (fun _ => none)

def assert (b : Bool) : Program σ Unit := if b then pure () else fault

/-- `xs.at(i)`: an index out of range is a fault. -/
def fetch : Option α → Program σ α
  | some a => pure a
  | none => fault

/-- One program after the other, for every element of a list. -/
def each (f : α → Program σ Unit) : List α → Program σ Unit
  | [] => pure ()
  | a :: as => do
    f a
    each f as

/-- As `each`, with the list of results. -/
def collect (f : α → Program σ β) : List α → Program σ (List β)
  | [] => pure []
  | a :: as => do
    let b ← f a
    let bs ← collect f as
    return b :: bs

/-- The program run alone, from beginning to end. -/
def run : Program σ α → Action σ α
  | done a, s => some (a, s)
  | step action next, s => (action s).bind (fun r => (next r.1).run r.2)

@[simp] theorem run_pure (a : α) (s : σ) : (pure a : Program σ α).run s = some (a, s) := rfl

@[simp] theorem run_done (a : α) (s : σ) : (done a : Program σ α).run s = some (a, s) := rfl

@[simp] theorem run_bind (p : Program σ α) (f : α → Program σ β) (s : σ) :
    (p >>= f).run s = (p.run s).bind (fun r => (f r.1).run r.2) := by
  induction p generalizing s with
  | done a => rfl
  | step action next ih =>
    change (action s).bind (fun r => ((next r.1) >>= f).run r.2) = _
    simp only [ih, run, Option.bind_assoc]

theorem run_bind_eq_some {p : Program σ α} {f : α → Program σ β} {s s' : σ} {b : β} :
    (p >>= f).run s = some (b, s') ↔
      ∃ a t, p.run s = some (a, t) ∧ (f a).run t = some (b, s') := by
  simp [Option.bind_eq_some_iff]

@[simp] theorem run_atomic (action : Action σ α) (s : σ) : (atomic action).run s = action s := by
  change (action s).bind (fun r => some (r.1, r.2)) = action s
  cases action s <;> rfl

@[simp] theorem run_fault (s : σ) : (fault : Program σ α).run s = none := by
  simp [fault]

@[simp] theorem run_assert (b : Bool) (s : σ) :
    (assert b : Program σ Unit).run s = if b then some ((), s) else none := by
  cases b <;> simp [assert]

@[simp] theorem run_fetch (a : Option α) (s : σ) :
    (fetch a : Program σ α).run s = a.map (fun a => (a, s)) := by
  cases a <;> simp [fetch]

@[simp] theorem run_each_nil (f : α → Program σ Unit) (s : σ) :
    (each f []).run s = some ((), s) := rfl

@[simp] theorem run_each_cons (f : α → Program σ Unit) (a : α) (as : List α) (s : σ) :
    (each f (a :: as)).run s = ((f a).run s).bind (fun r => (each f as).run r.2) := by
  simp [each]

theorem each_cons (f : α → Program σ Unit) (a : α) (as : List α) :
    each f (a :: as) = do { f a; each f as } := rfl

theorem each_append (f : α → Program σ Unit) (as bs : List α) :
    each f (as ++ bs) = do { each f as; each f bs } := by
  induction as with
  | nil => rfl
  | cons a as ih =>
    change (do { f a; each f (as ++ bs) }) = (do { f a; each f as }) >>= fun _ => each f bs
    rw [ih, bind_assoc]

theorem each_map (f : β → Program σ Unit) (g : α → β) (as : List α) :
    each f (as.map g) = each (fun a => f (g a)) as := by
  induction as with
  | nil => rfl
  | cons a as ih => exact congrArg (fun p => do { f (g a); p }) ih

theorem each_congr {f g : α → Program σ Unit} {as : List α} (h : ∀ a ∈ as, f a = g a) :
    each f as = each g as := by
  induction as with
  | nil => rfl
  | cons a as ih =>
    rw [each_cons, each_cons, h a List.mem_cons_self,
      ih (fun b hb => h b (List.mem_cons_of_mem a hb))]

theorem each_flatMap (f : β → Program σ Unit) (g : α → List β) (as : List α) :
    each f (as.flatMap g) = each (fun a => each f (g a)) as := by
  induction as with
  | nil => rfl
  | cons a as ih =>
    rw [List.flatMap_cons, each_append, ih]
    rfl

theorem length_of_collect {f : α → Program σ β} {as : List α} {bs : List β} {s s' : σ}
    (h : (collect f as).run s = some (bs, s')) : bs.length = as.length := by
  induction as generalizing bs s with
  | nil =>
    cases h
    rfl
  | cons a as ih =>
    obtain ⟨b, t, -, h⟩ := run_bind_eq_some.mp h
    obtain ⟨cs, t', h, he⟩ := run_bind_eq_some.mp h
    cases he
    rw [List.length_cons, List.length_cons, ih h]

/-- The program never fails. -/
def Total (p : Program σ α) : Prop := ∀ s, ∃ a s', p.run s = some (a, s')

theorem Total.pure (a : α) : (Pure.pure a : Program σ α).Total := fun s => ⟨a, s, rfl⟩

theorem Total.atomic {action : Action σ α} (h : ∀ s, ∃ a s', action s = some (a, s')) :
    (atomic action).Total := fun s => by
  simpa using h s

theorem Total.bind {p : Program σ α} {f : α → Program σ β} (hp : p.Total) (hf : ∀ a, (f a).Total) :
    (p >>= f).Total := fun s => by
  obtain ⟨a, s₁, hrun⟩ := hp s
  obtain ⟨b, s₂, hrun₂⟩ := hf a s₁
  exact ⟨b, s₂, by simp [hrun, hrun₂]⟩

theorem Total.collect {f : α → Program σ β} (hf : ∀ a, (f a).Total) (as : List α) :
    (collect f as).Total := by
  induction as with
  | nil => exact .pure []
  | cons a as ih => exact .bind (hf a) (fun b => .bind ih (fun bs => .pure (b :: bs)))

/-- Run from `s`, the program ends with `Q`; only where `ok` does not hold may it fail. -/
def Ensures (ok : Prop) (p : Program σ α) (s : σ) (Q : α → σ → Prop) : Prop :=
  match p.run s with
  | some (a, s') => Q a s'
  | none => ¬ok

namespace Ensures
variable {ok : Prop} {p : Program σ α} {s s' : σ} {a : α} {Q : α → σ → Prop}

theorem of_run (h : p.run s = some (a, s')) (hq : Q a s') : Ensures ok p s Q := by
  simpa only [Ensures, h] using hq

theorem of_not (h : ¬ok) (hp : p.run s = none) : Ensures ok p s Q := by
  simpa only [Ensures, hp] using h

theorem result (h : Ensures ok p s Q) (hrun : p.run s = some (a, s')) : Q a s' := by
  simpa only [Ensures, hrun] using h

theorem exists_run (h : Ensures ok p s Q) (hok : ok) : ∃ a s', p.run s = some (a, s') ∧ Q a s' := by
  cases hp : p.run s with
  | none =>
    simp only [Ensures, hp] at h
    exact absurd hok h
  | some r => exact ⟨r.1, r.2, rfl, h.result hp⟩

theorem mono {Q' : α → σ → Prop} (h : Ensures ok p s Q) (hq : ∀ a s', Q a s' → Q' a s') :
    Ensures ok p s Q' := by
  cases hp : p.run s with
  | none =>
    simp only [Ensures, hp] at h ⊢
    exact h
  | some r => exact of_run hp (hq _ _ (h.result hp))

protected theorem pure (hq : Q a s) : Ensures ok (Pure.pure a) s Q := of_run rfl hq

protected theorem bind {R : α → σ → Prop} {f : α → Program σ β} {Q : β → σ → Prop}
    (h : Ensures ok p s R) (hf : ∀ a s', R a s' → Ensures ok (f a) s' Q) :
    Ensures ok (p >>= f) s Q := by
  cases hp : p.run s with
  | none =>
    simp only [Ensures, hp] at h
    exact of_not h (by simp [hp])
  | some r =>
    have hr := hf r.1 r.2 (h.result hp)
    simpa only [Ensures, run_bind, hp, Option.bind_some] using hr

/-- A first part of which the run is known. -/
theorem run_bind {f : α → Program σ β} {Q : β → σ → Prop} (h : p.run s = some (a, s'))
    (hf : Ensures ok (f a) s' Q) : Ensures ok (p >>= f) s Q :=
  .bind (R := fun b t => b = a ∧ t = s') (of_run h ⟨rfl, rfl⟩) (by
    rintro _ _ ⟨rfl, rfl⟩
    exact hf)

/-- What holds of the elements done so far is kept by every round of a loop. -/
protected theorem each {f : α → Program σ Unit} {as : List α} {I : List α → σ → Prop}
    (hround : ∀ before a after s, as = before ++ a :: after → I before s →
      Ensures ok (f a) s (fun _ s' => I (before ++ [a]) s')) (hs : I [] s) :
    Ensures ok (each f as) s (fun _ s' => I as s') := by
  have hrest : ∀ rest before s, as = before ++ rest → I before s →
      Ensures ok (each f rest) s (fun _ s' => I as s') := by
    intro rest
    induction rest with
    | nil =>
      intro before s h hinv
      rw [List.append_nil] at h
      exact .pure (h ▸ hinv)
    | cons a after ih =>
      intro before s h hinv
      refine .bind (hround before a after s h hinv) (fun _ s₁ hinv₁ => ?_)
      exact ih (before ++ [a]) s₁ (by simpa using h) hinv₁
  exact hrest as [] s rfl hs

/-- As for a loop, with the results of the rounds. -/
protected theorem collect {f : α → Program σ β} {as : List α} {I : List α → List β → σ → Prop}
    (hround : ∀ before bs a after s, as = before ++ a :: after → I before bs s →
      Ensures ok (f a) s (fun b s' => I (before ++ [a]) (bs ++ [b]) s')) (hs : I [] [] s) :
    Ensures ok (collect f as) s (fun bs s' => I as bs s') := by
  have hrest : ∀ rest before bs s, as = before ++ rest → I before bs s →
      Ensures ok (collect f rest) s (fun bs' s' => I as (bs ++ bs') s') := by
    intro rest
    induction rest with
    | nil =>
      intro before bs s h hinv
      rw [List.append_nil] at h
      exact .pure (by simpa [h] using hinv)
    | cons a after ih =>
      intro before bs s h hinv
      refine .bind (hround before bs a after s h hinv) (fun b s₁ hinv₁ => ?_)
      refine .bind (ih (before ++ [a]) (bs ++ [b]) s₁ (by simpa using h) hinv₁) ?_
      exact fun bs' s₂ hinv₂ => .pure (by simpa using hinv₂)
  simpa using hrest as [] [] s rfl hs

end Ensures

theorem Total.ensures {p : Program σ α} (h : p.Total) {ok : Prop} (s : σ) :
    Ensures ok p s (fun _ _ => True) := by
  obtain ⟨a, s', hrun⟩ := h s
  exact .of_run hrun trivial

/-- From every state the program ends, with a result of the kind. -/
def Always (p : Program σ α) (Q : α → Prop) : Prop := ∀ s, ∃ a s', p.run s = some (a, s') ∧ Q a

namespace Always
variable {p : Program σ α} {Q : α → Prop} {a : α}

theorem of_total (h : p.Total) : p.Always (fun _ => True) := fun s => by
  obtain ⟨a, s', hrun⟩ := h s
  exact ⟨a, s', hrun, trivial⟩

protected theorem pure (h : Q a) : (Pure.pure a : Program σ α).Always Q := fun s => ⟨a, s, rfl, h⟩

protected theorem bind {f : α → Program σ β} {R : β → Prop} (h : p.Always Q)
    (hf : ∀ a, Q a → (f a).Always R) : (p >>= f).Always R := fun s => by
  obtain ⟨a, s', hrun, ha⟩ := h s
  obtain ⟨b, s'', hrun', hb⟩ := hf a ha s'
  exact ⟨b, s'', run_bind_eq_some.mpr ⟨a, s', hrun, hrun'⟩, hb⟩

theorem mono {R : α → Prop} (h : p.Always Q) (hq : ∀ a, Q a → R a) : p.Always R := fun s => by
  obtain ⟨a, s', hrun, ha⟩ := h s
  exact ⟨a, s', hrun, hq a ha⟩

protected theorem and {R : α → Prop} (h : p.Always Q) (h' : p.Always R) :
    p.Always (fun a => Q a ∧ R a) := fun s => by
  obtain ⟨a, s', hrun, ha⟩ := h s
  obtain ⟨b, t, hrun', hb⟩ := h' s
  cases hrun.symm.trans hrun'
  exact ⟨a, s', hrun, ha, hb⟩

theorem assert {b : Bool} (h : b = true) : (Program.assert b : Program σ Unit).Always (fun _ => True) :=
  fun s => ⟨(), s, by rw [run_assert, if_pos h], trivial⟩

protected theorem collect {f : β → Program σ α} {as : List β} (h : ∀ b, (f b).Always Q) :
    (Program.collect f as).Always (fun bs => bs.length = as.length ∧ ∀ b ∈ bs, Q b) := by
  induction as with
  | nil => exact .pure ⟨rfl, by simp⟩
  | cons b as ih =>
    refine .bind (h b) (fun a ha => .bind ih (fun bs hbs => .pure ⟨?_, ?_⟩))
    · rw [List.length_cons, List.length_cons, hbs.1]
    · exact List.forall_mem_cons.mpr ⟨ha, hbs.2⟩

end Always

/-- The program on the first part of a larger state. -/
def onFst : Program σ α → Program (σ × τ) α
  | done a => done a
  | step action next => step
      (fun s => (action s.1).map (fun r => (r.1, (r.2, s.2)))) (fun b => (next b).onFst)

/-- The program on the second part of a larger state. -/
def onSnd : Program τ α → Program (σ × τ) α
  | done a => done a
  | step action next => step
      (fun s => (action s.2).map (fun r => (r.1, (s.1, r.2)))) (fun b => (next b).onSnd)

@[simp] theorem run_onFst (p : Program σ α) (s : σ × τ) :
    p.onFst.run s = (p.run s.1).map (fun r => (r.1, (r.2, s.2))) := by
  induction p generalizing s with
  | done a => rfl
  | step action next ih =>
    simp only [onFst, run, Option.bind_map, Option.map_bind]
    congr 1
    funext r
    exact ih r.1 (r.2, s.2)

theorem onFst_bind (p : Program σ α) (f : α → Program σ β) :
    (p >>= f).onFst (τ := τ) = p.onFst >>= fun a => (f a).onFst := by
  induction p with
  | done a => rfl
  | step action next ih => exact congrArg (step _) (funext ih)

theorem run_onFst_eq_some {p : Program σ α} {s t : σ × τ} {a : α} :
    p.onFst.run s = some (a, t) ↔ p.run s.1 = some (a, t.1) ∧ t.2 = s.2 := by
  obtain ⟨t₁, t₂⟩ := t
  simp only [run_onFst, Option.map_eq_some_iff, Prod.mk.injEq, Prod.exists]
  constructor
  · rintro ⟨_, _, h, rfl, rfl, rfl⟩
    exact ⟨h, rfl⟩
  · rintro ⟨h, rfl⟩
    exact ⟨a, t₁, h, rfl, rfl, rfl⟩

theorem run_onFst_of {p : Program σ α} {s s' : σ} {a : α} (h : p.run s = some (a, s')) (t : τ) :
    p.onFst.run (s, t) = some (a, (s', t)) := by
  simp [h]

@[simp] theorem run_onSnd (p : Program τ α) (s : σ × τ) :
    p.onSnd.run s = (p.run s.2).map (fun r => (r.1, (s.1, r.2))) := by
  induction p generalizing s with
  | done a => rfl
  | step action next ih =>
    simp only [onSnd, run, Option.bind_map, Option.map_bind]
    congr 1
    funext r
    exact ih r.1 (s.1, r.2)

theorem run_onSnd_eq_some {p : Program τ α} {s t : σ × τ} {a : α} :
    p.onSnd.run s = some (a, t) ↔ p.run s.2 = some (a, t.2) ∧ t.1 = s.1 := by
  obtain ⟨t₁, t₂⟩ := t
  simp only [run_onSnd, Option.map_eq_some_iff, Prod.mk.injEq, Prod.exists]
  constructor
  · rintro ⟨_, _, h, rfl, rfl, rfl⟩
    exact ⟨h, rfl⟩
  · rintro ⟨h, rfl⟩
    exact ⟨a, t₂, h, rfl, rfl, rfl⟩

theorem Ensures.onFst {ok : Prop} {p : Program σ α} {s : σ × τ} {Q : α → σ → Prop}
    (h : Ensures ok p s.1 Q) :
    Ensures ok (p.onFst (τ := τ)) s (fun a s' => Q a s'.1 ∧ s'.2 = s.2) := by
  cases hp : p.run s.1 with
  | none =>
    simp only [Ensures, hp] at h
    exact .of_not h (by simp [hp])
  | some r =>
    have hrun : (p.onFst (τ := τ)).run s = some (r.1, (r.2, s.2)) := by simp [hp]
    exact .of_run hrun ⟨h.result hp, rfl⟩

theorem Ensures.onSnd {ok : Prop} {p : Program τ α} {s : σ × τ} {Q : α → τ → Prop}
    (h : Ensures ok p s.2 Q) :
    Ensures ok (p.onSnd (σ := σ)) s (fun a s' => s'.1 = s.1 ∧ Q a s'.2) := by
  cases hp : p.run s.2 with
  | none =>
    simp only [Ensures, hp] at h
    exact .of_not h (by simp [hp])
  | some r =>
    have hrun : (p.onSnd (σ := σ)).run s = some (r.1, (s.1, r.2)) := by simp [hp]
    exact .of_run hrun ⟨rfl, h.result hp⟩

instance : MonadLift (Program σ) (Program (σ × τ)) := ⟨onFst⟩

end Program
end ImdbD.AtomicProgram
