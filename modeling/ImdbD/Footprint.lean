import ImdbD.AtomicProgram
import Mathlib.Data.Set.Lattice
import Mathlib.Order.CompletePartialOrder

/-!
# Footprints of programs

A state is seen through places; two states that agree at every place are equal.
A program stays within a footprint when what it does depends on the places of
the footprint only and changes those it may write. Programs with independent
footprints can be run in either order.
-/
namespace ImdbD.AtomicProgram
variable {σ τ α β ι L M : Type}

/-- What it means for two states to agree at a place. -/
structure Places (σ L : Type) where
  Agree : L → σ → σ → Prop
  equivalence : ∀ l, Equivalence (Agree l)
  ext : ∀ {s t}, (∀ l, Agree l s t) → s = t

namespace Places

/-- Places of a pair. -/
def prod (F : Places σ L) (G : Places τ M) : Places (σ × τ) (L ⊕ M) where
  Agree
    | .inl l, s, t => F.Agree l s.1 t.1
    | .inr m, s, t => G.Agree m s.2 t.2
  equivalence
    | .inl l => ⟨fun _ => (F.equivalence l).refl _, (F.equivalence l).symm, (F.equivalence l).trans⟩
    | .inr m => ⟨fun _ => (G.equivalence m).refl _, (G.equivalence m).symm, (G.equivalence m).trans⟩
  ext h := Prod.ext (F.ext (fun l => h (.inl l))) (G.ext (fun m => h (.inr m)))

/-- The state as one place. -/
def whole (σ : Type) : Places σ Unit where
  Agree _ s t := s = t
  equivalence _ := ⟨fun _ => rfl, Eq.symm, Eq.trans⟩
  ext h := h ()

/-- The cells of a function. -/
def cells (V : ι → Type) : Places (∀ i, V i) ι where
  Agree i s t := s i = t i
  equivalence _ := ⟨fun _ => rfl, Eq.symm, Eq.trans⟩
  ext := funext

variable (F : Places σ L) {l : L} {s t u : σ}

theorem refl : F.Agree l s s := (F.equivalence l).refl s
theorem symm (h : F.Agree l s t) : F.Agree l t s := (F.equivalence l).symm h
theorem trans (h : F.Agree l s t) (h' : F.Agree l t u) : F.Agree l s u :=
  (F.equivalence l).trans h h'

end Places

/-- The places that a program may read and those that it may write. -/
structure Footprint (L : Type) where
  reads : Set L
  writes : Set L

namespace Footprint

def touches (f : Footprint L) : Set L := f.reads ∪ f.writes

/-- Neither writes what the other touches. -/
structure Independent (f g : Footprint L) : Prop where
  left : Disjoint f.writes g.touches
  right : Disjoint g.writes f.touches

theorem Independent.symm {f g : Footprint L} (h : Independent f g) : Independent g f :=
  ⟨h.right, h.left⟩

instance : LE (Footprint L) := ⟨fun f g => f.reads ⊆ g.reads ∧ f.writes ⊆ g.writes⟩

theorem touches_mono {f g : Footprint L} (h : f ≤ g) : f.touches ⊆ g.touches :=
  Set.union_subset_union h.1 h.2

theorem Independent.mono {f f' g g' : Footprint L} (h : Independent f' g') (hf : f ≤ f')
    (hg : g ≤ g') : Independent f g :=
  ⟨h.left.mono hf.2 (touches_mono hg), h.right.mono hg.2 (touches_mono hf)⟩

end Footprint

/-- An action changes nothing outside its writes, and states that agree on its footprint give the
same result and the same writes. -/
structure Action.Within (F : Places σ L) (f : Footprint L) (action : Action σ α) : Prop where
  frame : ∀ {s a s'}, action s = some (a, s') → ∀ l ∉ f.writes, F.Agree l s s'
  local_ : ∀ {s t a s'}, (∀ l ∈ f.touches, F.Agree l s t) → action s = some (a, s') →
    ∃ t', action t = some (a, t') ∧ ∀ l ∈ f.writes, F.Agree l s' t'

namespace Action
variable {F : Places σ L} {f g : Footprint L}

theorem Within.mono {action : Action σ α} (h : Within F f action) (hfg : f ≤ g) :
    Within F g action where
  frame hrun l hl := h.frame hrun l (fun hf => hl (hfg.2 hf))
  local_ {s t a s'} hagree hrun := by
    obtain ⟨t', ht, hw⟩ := h.local_ (fun l hl => hagree l (Footprint.touches_mono hfg hl)) hrun
    refine ⟨t', ht, fun l hl => ?_⟩
    by_cases hlf : l ∈ f.writes
    · exact hw l hlf
    · exact F.trans (F.symm (h.frame hrun l hlf))
        (F.trans (hagree l (Or.inr hl)) (h.frame ht l hlf))

theorem Within.pure (a : α) : Within F f (fun s => some (a, s)) where
  frame h l _ := by
    cases h
    exact F.refl
  local_ {s t a' s'} hagree h := by
    cases h
    exact ⟨t, rfl, fun l hl => hagree l (Or.inr hl)⟩

theorem Within.look {g : σ → Option α}
    (h : ∀ {s t}, (∀ l ∈ f.touches, F.Agree l s t) → g s = g t) :
    Within F f (fun s => (g s).map (fun a => (a, s))) where
  frame {s a s'} hrun l _ := by
    obtain ⟨_, -, he⟩ := Option.map_eq_some_iff.mp hrun
    cases he
    exact F.refl
  local_ {s t a s'} hagree hrun := by
    obtain ⟨_, ha, he⟩ := Option.map_eq_some_iff.mp hrun
    cases he
    exact ⟨t, by rw [← h hagree, ha]; rfl, fun l hl => hagree l (Or.inr hl)⟩

theorem Within.bind {action : Action σ α} {next : α → Action σ β} (h : Within F f action)
    (hnext : ∀ {s a s'}, action s = some (a, s') → Within F f (next a)) :
    Within F f (fun s => (action s).bind (fun r => next r.1 r.2)) where
  frame {s b s'} hrun l hl := by
    obtain ⟨⟨a, s₁⟩, h₁, h₂⟩ := Option.bind_eq_some_iff.mp hrun
    exact F.trans (h.frame h₁ l hl) ((hnext h₁).frame h₂ l hl)
  local_ {s t b s'} hagree hrun := by
    obtain ⟨⟨a, s₁⟩, h₁, h₂⟩ := Option.bind_eq_some_iff.mp hrun
    obtain ⟨t₁, ht₁, hw₁⟩ := h.local_ hagree h₁
    have hagree₁ : ∀ l ∈ f.touches, F.Agree l s₁ t₁ := by
      intro l hl
      by_cases hlw : l ∈ f.writes
      · exact hw₁ l hlw
      · exact F.trans (F.symm (h.frame h₁ l hlw)) (F.trans (hagree l hl) (h.frame ht₁ l hlw))
    obtain ⟨t', ht', hw'⟩ := (hnext h₁).local_ hagree₁ h₂
    exact ⟨t', by simp [ht₁, ht'], hw'⟩

/-- Actions with independent footprints commute: the second can be run first. -/
theorem Within.swap {first : Action σ α} {second : Action σ β} (h : Within F f first)
    (h' : Within F g second) (hi : Footprint.Independent f g) {s s₁ s₂ : σ} {a : α} {b : β}
    (h₁ : first s = some (a, s₁)) (h₂ : second s₁ = some (b, s₂)) :
    ∃ t, second s = some (b, t) ∧ first t = some (a, s₂) := by
  have hback : ∀ l ∈ g.touches, F.Agree l s₁ s := fun l hl =>
    F.symm (h.frame h₁ l (fun hlf => Set.disjoint_left.mp hi.left hlf hl))
  obtain ⟨t, ht, hwt⟩ := h'.local_ hback h₂
  have hforth : ∀ l ∈ f.touches, F.Agree l s t := fun l hl =>
    h'.frame ht l (fun hlg => Set.disjoint_left.mp hi.right hlg hl)
  obtain ⟨u, hu, hwu⟩ := h.local_ hforth h₁
  have he : u = s₂ := by
    apply F.ext
    intro l
    by_cases hlf : l ∈ f.writes
    · have hlg : l ∉ g.writes := fun hlg => Set.disjoint_left.mp hi.left hlf (Or.inr hlg)
      exact F.trans (F.symm (hwu l hlf)) (h'.frame h₂ l hlg)
    · have htu := F.symm (h.frame hu l hlf)
      by_cases hlg : l ∈ g.writes
      · exact F.trans htu (F.symm (hwt l hlg))
      · exact F.trans htu (F.trans (F.symm (h'.frame ht l hlg))
          (F.trans (h.frame h₁ l hlf) (h'.frame h₂ l hlg)))
  exact ⟨t, ht, he ▸ hu⟩

end Action

namespace Program
variable {F : Places σ L} {f g : Footprint L}

/-- Every action of the program stays within the footprint. -/
def Within (F : Places σ L) (f : Footprint L) : Program σ α → Prop
  | done _ => True
  | step action next =>
    action.Within F f ∧ ∀ s b s', action s = some (b, s') → (next b).Within F f

theorem Within.mono {p : Program σ α} (h : p.Within F f) (hfg : f ≤ g) : p.Within F g := by
  induction p with
  | done a => trivial
  | step action next ih => exact ⟨h.1.mono hfg, fun s b s' hb => ih b (h.2 s b s' hb)⟩

theorem Within.pure (a : α) : (Pure.pure a : Program σ α).Within F f := trivial

theorem Within.atomic {action : Action σ α} (h : action.Within F f) :
    (Program.atomic action).Within F f := ⟨h, fun _ _ _ _ => trivial⟩

/-- What comes after an action is only asked for the results that the action can have. -/
theorem Within.atomic_bind {action : Action σ α} {q : α → Program σ β} (h : action.Within F f)
    (hq : ∀ s a s', action s = some (a, s') → (q a).Within F f) :
    (Program.atomic action >>= q).Within F f := ⟨h, hq⟩

theorem Within.fault : (Program.fault : Program σ α).Within F f :=
  .atomic ⟨fun h => (nomatch h), fun _ h => (nomatch h)⟩

theorem Within.bind {p : Program σ α} {q : α → Program σ β} (h : p.Within F f)
    (hq : ∀ a, (q a).Within F f) : (p >>= q).Within F f := by
  induction p with
  | done a => exact hq a
  | step action next ih => exact ⟨h.1, fun s b s' hb => ih b (h.2 s b s' hb)⟩

theorem Within.assert (b : Bool) : (Program.assert b : Program σ Unit).Within F f := by
  cases b
  · exact Within.fault
  · exact Within.pure ()

theorem Within.fetch (a : Option α) : (Program.fetch a : Program σ α).Within F f := by
  cases a
  · exact Within.fault
  · exact Within.pure _

theorem Within.fetch_bind {a : Option α} {q : α → Program σ β}
    (hq : ∀ b, a = some b → (q b).Within F f) : (Program.fetch a >>= q).Within F f := by
  cases a with
  | none => exact ⟨⟨fun h => (nomatch h), fun _ h => (nomatch h)⟩, fun _ _ _ h => (nomatch h)⟩
  | some b => exact hq b rfl

theorem Within.ite {c : Prop} [Decidable c] {p q : Program σ α} (hp : p.Within F f)
    (hq : q.Within F f) : (if c then p else q).Within F f := by
  split
  · exact hp
  · exact hq

/-- On a state that is one place, every program may do what it likes with that place. -/
theorem Within.whole {f : Footprint Unit} (h : () ∈ f.writes) (p : Program σ α) :
    p.Within (.whole σ) f := by
  induction p with
  | done a => trivial
  | step action next ih =>
    refine ⟨⟨fun _ l hl => absurd h hl, fun hagree hrun => ?_⟩, fun _ b _ _ => ih b⟩
    have he := hagree () (Or.inr h)
    exact ⟨_, he ▸ hrun, fun _ _ => rfl⟩

theorem Within.each {q : α → Program σ Unit} {as : List α} (h : ∀ a ∈ as, (q a).Within F f) :
    (Program.each q as).Within F f := by
  induction as with
  | nil => exact Within.pure ()
  | cons a as ih =>
    exact .bind (h a List.mem_cons_self) (fun _ => ih (fun b hb => h b (List.mem_cons_of_mem a hb)))

theorem Within.collect {q : α → Program σ β} {as : List α} (h : ∀ a ∈ as, (q a).Within F f) :
    (Program.collect q as).Within F f := by
  induction as with
  | nil => exact Within.pure []
  | cons a as ih =>
    exact .bind (h a List.mem_cons_self) (fun b =>
      .bind (ih (fun b hb => h b (List.mem_cons_of_mem a hb))) (fun bs => .pure (b :: bs)))

/-- Run alone, the program is an action within its footprint. -/
theorem Within.run {p : Program σ α} (h : p.Within F f) : Action.Within F f p.run := by
  induction p with
  | done a => exact Action.Within.pure a
  | step action next ih => exact h.1.bind (fun hb => ih _ (h.2 _ _ _ hb))

theorem Within.onFst {G : Places τ M} {g : Footprint (L ⊕ M)} {p : Program σ α}
    (h : p.Within F f) (hr : ∀ l ∈ f.reads, Sum.inl l ∈ g.reads)
    (hw : ∀ l ∈ f.writes, Sum.inl l ∈ g.writes) :
    (p.onFst : Program (σ × τ) α).Within (F.prod G) g := by
  have hlift : (p.onFst : Program (σ × τ) α).Within (F.prod G)
      ⟨Sum.inl '' f.reads, Sum.inl '' f.writes⟩ := by
    induction p with
    | done a => trivial
    | step action next ih =>
      refine ⟨⟨?_, ?_⟩, fun s b s' hb => ?_⟩
      · rintro ⟨s, u⟩ b ⟨s', u'⟩ hrun l hl
        obtain ⟨⟨b', s₁⟩, h₁, he⟩ := Option.map_eq_some_iff.mp hrun
        cases he
        cases l with
        | inl l => exact h.1.frame h₁ l (fun hlf => hl ⟨l, hlf, rfl⟩)
        | inr m => exact G.refl
      · rintro ⟨s, u⟩ ⟨t, v⟩ b ⟨s', u'⟩ hagree hrun
        obtain ⟨⟨b', s₁⟩, h₁, he⟩ := Option.map_eq_some_iff.mp hrun
        cases he
        obtain ⟨t', ht', hw'⟩ := h.1.local_ (s := s) (t := t) (fun l hl => hagree (.inl l)
          (hl.imp (fun hl => ⟨l, hl, rfl⟩) (fun hl => ⟨l, hl, rfl⟩))) h₁
        refine ⟨(t', v), by simp [ht'], ?_⟩
        rintro _ ⟨l, hl, rfl⟩
        exact hw' l hl
      · obtain ⟨⟨b', s₁⟩, h₁, he⟩ := Option.map_eq_some_iff.mp hb
        cases he
        exact ih _ (h.2 _ _ _ h₁)
  refine hlift.mono ⟨?_, ?_⟩
  · rintro _ ⟨l, hl, rfl⟩
    exact hr l hl
  · rintro _ ⟨l, hl, rfl⟩
    exact hw l hl

theorem Within.onSnd {G : Places τ M} {g : Footprint M} {g' : Footprint (L ⊕ M)} {p : Program τ α}
    (h : p.Within G g) (hr : ∀ m ∈ g.reads, Sum.inr m ∈ g'.reads)
    (hw : ∀ m ∈ g.writes, Sum.inr m ∈ g'.writes) :
    (p.onSnd : Program (σ × τ) α).Within (F.prod G) g' := by
  have hlift : (p.onSnd : Program (σ × τ) α).Within (F.prod G)
      ⟨Sum.inr '' g.reads, Sum.inr '' g.writes⟩ := by
    induction p with
    | done a => trivial
    | step action next ih =>
      refine ⟨⟨?_, ?_⟩, fun s b s' hb => ?_⟩
      · rintro ⟨s, u⟩ b ⟨s', u'⟩ hrun l hl
        obtain ⟨⟨b', s₁⟩, h₁, he⟩ := Option.map_eq_some_iff.mp hrun
        cases he
        cases l with
        | inl l => exact F.refl
        | inr m => exact h.1.frame h₁ m (fun hlf => hl ⟨m, hlf, rfl⟩)
      · rintro ⟨s, u⟩ ⟨t, v⟩ b ⟨s', u'⟩ hagree hrun
        obtain ⟨⟨b', s₁⟩, h₁, he⟩ := Option.map_eq_some_iff.mp hrun
        cases he
        obtain ⟨v', hv', hw'⟩ := h.1.local_ (s := u) (t := v) (fun m hm => hagree (.inr m)
          (hm.imp (fun hm => ⟨m, hm, rfl⟩) (fun hm => ⟨m, hm, rfl⟩))) h₁
        refine ⟨(t, v'), by simp [hv'], ?_⟩
        rintro _ ⟨m, hm, rfl⟩
        exact hw' m hm
      · obtain ⟨⟨b', s₁⟩, h₁, he⟩ := Option.map_eq_some_iff.mp hb
        cases he
        exact ih _ (h.2 _ _ _ h₁)
  refine hlift.mono ⟨?_, ?_⟩
  · rintro _ ⟨m, hm, rfl⟩
    exact hr m hm
  · rintro _ ⟨m, hm, rfl⟩
    exact hw m hm

end Program
end ImdbD.AtomicProgram
