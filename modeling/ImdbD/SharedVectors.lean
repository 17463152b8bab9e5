import ImdbD.Footprint
import Mathlib.Logic.Function.Basic

/-!
# Vectors shared by threads

Threads hand values to one another through vectors; every element is a place of
its own. A program may also leave notes of what it finds, which nobody reads.
-/
namespace ImdbD.AtomicProgram
variable {σ α β κ ι L : Type} {V : κ → Type}

/-- The elements of named vectors. -/
def Places.vectors (V : κ → Type) : Places (∀ k, List (V k)) (κ × ℕ) where
  Agree l v w := (v l.1)[l.2]? = (w l.1)[l.2]?
  equivalence _ := ⟨fun _ => rfl, Eq.symm, Eq.trans⟩
  ext h := funext fun k => List.ext_getElem? fun i => h (k, i)

namespace Program

/-- `vs.at(i)`. -/
def readAt (k : κ) (i : ℕ) : Program (∀ k, List (V k)) (V k) :=
  atomic (fun v => ((v k)[i]?).map (fun x => (x, v)))

/-- A vector as a whole. -/
def readVector (k : κ) : Program (∀ k, List (V k)) (List (V k)) :=
  atomic (fun v => some (v k, v))

@[simp] theorem run_readVector (k : κ) (v : ∀ k, List (V k)) :
    (readVector k).run v = some (v k, v) := rfl

variable [DecidableEq κ]

/-- `vs.at(i) = x`. -/
def writeAt (k : κ) (i : ℕ) (x : V k) : Program (∀ k, List (V k)) Unit :=
  atomic (fun v => if i < (v k).length then some ((), Function.update v k ((v k).set i x)) else none)

omit [DecidableEq κ] in
theorem run_readAt {v : ∀ k, List (V k)} {k : κ} {i : ℕ} {x : V k} (h : (v k)[i]? = some x) :
    (readAt k i).run v = some (x, v) := by
  simp [readAt, h]

theorem run_writeAt {v : ∀ k, List (V k)} {k : κ} {i : ℕ} (x : V k) (h : i < (v k).length) :
    (writeAt k i x).run v = some ((), Function.update v k ((v k).set i x)) := by
  simp [writeAt, h]

variable {f : Footprint (κ × ℕ)}

omit [DecidableEq κ] in
theorem readAt_within {k : κ} {i : ℕ} (h : (k, i) ∈ f.touches) :
    (readAt (V := V) k i).Within (.vectors V) f :=
  .atomic (.look (fun hagree => hagree _ h))

omit [DecidableEq κ] in
theorem readVector_within {k : κ} (h : ∀ i, (k, i) ∈ f.touches) :
    (readVector (V := V) k).Within (.vectors V) f :=
  .atomic (.look (g := fun v : ∀ k, List (V k) => some (v k)) (fun hagree =>
    congrArg some (List.ext_getElem? (fun i => hagree (k, i) (h i)))))

theorem writeAt_within {k : κ} {i : ℕ} {x : V k} (h : (k, i) ∈ f.writes) :
    (writeAt k i x).Within (.vectors V) f := by
  have hother : ∀ (v : ∀ k, List (V k)) (l : κ × ℕ), l ≠ (k, i) →
      (Function.update v k ((v k).set i x) l.1)[l.2]? = (v l.1)[l.2]? := by
    intro v l hl
    by_cases hk : l.1 = k
    · obtain ⟨k', j⟩ := l
      obtain rfl : k' = k := hk
      have hj : i ≠ j := fun he => hl (he ▸ rfl)
      rw [Function.update_self, List.getElem?_set_ne hj]
    · rw [Function.update_of_ne hk]
  refine .atomic ⟨fun {v a w} hrun l hl => ?_, fun {v w a v'} hagree hrun => ?_⟩
  · split at hrun
    · cases hrun
      exact (hother v l (fun he => hl (he ▸ h))).symm
    · cases hrun
  · split at hrun
    · rename_i hlt
      cases hrun
      have hlen : i < (w k).length := by
        have hat : (v k)[i]? = (w k)[i]? := hagree (k, i) (Or.inr h)
        rw [List.getElem?_eq_getElem hlt] at hat
        exact (List.getElem?_eq_some_iff.mp hat.symm).1
      refine ⟨_, if_pos hlen, fun l hl => ?_⟩
      change (Function.update v k _ l.1)[l.2]? = (Function.update w k _ l.1)[l.2]?
      by_cases hk : l = (k, i)
      · subst hk
        rw [Function.update_self, Function.update_self, List.getElem?_set_self hlt,
          List.getElem?_set_self hlen]
      · rw [hother v l hk, hother w l hk]
        exact hagree l (Or.inr hl)
    · cases hrun

section Notes
variable {N : ι → Type} [DecidableEq ι]

/-- Note what the program finds with its first action. -/
def noting (i : ι) (look : σ → N i) : Program σ α → Program (σ × (∀ i, Option (N i))) α
  | done a => step
      (fun s => some (a, (s.1, Function.update s.2 i (some (look s.1))))) done
  | step action next => step
      (fun s => (action s.1).map (fun r => (r.1, (r.2, Function.update s.2 i (some (look s.1))))))
      (fun b => (next b).onFst)

theorem run_noting (i : ι) (look : σ → N i) (p : Program σ α) (s : σ × (∀ i, Option (N i))) :
    (p.noting i look).run s =
      (p.run s.1).map (fun r => (r.1, (r.2, Function.update s.2 i (some (look s.1))))) := by
  cases p with
  | done a => rfl
  | step action next =>
    simp only [noting, run, Option.bind_map, Option.map_bind]
    congr 1
    funext r
    exact run_onFst _ _

/-- The note is made with the answer of the first action: it tells of the state in which the action
answers, and what follows goes on from that answer. -/
theorem run_noting_atomic_bind {i : ι} {look : σ → N i} {action : Action σ β} {after : β → Program σ α}
    {s s' : σ × (∀ i, Option (N i))} {a : α}
    (h : ((atomic action >>= after).noting i look).run s = some (a, s')) :
    ∃ answer t, action s.1 = some (answer, t) ∧ (after answer).run t = some (a, s'.1) ∧
      s'.2 = Function.update s.2 i (some (look s.1)) := by
  rw [run_noting] at h
  obtain ⟨⟨a', u⟩, hrun, he⟩ := Option.map_eq_some_iff.mp h
  cases he
  obtain ⟨answer, t, haction, hafter⟩ := run_bind_eq_some.mp hrun
  rw [run_atomic] at haction
  exact ⟨answer, t, haction, hafter, rfl⟩

/-- A note is a place of its own. -/
theorem Within.noting {F : Places σ L} {f : Footprint L} {i : ι} {look : σ → N i}
    {p : Program σ α} {g : Footprint (L ⊕ ι)} (h : p.Within F f)
    (hlook : ∀ {s t}, (∀ l ∈ f.touches, F.Agree l s t) → look s = look t)
    (hr : ∀ l ∈ f.reads, Sum.inl l ∈ g.reads) (hw : ∀ l ∈ f.writes, Sum.inl l ∈ g.writes)
    (hi : Sum.inr i ∈ g.writes) :
    (p.noting i look).Within (F.prod (.cells (fun i => Option (N i)))) g := by
  have hnote : ∀ {n m : ∀ i, Option (N i)} {s t : σ} {j : ι}, look s = look t →
      (j ≠ i → n j = m j) → Function.update n i (some (look s)) j =
        Function.update m i (some (look t)) j := by
    intro n m s t j he hj
    by_cases hji : j = i
    · subst hji
      rw [Function.update_self, Function.update_self, he]
    · rw [Function.update_of_ne hji, Function.update_of_ne hji, hj hji]
  have haction : ∀ {γ : Type} {action : Action σ γ}, action.Within F f →
      Action.Within (F.prod (.cells (fun i => Option (N i)))) g (fun s => (action s.1).map
        (fun r => (r.1, (r.2, Function.update s.2 i (some (look s.1)))))) := by
    intro γ action haction
    refine ⟨fun {s a s'} hrun l hl => ?_, fun {s t a s'} hagree hrun => ?_⟩
    · obtain ⟨⟨b, s₁⟩, h₁, he⟩ := Option.map_eq_some_iff.mp hrun
      cases he
      cases l with
      | inl l => exact haction.frame h₁ l (fun hf => hl (hw l hf))
      | inr j =>
        have hj : j ≠ i := fun he => hl (he ▸ hi)
        exact (Function.update_of_ne hj _ _).symm
    · obtain ⟨⟨b, s₁⟩, h₁, he⟩ := Option.map_eq_some_iff.mp hrun
      cases he
      have hfirst : ∀ l ∈ f.touches, F.Agree l s.1 t.1 := fun l hl =>
        hagree (.inl l) (hl.imp (hr l) (hw l))
      obtain ⟨t₁, ht₁, hw₁⟩ := haction.local_ hfirst h₁
      refine ⟨(t₁, Function.update t.2 i (some (look t.1))), by simp [ht₁], fun l hl => ?_⟩
      cases l with
      | inl l =>
        by_cases hlf : l ∈ f.writes
        · exact hw₁ l hlf
        · exact F.trans (F.symm (haction.frame h₁ l hlf))
            (F.trans (hagree (.inl l) (Or.inr hl)) (haction.frame ht₁ l hlf))
      | inr j => exact hnote (hlook hfirst) (fun _ => hagree (.inr j) (Or.inr hl))
  cases p with
  | done a => exact ⟨@haction _ (fun s => some (a, s)) (.pure a), fun _ _ _ _ => trivial⟩
  | step action next =>
    refine ⟨haction h.1, fun s b s' hb => ?_⟩
    obtain ⟨⟨b', s₁⟩, h₁, he⟩ := Option.map_eq_some_iff.mp hb
    cases he
    exact (h.2 _ _ _ h₁).onFst hr hw

end Notes
end Program

section Fill
variable {i : α → ℕ} {x : α → β} {as : List α} {ys : List β} {a : α}

/-- Write an element for every entry of a list. -/
def fill (i : α → ℕ) (x : α → β) (as : List α) (ys : List β) : List β :=
  as.foldl (fun ys a => ys.set (i a) (x a)) ys

@[simp] theorem fill_nil : fill i x [] ys = ys := rfl

theorem fill_concat : fill i x (as ++ [a]) ys = (fill i x as ys).set (i a) (x a) :=
  List.foldl_append

@[simp] theorem length_fill : (fill i x as ys).length = ys.length := by
  induction as generalizing ys with
  | nil => rfl
  | cons a as ih => exact ih.trans List.length_set

theorem getElem?_fill_of_not_mem {j : ℕ} (h : ∀ a ∈ as, i a ≠ j) : (fill i x as ys)[j]? = ys[j]? := by
  induction as generalizing ys with
  | nil => rfl
  | cons a as ih =>
    have hrest := @ih (ys.set (i a) (x a)) (fun b hb => h b (List.mem_cons_of_mem a hb))
    exact hrest.trans (List.getElem?_set_ne (h a List.mem_cons_self))

/-- Entries for different elements are all there in the end. -/
theorem getElem?_fill (hnodup : (as.map i).Nodup) (ha : a ∈ as) (hlt : i a < ys.length) :
    (fill i x as ys)[i a]? = some (x a) := by
  induction as generalizing ys with
  | nil => cases ha
  | cons b as ih =>
    obtain ⟨hb, hnodup⟩ := List.nodup_cons.mp hnodup
    rcases List.mem_cons.mp ha with rfl | ha
    · have hrest : (fill i x as (ys.set (i a) (x a)))[i a]? = (ys.set (i a) (x a))[i a]? :=
        getElem?_fill_of_not_mem (fun c hc he => hb (he ▸ List.mem_map_of_mem hc))
      exact hrest.trans (List.getElem?_set_self hlt)
    · exact ih hnodup ha (by rwa [List.length_set])

/-- A vector that is filled from the first to the last element. -/
theorem fill_range {zs : List β} (b : β) (h : zs.length = ys.length) :
    fill id (fun j => (zs[j]?).getD b) (List.range ys.length) ys = zs := by
  refine List.ext_getElem? (fun j => ?_)
  by_cases hj : j < ys.length
  · have hat := getElem?_fill (i := id) (x := fun j => (zs[j]?).getD b)
      (by simpa using List.nodup_range) (List.mem_range.mpr hj) hj
    rw [id_eq] at hat
    rw [hat, List.getElem?_eq_getElem (h ▸ hj)]
    rfl
  · rw [List.getElem?_eq_none (by rw [length_fill]; omega), List.getElem?_eq_none (by omega)]

end Fill
end ImdbD.AtomicProgram
