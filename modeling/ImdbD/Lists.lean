import Mathlib.Algebra.BigOperators.Group.List.Basic
import Mathlib.Data.List.Forall2

/-!
# Lists

What several developments need to know of lists: elements that are moved, parts
that are told apart by a key, partial maps, and sums.
-/
namespace ImdbD.Lists
variable {α β γ δ κ : Type*}

/-- An element moved to the front. -/
theorem perm_cons_eraseIdx {l : List α} {i : ℕ} {a : α} (h : l[i]? = some a) :
    l.Perm (a :: l.eraseIdx i) := by
  obtain ⟨hi, rfl⟩ := List.getElem?_eq_some_iff.mp h
  exact (List.getElem_cons_eraseIdx_perm hi).symm

/-- What comes before an element for the first time. -/
theorem before_first {a : α} {as as' bs bs' : List α} (h : a ∉ as) (h' : a ∉ as')
    (he : as ++ a :: bs = as' ++ a :: bs') : as = as' := by
  rcases List.append_eq_append_iff.mp he with ⟨cs, rfl, hcs⟩ | ⟨cs, rfl, hcs⟩
  · cases cs with
    | nil => rw [List.append_nil]
    | cons c cs =>
      obtain ⟨rfl, -⟩ := List.cons.inj hcs
      exact absurd (List.mem_append_right as List.mem_cons_self) h'
  · cases cs with
    | nil => rw [List.append_nil]
    | cons c cs =>
      obtain ⟨rfl, -⟩ := List.cons.inj hcs
      exact absurd (List.mem_append_right as' List.mem_cons_self) h

/-- A list in parts, when the parts are known of its image. -/
theorem exists_parts {f : α → β} {parts : List (List β)} {as : List α}
    (h : parts.flatten = as.map f) : ∃ parts' : List (List α),
      parts'.map (List.map f) = parts ∧ parts'.flatten = as := by
  induction parts generalizing as with
  | nil => exact ⟨[], rfl, (List.map_eq_nil_iff.mp h.symm).symm⟩
  | cons part parts ih =>
    obtain ⟨as₁, as₂, rfl, rfl, hrest⟩ := List.map_eq_append_iff.mp h.symm
    obtain ⟨parts', rfl, rfl⟩ := ih hrest.symm
    exact ⟨as₁ :: parts', rfl, rfl⟩

/-- The part of a list of distinct keys that belongs to one of them. -/
theorem flatMap_ite_eq [DecidableEq κ] {as : List α} {key : α → κ} {a : α}
    (hdistinct : as.Pairwise (fun x y => key x ≠ key y)) (ha : a ∈ as) (f : α → List β) :
    as.flatMap (fun x => if key x = key a then f x else []) = f a := by
  induction as with
  | nil => cases ha
  | cons x as ih =>
    obtain ⟨hx, hrest⟩ := List.pairwise_cons.mp hdistinct
    rw [List.flatMap_cons]
    rcases List.mem_cons.mp ha with rfl | hmem
    · have hnil : as.flatMap (fun x => if key x = key a then f x else []) = [] :=
        List.flatMap_eq_nil_iff.mpr (fun y hy => if_neg (hx y hy).symm)
      rw [if_pos rfl, hnil, List.append_nil]
    · rw [if_neg (hx a hmem), List.nil_append, ih hrest hmem]

/-- Without the elements of one key, where only one element has that key. -/
theorem filter_ne_key [DecidableEq α] [DecidableEq κ] (key : α → κ) {l : List α} (hl : l.Nodup)
    {a : α} (ha : ∀ b ∈ l, key b = key a → b = a) :
    l.filter (fun b => key b ≠ key a) = l.erase a := by
  rw [hl.erase_eq_filter]
  apply List.filter_congr
  intro b hb
  have hiff : key b = key a ↔ b = a := ⟨ha b hb, congrArg key⟩
  by_cases h : b = a <;> simp [h, hiff]

/-- An element that is kept, behind those kept before it. -/
theorem getElem?_filterMap_length {f : α → Option β} (before after : List α) {a : α} {b : β}
    (h : f a = some b) :
    ((before ++ a :: after).filterMap f)[(before.filterMap f).length]? = some b := by
  rw [List.filterMap_append, List.getElem?_append_right (Nat.le_refl _), Nat.sub_self,
    List.filterMap_cons_some h]
  rfl

/-- Two ways to read lists that agree in a third. -/
theorem filterMap_eq_of_map_eq {as : List α} {bs : List β} {f : α → γ} {g : β → γ}
    {φ : α → Option δ} {ψ : β → Option δ} (h : as.map f = bs.map g)
    (hread : ∀ a b, f a = g b → φ a = ψ b) : as.filterMap φ = bs.filterMap ψ := by
  induction as generalizing bs with
  | nil =>
    cases bs with
    | nil => rfl
    | cons b bs => cases h
  | cons a as ih =>
    cases bs with
    | nil => cases h
    | cons b bs =>
      obtain ⟨hhead, htail⟩ := List.cons.inj h
      rw [List.filterMap_cons, List.filterMap_cons, hread a b hhead, ih htail]

theorem mapM_eq_some {α β : Type} {f : α → Option β} {as : List α} {bs : List β} :
    as.mapM f = some bs ↔ List.Forall₂ (fun a b => f a = some b) as bs := by
  induction as generalizing bs with
  | nil =>
    rw [List.mapM_nil, List.forall₂_nil_left_iff]
    exact ⟨fun h => (Option.some.inj h).symm, fun h => h ▸ rfl⟩
  | cons a as ih =>
    rw [List.mapM_cons, List.forall₂_cons_left_iff]
    constructor
    · intro h
      obtain ⟨b, hb, h⟩ := Option.bind_eq_some_iff.mp h
      obtain ⟨cs, hcs, he⟩ := Option.bind_eq_some_iff.mp h
      exact ⟨b, cs, hb, ih.mp hcs, (Option.some.inj he).symm⟩
    · rintro ⟨b, cs, hb, hcs, rfl⟩
      rw [hb, ih.mpr hcs]
      rfl

theorem exists_of_mem_mapM {α β : Type} {f : α → Option β} {as : List α} {bs : List β} {b : β}
    (h : as.mapM f = some bs) (hb : b ∈ bs) : ∃ a ∈ as, f a = some b := by
  have hall := mapM_eq_some.mp h
  clear h
  induction hall with
  | nil => cases hb
  | @cons a c as cs hac _ ih =>
    rcases List.mem_cons.mp hb with rfl | hb
    · exact ⟨a, List.mem_cons_self, hac⟩
    · obtain ⟨a', hmem, ha'⟩ := ih hb
      exact ⟨a', List.mem_cons_of_mem a hmem, ha'⟩

section Sums
variable {M : Type*} [AddCommMonoid M]

/-- The sum after one element is replaced. -/
theorem sum_map_set (f : α → M) {xs : List α} {i : ℕ} {x : α} (h : xs[i]? = some x) (y : α) :
    ((xs.set i y).map f).sum + f x = (xs.map f).sum + f y := by
  induction xs generalizing i with
  | nil => cases h
  | cons z xs ih =>
    cases i with
    | zero =>
      cases h
      rw [List.set_cons_zero, List.map_cons, List.map_cons, List.sum_cons, List.sum_cons,
        add_right_comm, add_comm (f y), add_right_comm]
    | succ i =>
      have hrest := ih h
      rw [List.set_cons_succ, List.map_cons, List.map_cons, List.sum_cons, List.sum_cons, add_assoc,
        hrest, add_assoc]

theorem sum_map_filter (p : α → Prop) [DecidablePred p] (g : α → M) (as : List α) :
    ((as.filter p).map g).sum = (as.map (fun a => if p a then g a else 0)).sum := by
  have hsplit := List.sum_map_ite p g (fun _ => 0) as
  rw [List.sum_map_zero, add_zero] at hsplit
  exact hsplit.symm

end Sums

end ImdbD.Lists
