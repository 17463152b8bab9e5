import ImdbD.KeyedStore
import ImdbD.LockstepRun

/-!
# Calls on two stores

The calls of a storage manager on two stores, beside each other. What they
answer agrees when the rows they look at do.
-/
namespace ImdbD.KeyedStore
open AtomicProgram
open Program (Follows)

/-- Equal answers; of two lookups, that both have found a record or neither has. -/
inductive SameAnswer : Answer → Answer → Prop
  | same (a : Answer) : SameAnswer a a
  | found {ι κ : Type} {C : Catalog ι} {D : Catalog κ} {id : ι} {k : C.Key id} {id' : κ}
      {k' : D.Key id'} {record : ConstRecord C id k} {record' : ConstRecord D id' k'}
      (h : record.found = record'.found) : SameAnswer ⟨_, record⟩ ⟨_, record'⟩

theorem SameAnswer.symm {a b : Answer} (h : SameAnswer a b) : SameAnswer b a := by
  cases h with
  | same => exact .same _
  | found h => exact .found h.symm

variable {ι κ β : Type} {C : Catalog ι} {D : Catalog κ} {s : Store C} {t : Store D} {id : ι}
  {k : C.Key id} {id' : κ} {k' : D.Key id'} {record : ConstRecord C id k}
  {record' : ConstRecord D id' k'}

theorem selectRecord_follows (h : (s.row id k).isSome = (t.row id' k').isSome) :
    Follows SameAnswer (selectRecord id k) s (selectRecord id' k') t
      (fun r s' r' t' => r.found = r'.found ∧ s' = s ∧ t' = t) := by
  refine .atomic (fun r' t' ht => ?_)
  cases ht
  exact ⟨_, s, rfl, ⟨h, rfl, rfl⟩, .found h⟩

theorem selectRecords_follows {g : C.Group id} {g' : D.Group id'} (hm : C.Member id = D.Member id')
    (h : HEq (s.groups id g) (t.groups id' g')) :
    Follows SameAnswer (selectRecords id g) s (selectRecords id' g') t
      (fun r s' r' t' => HEq r r' ∧ s' = s ∧ t' = t) := by
  refine .atomic (fun r' t' ht => ?_)
  cases ht
  refine ⟨_, s, rfl, ⟨h, rfl, rfl⟩, ?_⟩
  generalize s.groups id g = ms at h
  generalize t.groups id' g' = ms' at h
  revert ms ms'
  rw [hm]
  rintro ms ms' h
  cases h
  exact .same _

theorem getColumn_follows {column : C.Row id → β} {column' : D.Row id' → β}
    (hfound : record.found = record'.found)
    (h : (s.row id k).map column = (t.row id' k').map column') :
    Follows SameAnswer (getColumn record column) s (getColumn record' column') t
      (fun x s' y t' => x = y ∧ s' = s ∧ t' = t) := by
  refine .atomic (fun y t' ht => ?_)
  rw [← hfound] at ht
  split at ht
  · rename_i hr
    obtain ⟨r', hr', he⟩ := Option.map_eq_some_iff.mp ht
    cases he
    rw [hr', Option.map_some, Option.map_eq_some_iff] at h
    obtain ⟨r, hrow, he⟩ := h
    refine ⟨column r, s, ?_, ⟨he, rfl, rfl⟩, ?_⟩
    · rw [if_pos hr, hrow]
      rfl
    · rw [he]
      exact .same _
  · cases ht

variable [DecidableEq ι] [DecidableEq κ] {Q : Store C → Store D → Prop}

theorem updateRecord_follows {change : C.Row id → C.Row id} {change' : D.Row id' → D.Row id'}
    (hfound : record.found = record'.found) (hrow : (s.row id k).isSome = (t.row id' k').isSome)
    (h : ∀ r r', s.row id k = some r → t.row id' k' = some r' →
      Q (s.setRow id k (change r)) (t.setRow id' k' (change' r'))) :
    Follows SameAnswer (updateRecord record change) s (updateRecord record' change') t
      (fun _ s _ t => Q s t) := by
  refine .atomic (fun _ t' ht => ?_)
  rw [← hfound] at ht
  split at ht
  · rename_i hr
    obtain ⟨r', hr', he⟩ := Option.map_eq_some_iff.mp ht
    cases he
    rw [hr', Option.isSome_some, Option.isSome_iff_exists] at hrow
    obtain ⟨r, hrow⟩ := hrow
    refine ⟨(), _, ?_, h r r' hrow hr', .same _⟩
    rw [if_pos hr, hrow]
    rfl
  · cases ht

theorem deleteRecord_follows (hfound : record.found = record'.found)
    (hrow : (s.row id k).isSome = (t.row id' k').isSome)
    (h : ∀ r r', s.row id k = some r → t.row id' k' = some r' →
      Q ((s.eraseRow id k).leave id (C.indexed id r)) ((t.eraseRow id' k').leave id' (D.indexed id' r'))) :
    Follows SameAnswer (deleteRecord record) s (deleteRecord record') t (fun _ s _ t => Q s t) := by
  refine .atomic (fun _ t' ht => ?_)
  rw [← hfound] at ht
  split at ht
  · rename_i hr
    obtain ⟨r', hr', he⟩ := Option.map_eq_some_iff.mp ht
    cases he
    rw [hr', Option.isSome_some, Option.isSome_iff_exists] at hrow
    obtain ⟨r, hrow⟩ := hrow
    refine ⟨(), _, ?_, h r r' hrow hr', .same _⟩
    rw [if_pos hr, hrow]
    rfl
  · cases ht

theorem insertRecord_follows {r : C.Row id} {r' : D.Row id'} (hk : C.primaryKey id r = some k)
    (hk' : D.primaryKey id' r' = some k') (hrow : (s.row id k).isSome = (t.row id' k').isSome)
    (h : Q ((s.setRow id k r).enter id (C.indexed id r))
      ((t.setRow id' k' r').enter id' (D.indexed id' r'))) :
    Follows SameAnswer (insertRecord id r) s (insertRecord id' r') t (fun _ s _ t => Q s t) := by
  refine .atomic (fun _ t' ht => ?_)
  simp only [hk'] at ht
  split at ht
  · cases ht
  · rename_i hnone
    cases ht
    refine ⟨(), _, ?_, h, .same _⟩
    simp only [hk]
    exact if_neg (hrow ▸ hnone)

theorem insertRecord_heap_follows {r : C.Row id} {r' : D.Row id'} (hk : C.primaryKey id r = none)
    (hk' : D.primaryKey id' r' = none) (h : Q (s.append id r) (t.append id' r')) :
    Follows SameAnswer (insertRecord id r) s (insertRecord id' r') t (fun _ s _ t => Q s t) := by
  refine .atomic (fun _ t' ht => ?_)
  simp only [hk'] at ht
  cases ht
  exact ⟨(), _, by simp only [hk], h, .same _⟩

end ImdbD.KeyedStore
