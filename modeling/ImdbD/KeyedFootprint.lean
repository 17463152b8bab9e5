import ImdbD.KeyedStore
import ImdbD.Footprint

/-!
# Footprints of the calls of a keyed store

The places of a store are the parts of its rows, the groups of its secondary
indexes and the heaps. Which columns make a part is chosen by a division, so
that two writers of different columns of one row can be independent.
-/
namespace ImdbD.KeyedStore
open AtomicProgram

/-- Every row is seen as a number of parts. -/
structure Division {ι : Type} (C : Catalog ι) where
  Part : ι → Type
  Value : ∀ id, Part id → Type
  view : ∀ id (p : Part id), C.Row id → Value id p
  ext : ∀ id {r r' : C.Row id}, (∀ p, view id p r = view id p r') → r = r'
  nonempty : ∀ id, Nonempty (Part id)

/-- A row that is one part. -/
structure Division.Whole {ι : Type} {C : Catalog ι} (D : Division C) (id : ι) (p : D.Part id) :
    Prop where
  only : ∀ q, q = p
  all : ∀ {r r'}, D.view id p r = D.view id p r' → r = r'

inductive Place {ι : Type} {C : Catalog ι} (D : Division C) where
  | row (id : ι) (k : C.Key id) (p : D.Part id)
  | group (id : ι) (g : C.Group id)
  | heap (id : ι)

variable {ι : Type} {C : Catalog ι} {D : Division C} {id : ι} {k : C.Key id} {β : Type}
  {f : Footprint (Place D)}

/-- Rows that agree in all their parts are equal. -/
theorem option_ext {a b : Option (C.Row id)}
    (h : ∀ p, a.map (D.view id p) = b.map (D.view id p)) : a = b := by
  obtain ⟨p⟩ := D.nonempty id
  cases a with
  | none =>
    have hp := h p
    rw [Option.map_none] at hp
    exact (Option.map_eq_none_iff.mp hp.symm).symm
  | some r =>
    cases b with
    | none =>
      have hp := h p
      simp at hp
    | some r' =>
      refine congrArg some (D.ext id (fun q => ?_))
      simpa using h q

/-- Two stores agree on a part of a row when both have the row with that part, or neither has it. -/
def Store.places (D : Division C) : Places (Store C) (Place D) where
  Agree
    | .row id k p, s, t => (s.row id k).map (D.view id p) = (t.row id k).map (D.view id p)
    | .group id g, s, t => s.groups id g = t.groups id g
    | .heap id, s, t => s.heap id = t.heap id
  equivalence
    | .row _ _ _ => ⟨fun _ => rfl, Eq.symm, Eq.trans⟩
    | .group _ _ => ⟨fun _ => rfl, Eq.symm, Eq.trans⟩
    | .heap _ => ⟨fun _ => rfl, Eq.symm, Eq.trans⟩
  ext h := Store.ext (fun id k => option_ext (fun p => h (.row id k p)))
    (fun id g => h (.group id g)) (fun id => h (.heap id))

/-- A program leaves every row alone of which it may write no part. -/
theorem row_of_within {p : Program (Store C) β} (h : p.Within (Store.places D) f) {s s' : Store C}
    {b : β} (hrun : p.run s = some (b, s')) (hid : ∀ q, .row id k q ∉ f.writes) :
    s'.row id k = s.row id k :=
  option_ext (fun q => (h.run.frame hrun _ (hid q)).symm)

theorem groups_of_within {p : Program (Store C) β} (h : p.Within (Store.places D) f)
    {s s' : Store C} {b : β} (hrun : p.run s = some (b, s')) {g : C.Group id}
    (hid : .group id g ∉ f.writes) : s'.groups id g = s.groups id g :=
  (h.run.frame hrun _ hid).symm

/-- Stores that agree on a part of a row both have the row. -/
theorem isSome_of_agree {s t : Store C} {p : D.Part id}
    (h : (Store.places D).Agree (.row id k p) s t) : (s.row id k).isSome = (t.row id k).isSome := by
  have hm := congrArg Option.isSome (show (s.row id k).map _ = (t.row id k).map _ from h)
  simpa using hm

theorem selectRecord_within (p : D.Part id) (h : .row id k p ∈ f.touches) :
    (selectRecord id k : Program (Store C) _).Within (Store.places D) f := by
  refine .atomic ⟨?_, ?_⟩
  · rintro s a s' he l -
    cases he
    exact Places.refl _
  · rintro s t a s' hagree he
    cases he
    exact ⟨t, by rw [isSome_of_agree (hagree _ h)], fun l hl => hagree l (Or.inr hl)⟩

theorem selectRecords_within {g : C.Group id} (h : .group id g ∈ f.touches) :
    (selectRecords id g : Program (Store C) _).Within (Store.places D) f := by
  refine .atomic ⟨?_, ?_⟩
  · rintro s a s' he l -
    cases he
    exact Places.refl _
  · rintro s t a s' hagree he
    cases he
    have hg : s.groups id g = t.groups id g := hagree _ h
    exact ⟨t, by rw [hg], fun l hl => hagree l (Or.inr hl)⟩

theorem getColumn_within (p : D.Part id) {record : ConstRecord C id k} {column : C.Row id → β}
    (h : .row id k p ∈ f.touches)
    (hcolumn : ∀ r r', D.view id p r = D.view id p r' → column r = column r') :
    (getColumn record column).Within (Store.places D) f := by
  refine .atomic ⟨?_, ?_⟩
  · intro s a s' hrun l _
    split at hrun
    · obtain ⟨r, -, he⟩ := Option.map_eq_some_iff.mp hrun
      cases he
      exact Places.refl _
    · cases hrun
  · intro s t a s' hagree hrun
    split at hrun
    · rename_i hfound
      obtain ⟨r, hr, he⟩ := Option.map_eq_some_iff.mp hrun
      cases he
      have hp : (s.row id k).map (D.view id p) = (t.row id k).map (D.view id p) := hagree _ h
      rw [hr, Option.map_some, eq_comm, Option.map_eq_some_iff] at hp
      obtain ⟨r', hr', hview⟩ := hp
      refine ⟨t, ?_, fun l hl => hagree l (Or.inr hl)⟩
      rw [if_pos hfound, hr', Option.map_some, hcolumn r' r hview]
    · cases hrun

theorem selectRecord_whole {p : D.Part id} (_ : D.Whole id p) (h : .row id k p ∈ f.touches) :
    (selectRecord id k : Program (Store C) _).Within (Store.places D) f :=
  selectRecord_within p h

theorem getColumn_whole {p : D.Part id} (hp : D.Whole id p) {record : ConstRecord C id k}
    {column : C.Row id → β} (h : .row id k p ∈ f.touches) :
    (getColumn record column).Within (Store.places D) f :=
  getColumn_within p h (fun _ _ he => congrArg column (hp.all he))

variable [DecidableEq ι]

theorem updateRecord_within (p : D.Part id) {record : ConstRecord C id k}
    {change : C.Row id → C.Row id} (h : .row id k p ∈ f.writes)
    (hother : ∀ q, q ≠ p → ∀ r, D.view id q (change r) = D.view id q r)
    (hself : ∀ r r', D.view id p r = D.view id p r' →
      D.view id p (change r) = D.view id p (change r')) :
    (updateRecord record change).Within (Store.places D) f := by
  refine .atomic ⟨?_, ?_⟩
  · intro s a s' hrun l hl
    split at hrun
    · obtain ⟨r, hr, he⟩ := Option.map_eq_some_iff.mp hrun
      cases he
      cases l with
      | row id' k' q =>
        change (s.row id' k').map _ = ((s.setRow id k (change r)).row id' k').map _
        by_cases hid : id' = id
        · subst hid
          by_cases hk : k' = k
          · subst hk
            have hq : q ≠ p := fun he => hl (he ▸ h)
            rw [Store.row_setRow_self, hr, Option.map_some, Option.map_some, hother q hq]
          · rw [Store.row_setRow_ne s _ hk]
        · rw [Store.row_setRow_other s _ hid]
      | group id' g => rfl
      | heap id' => rfl
    · cases hrun
  · intro s t a s' hagree hrun
    split at hrun
    · rename_i hfound
      obtain ⟨r, hr, he⟩ := Option.map_eq_some_iff.mp hrun
      cases he
      have hp : (s.row id k).map (D.view id p) = (t.row id k).map (D.view id p) :=
        hagree _ (Or.inr h)
      rw [hr, Option.map_some, eq_comm, Option.map_eq_some_iff] at hp
      obtain ⟨r', hr', hview⟩ := hp
      refine ⟨t.setRow id k (change r'), by rw [if_pos hfound, hr', Option.map_some], ?_⟩
      intro l hl
      cases l with
      | row id' k' q =>
        have hbefore : (s.row id' k').map _ = (t.row id' k').map _ := hagree _ (Or.inr hl)
        change ((s.setRow id k (change r)).row id' k').map _ =
          ((t.setRow id k (change r')).row id' k').map _
        by_cases hid : id' = id
        · subst hid
          by_cases hk : k' = k
          · subst hk
            rw [Store.row_setRow_self, Store.row_setRow_self, Option.map_some, Option.map_some]
            rw [hr, hr', Option.map_some, Option.map_some, Option.some_inj] at hbefore
            by_cases hq : q = p
            · subst hq
              exact congrArg some (hself r r' hview.symm)
            · rw [hother q hq, hother q hq, hbefore]
          · rw [Store.row_setRow_ne s _ hk, Store.row_setRow_ne t _ hk, hbefore]
        · rw [Store.row_setRow_other s _ hid, Store.row_setRow_other t _ hid, hbefore]
      | group id' g => exact hagree _ (Or.inr hl)
      | heap id' => exact hagree _ (Or.inr hl)
    · cases hrun

theorem updateRecord_whole {p : D.Part id} (hp : D.Whole id p) {record : ConstRecord C id k}
    {change : C.Row id → C.Row id} (h : .row id k p ∈ f.writes) :
    (updateRecord record change).Within (Store.places D) f :=
  updateRecord_within p h (fun q hq => absurd (hp.only q) hq)
    (fun _ _ he => congrArg (fun r => D.view id p (change r)) (hp.all he))

theorem insertRecord_within {r : C.Row id} (hk : C.primaryKey id r = some k)
    (h : ∀ p, .row id k p ∈ f.writes)
    (hgroup : ∀ g m, C.indexed id r = some (g, m) → .group id g ∈ f.writes) :
    (insertRecord id r).Within (Store.places D) f := by
  have hrun : ∀ {s : Store C} {a s'}, (insertRecord id r).run s = some (a, s') →
      s.row id k = none ∧ s' = (s.setRow id k r).enter id (C.indexed id r) := by
    intro s a s' hrun
    simp only [insertRecord, Program.run_atomic, hk] at hrun
    split at hrun
    · cases hrun
    · rename_i hnone
      cases hrun
      exact ⟨by simpa using hnone, rfl⟩
  have hwithin : Action.Within (Store.places D) f (insertRecord id r).run := by
    refine ⟨?_, ?_⟩
    · intro s a s' he l hl
      obtain ⟨hnone, rfl⟩ := hrun he
      cases l with
      | row id' k' q =>
        change (s.row id' k').map _ = (((s.setRow id k r).enter id _).row id' k').map _
        rw [Store.row_enter]
        by_cases hid : id' = id
        · subst hid
          by_cases hkk : k' = k
          · subst hkk
            exact absurd (h q) hl
          · rw [Store.row_setRow_ne s _ hkk]
        · rw [Store.row_setRow_other s _ hid]
      | group id' g =>
        change s.groups id' g = ((s.setRow id k r).enter id _).groups id' g
        by_cases hid : id' = id
        · subst hid
          cases hindexed : C.indexed id' r with
          | none => rfl
          | some e =>
            have hne : g ≠ e.1 := fun he => hl (he ▸ hgroup e.1 e.2 hindexed)
            rw [Store.groups_enter_ne _ _ hne, Store.groups_setRow]
        · rw [Store.groups_enter_other _ hid, Store.groups_setRow]
      | heap id' =>
        change s.heap id' = ((s.setRow id k r).enter id _).heap id'
        rw [Store.heap_enter, Store.heap_setRow]
    · intro s t a s' hagree he
      obtain ⟨hnone, rfl⟩ := hrun he
      obtain ⟨p⟩ := D.nonempty id
      have hnone' : t.row id k = none := by
        have hs := isSome_of_agree (hagree _ (Or.inr (h p)))
        simpa [hnone] using hs.symm
      refine ⟨(t.setRow id k r).enter id (C.indexed id r), run_insertRecord hk hnone', ?_⟩
      intro l hl
      cases l with
      | row id' k' q =>
        have hbefore : (s.row id' k').map _ = (t.row id' k').map _ := hagree _ (Or.inr hl)
        change (((s.setRow id k r).enter id _).row id' k').map _ =
          (((t.setRow id k r).enter id _).row id' k').map _
        rw [Store.row_enter, Store.row_enter]
        by_cases hid : id' = id
        · subst hid
          by_cases hkk : k' = k
          · subst hkk
            rw [Store.row_setRow_self, Store.row_setRow_self]
          · rw [Store.row_setRow_ne s _ hkk, Store.row_setRow_ne t _ hkk, hbefore]
        · rw [Store.row_setRow_other s _ hid, Store.row_setRow_other t _ hid, hbefore]
      | group id' g =>
        have hbefore : s.groups id' g = t.groups id' g := hagree _ (Or.inr hl)
        change ((s.setRow id k r).enter id _).groups id' g =
          ((t.setRow id k r).enter id _).groups id' g
        by_cases hid : id' = id
        · subst hid
          cases hindexed : C.indexed id' r with
          | none => exact hbefore
          | some e =>
            obtain ⟨g₀, m⟩ := e
            by_cases hg : g = g₀
            · subst hg
              rw [Store.groups_enter_self, Store.groups_enter_self, Store.groups_setRow,
                Store.groups_setRow, hbefore]
            · rw [Store.groups_enter_ne _ _ hg, Store.groups_enter_ne _ _ hg, Store.groups_setRow,
                Store.groups_setRow, hbefore]
        · rw [Store.groups_enter_other _ hid, Store.groups_enter_other _ hid, Store.groups_setRow,
            Store.groups_setRow, hbefore]
      | heap id' =>
        change ((s.setRow id k r).enter id _).heap id' = ((t.setRow id k r).enter id _).heap id'
        rw [Store.heap_enter, Store.heap_enter]
        exact hagree _ (Or.inr hl)
  have hstep := hwithin
  simp only [insertRecord, funext (Program.run_atomic _)] at hstep
  exact .atomic hstep

theorem insertRecord_heap_within {r : C.Row id} (hk : C.primaryKey id r = none)
    (h : .heap id ∈ f.writes) : (insertRecord id r).Within (Store.places D) f := by
  have heq : (insertRecord id r : Program (Store C) Unit) =
      .atomic (fun s => some ((), s.append id r)) := by
    unfold insertRecord
    congr 1
    funext s
    rw [hk]
  rw [heq]
  refine .atomic ⟨?_, ?_⟩
  · intro s a s' he l hl
    cases he
    cases l with
    | row id' k' q => rfl
    | group id' g => rfl
    | heap id' =>
      have hid : id' ≠ id := fun he => hl (he ▸ h)
      exact (Store.heap_append_other s r hid).symm
  · intro s t a s' hagree he
    cases he
    refine ⟨t.append id r, rfl, fun l hl => ?_⟩
    cases l with
    | row id' k' q => exact hagree _ (Or.inr hl)
    | group id' g => exact hagree _ (Or.inr hl)
    | heap id' =>
      have hbefore : s.heap id' = t.heap id' := hagree _ (Or.inr hl)
      change (s.append id r).heap id' = (t.append id r).heap id'
      by_cases hid : id' = id
      · subst hid
        rw [Store.heap_append_self, Store.heap_append_self, hbefore]
      · rw [Store.heap_append_other s r hid, Store.heap_append_other t r hid, hbefore]

theorem deleteRecord_within {record : ConstRecord C id k} (h : ∀ p, .row id k p ∈ f.writes)
    (hindexed : ∀ r, C.indexed id r = none) :
    (deleteRecord record).Within (Store.places D) f := by
  refine .atomic ⟨?_, ?_⟩
  · intro s a s' hrun l hl
    split at hrun
    · obtain ⟨r, hr, he⟩ := Option.map_eq_some_iff.mp hrun
      cases he
      rw [hindexed r, Store.leave_none]
      cases l with
      | row id' k' q =>
        change (s.row id' k').map _ = ((s.eraseRow id k).row id' k').map _
        by_cases hid : id' = id
        · subst hid
          by_cases hk : k' = k
          · subst hk
            exact absurd (h q) hl
          · rw [Store.row_eraseRow_ne s hk]
        · rw [Store.row_eraseRow_other s hid]
      | group id' g => rfl
      | heap id' => rfl
    · cases hrun
  · intro s t a s' hagree hrun
    split at hrun
    · rename_i hfound
      obtain ⟨r, hr, he⟩ := Option.map_eq_some_iff.mp hrun
      cases he
      obtain ⟨p⟩ := D.nonempty id
      have hs := isSome_of_agree (hagree _ (Or.inr (h p)))
      rw [hr, Option.isSome_some, eq_comm, Option.isSome_iff_exists] at hs
      obtain ⟨r', hr'⟩ := hs
      refine ⟨t.eraseRow id k, by rw [if_pos hfound, hr', Option.map_some, hindexed, Store.leave_none],
        fun l hl => ?_⟩
      rw [hindexed r, Store.leave_none]
      cases l with
      | row id' k' q =>
        have hbefore : (s.row id' k').map _ = (t.row id' k').map _ := hagree _ (Or.inr hl)
        change ((s.eraseRow id k).row id' k').map _ = ((t.eraseRow id k).row id' k').map _
        by_cases hid : id' = id
        · subst hid
          by_cases hk : k' = k
          · subst hk
            rw [Store.row_eraseRow_self, Store.row_eraseRow_self]
          · rw [Store.row_eraseRow_ne s hk, Store.row_eraseRow_ne t hk, hbefore]
        · rw [Store.row_eraseRow_other s hid, Store.row_eraseRow_other t hid, hbefore]
      | group id' g => exact hagree _ (Or.inr hl)
      | heap id' => exact hagree _ (Or.inr hl)
    · cases hrun

end ImdbD.KeyedStore
