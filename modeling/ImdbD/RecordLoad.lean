import ImdbD.TableStorage

/-!
# Loading records into empty tables

Records with distinct primary keys are inserted one after another. Afterwards
the tables have these rows and no others, and the secondary indexes list them.
-/
namespace ImdbD.StorageEngine
open ByteMemory AtomicProgram KeyedStore
variable {ι σ : Type} {L : ι → TableLayout}

/-- Insert a list of records. -/
def load (M : StorageManager L σ) (records : List (Σ id, Record (L id).schema)) : Program σ Unit :=
  Program.each (fun e => M.insertRecord e.1 e.2) records

namespace RecordStore

/-- The table and the bytes under which a record is kept. -/
def place (e : Σ id, Record (L id).schema) : Σ _ : ι, Bytes :=
  ⟨e.1, (L e.1).schema.schema.getPrimaryKeySymbol e.2.data⟩

/-- The rows are the records of the list, each under its primary key. -/
structure Loaded (records : List (Σ id, Record (L id).schema)) (s : RecordStore L) : Prop where
  row : ∀ id k r, s.row id k = some r ↔ ⟨id, r⟩ ∈ records ∧ r.primaryKey = some k
  group : ∀ id cols, (L id).indexCols = some cols → ∀ g k, k ∈ s.groups id g ↔
    ∃ r, ⟨id, r⟩ ∈ records ∧ r.keySymbol cols = g ∧ r.primaryKey = some k

variable {s : RecordStore L} {records : List (Σ id, Record (L id).schema)} {id : ι} {k : Bytes}

theorem Loaded.empty : Loaded [] (Store.empty : RecordStore L) where
  row id k r := by simp [Store.empty, Store.row]
  group id cols _ g k := by simp [Store.empty]

theorem Loaded.primaryKey (h : Loaded records s) {r : Record (L id).schema}
    (hr : s.row id k = some r) : r.primaryKey = some k := ((h.row id k r).mp hr).2

variable [DecidableEq ι]

theorem Loaded.insertRecord (h : Loaded records s) {r : Record (L id).schema}
    (hk : r.primaryKey = some k) (hnew : s.row id k = none) :
    Loaded (records ++ [⟨id, r⟩]) ((s.setRow id k r).enter id
      ((L id).indexCols.map (fun cols => (r.keySymbol cols, k)))) where
  row id' k' r' := by
    rw [Store.row_enter, List.mem_append, List.mem_singleton]
    by_cases hid : id' = id
    · subst hid
      rw [Store.row_setRow_apply]
      split
      · rename_i he
        subst he
        constructor
        · intro he
          cases he
          exact ⟨.inr rfl, hk⟩
        · rintro ⟨hmem | hmem, hk'⟩
          · have hold := (h.row id' k' r').mpr ⟨hmem, hk'⟩
            rw [hnew] at hold
            cases hold
          · cases hmem
            rfl
      · rename_i hne
        rw [h.row]
        constructor
        · rintro ⟨hmem, hk'⟩
          exact ⟨.inl hmem, hk'⟩
        · rintro ⟨hmem | hmem, hk'⟩
          · exact ⟨hmem, hk'⟩
          · cases hmem
            exact absurd (Option.some.inj (hk'.symm.trans hk)) hne
    · rw [Store.row_setRow_other s r hid, h.row]
      have hne : (⟨id', r'⟩ : Σ id, Record (L id).schema) ≠ ⟨id, r⟩ := fun he => hid (congrArg Sigma.fst he)
      simp [hne]
  group id' cols hcols g k' := by
    by_cases hid : id' = id
    · subst hid
      rw [hcols, Option.map_some, Store.groups_enter_apply, Store.groups_setRow]
      split
      · rename_i hg
        rw [List.mem_cons, h.group id' cols hcols]
        constructor
        · rintro (rfl | ⟨r', hmem, hg', hk'⟩)
          · exact ⟨r, by simp, hg.symm, hk⟩
          · exact ⟨r', List.mem_append_left _ hmem, hg', hk'⟩
        · rintro ⟨r', hmem, hg', hk'⟩
          rcases List.mem_append.mp hmem with hmem | hmem
          · exact .inr ⟨r', hmem, hg', hk'⟩
          · cases List.mem_singleton.mp hmem
            exact .inl (Option.some.inj (hk'.symm.trans hk))
      · rename_i hg
        rw [h.group id' cols hcols]
        constructor
        · rintro ⟨r', hmem, hrest⟩
          exact ⟨r', List.mem_append_left _ hmem, hrest⟩
        · rintro ⟨r', hmem, hg', hk'⟩
          rcases List.mem_append.mp hmem with hmem | hmem
          · exact ⟨r', hmem, hg', hk'⟩
          · cases List.mem_singleton.mp hmem
            exact absurd hg'.symm hg
    · rw [Store.groups_enter_other _ hid, Store.groups_setRow, h.group id' cols hcols]
      have hne : ∀ r', (⟨id', r'⟩ : Σ id, Record (L id).schema) ≠ ⟨id, r⟩ :=
        fun r' he => hid (congrArg Sigma.fst he)
      simp [hne]

/-- Records with distinct places can be loaded. -/
theorem run_load (hL : ∀ id, (L id).Keyed) (hnodup : (records.map place).Nodup) :
    ∃ s, (load (manager L) records).run Store.empty = some ((), s) ∧ Loaded records s := by
  have hspec : Program.Ensures True (load (manager L) records) Store.empty
      (fun _ s => Loaded records s) := by
    refine .each (I := fun before s => Loaded before s) ?_ .empty
    rintro before ⟨id, r⟩ after s rfl hs
    have hk := r.primaryKey_eq_symbol (hL id).primary
    have hnew : s.row id ((L id).schema.schema.getPrimaryKeySymbol r.data) = none := by
      refine Option.eq_none_iff_forall_ne_some.mpr (fun r' hr' => ?_)
      obtain ⟨hmem, hk'⟩ := (hs.row id _ r').mp hr'
      have hkey' := (r'.primaryKey_eq_symbol (hL id).primary).symm.trans hk'
      have hplace : place (⟨id, r⟩ : Σ id, Record (L id).schema) ∈ before.map place :=
        List.mem_map.mpr ⟨_, hmem, congrArg (Sigma.mk id) (Option.some.inj hkey')⟩
      rw [List.map_append, List.map_cons] at hnodup
      exact (List.nodup_append.mp hnodup).2.2 _ hplace _ List.mem_cons_self rfl
    have hrun := KeyedStore.run_insertRecord (C := recordCatalog L) hk hnew
    rw [indexed_eq hk] at hrun
    exact .of_run hrun (hs.insertRecord hk hnew)
  obtain ⟨_, s, hrun, hs⟩ := hspec.exists_run trivial
  exact ⟨s, hrun, hs⟩

end RecordStore

end ImdbD.StorageEngine
