import ImdbD.AtomicProgram
import Mathlib.Data.Finmap

/-!
# A store of keyed tables

A catalog says of every table what its rows and keys are, and which rows a
search through its secondary index can meet. A store holds the rows of each
table under their keys; rows without a key are only appended. The calls of the
store are atomic actions.
-/
namespace ImdbD.KeyedStore
open AtomicProgram

/-- What is known of the tables of a store. `primaryKey` is `none` for a table without a primary
index, `indexed` for one without a secondary index. -/
structure Catalog (ι : Type) where
  Key : ι → Type
  Row : ι → Type
  /-- The keys of the secondary index. -/
  Group : ι → Type
  /-- What a record adds to its group to make a primary key. -/
  Member : ι → Type
  primaryKey : ∀ id, Row id → Option (Key id)
  indexed : ∀ id, Row id → Option (Group id × Member id)
  keyOf : ∀ id, Group id → Member id → Key id
  [decKey : ∀ id, DecidableEq (Key id)]
  [decGroup : ∀ id, DecidableEq (Group id)]

attribute [instance] Catalog.decKey Catalog.decGroup

/-- The contents of the tables: the rows that have a key, the secondary index, the other rows. -/
structure Store {ι : Type} (C : Catalog ι) where
  rows : ∀ id, Finmap (fun _ : C.Key id => C.Row id)
  groups : ∀ id, C.Group id → List (C.Member id)
  heap : ∀ id, List (C.Row id)

variable {ι : Type} {C : Catalog ι} {id id' : ι} {k k' : C.Key id} {β : Type}

namespace Store

def empty : Store C := ⟨fun _ => ∅, fun _ _ => [], fun _ => []⟩

/-- The row under a key. -/
def row (s : Store C) (id : ι) (k : C.Key id) : Option (C.Row id) := (s.rows id).lookup k

@[ext] theorem ext {s t : Store C} (hrow : ∀ id k, s.row id k = t.row id k)
    (hgroups : ∀ id g, s.groups id g = t.groups id g) (hheap : ∀ id, s.heap id = t.heap id) :
    s = t := by
  cases s
  cases t
  congr
  · funext id
    exact Finmap.ext_lookup (hrow id)
  · funext id g
    exact hgroups id g
  · funext id
    exact hheap id

variable [DecidableEq ι]

def setRow (s : Store C) (id : ι) (k : C.Key id) (r : C.Row id) : Store C :=
  { s with rows := Function.update s.rows id ((s.rows id).insert k r) }

def eraseRow (s : Store C) (id : ι) (k : C.Key id) : Store C :=
  { s with rows := Function.update s.rows id ((s.rows id).erase k) }

def setGroup (s : Store C) (id : ι) (g : C.Group id) (ms : List (C.Member id)) : Store C :=
  { s with groups := Function.update s.groups id (Function.update (s.groups id) g ms) }

/-- Enter a row into the secondary index. -/
def enter (s : Store C) (id : ι) : Option (C.Group id × C.Member id) → Store C
  | some (g, m) => s.setGroup id g (m :: s.groups id g)
  | none => s

/-- Take a row's key out of the secondary index, with all that is under it. -/
def leave (s : Store C) (id : ι) : Option (C.Group id × C.Member id) → Store C
  | some (g, _) => s.setGroup id g []
  | none => s

def append (s : Store C) (id : ι) (r : C.Row id) : Store C :=
  { s with heap := Function.update s.heap id (s.heap id ++ [r]) }

variable (s : Store C) (r : C.Row id)

@[simp] theorem row_setRow_self : (s.setRow id k r).row id k = some r := by
  simp [row, setRow]

theorem row_setRow_ne (h : k' ≠ k) : (s.setRow id k r).row id k' = s.row id k' := by
  simp [row, setRow, Finmap.lookup_insert_of_ne _ h]

@[simp] theorem row_eraseRow_self : (s.eraseRow id k).row id k = none := by
  simp [row, eraseRow]

theorem row_eraseRow_ne (h : k' ≠ k) : (s.eraseRow id k).row id k' = s.row id k' := by
  simp [row, eraseRow, Finmap.lookup_erase_ne h]

theorem row_setRow_other (h : id' ≠ id) (k' : C.Key id') :
    (s.setRow id k r).row id' k' = s.row id' k' := by
  simp [row, setRow, Function.update_of_ne h]

theorem row_eraseRow_other (h : id' ≠ id) (k' : C.Key id') :
    (s.eraseRow id k).row id' k' = s.row id' k' := by
  simp [row, eraseRow, Function.update_of_ne h]

@[simp] theorem setRow_setRow (r' : C.Row id) :
    (s.setRow id k r).setRow id k r' = s.setRow id k r' := by
  simp [setRow]

theorem row_setRow_of_ne {k' : C.Key id'} (h : (⟨id', k'⟩ : Σ id, C.Key id) ≠ ⟨id, k⟩) :
    (s.setRow id k r).row id' k' = s.row id' k' := by
  by_cases hid : id' = id
  · subst hid
    exact row_setRow_ne s r (fun hk => h (hk ▸ rfl))
  · exact row_setRow_other s r hid k'

theorem row_eraseRow_of_ne {k' : C.Key id'} (h : (⟨id', k'⟩ : Σ id, C.Key id) ≠ ⟨id, k⟩) :
    (s.eraseRow id k).row id' k' = s.row id' k' := by
  by_cases hid : id' = id
  · subst hid
    exact row_eraseRow_ne s (fun hk => h (hk ▸ rfl))
  · exact row_eraseRow_other s hid k'

theorem row_setRow_apply (k' : C.Key id) :
    (s.setRow id k r).row id k' = if k' = k then some r else s.row id k' := by
  split
  · rename_i he
    rw [he, row_setRow_self]
  · rename_i he
    exact row_setRow_ne s r he

theorem row_eraseRow_apply (k' : C.Key id) :
    (s.eraseRow id k).row id k' = if k' = k then none else s.row id k' := by
  split
  · rename_i he
    rw [he, row_eraseRow_self]
  · rename_i he
    exact row_eraseRow_ne s he

@[simp] theorem groups_setRow : (s.setRow id k r).groups = s.groups := rfl
@[simp] theorem groups_eraseRow : (s.eraseRow id k).groups = s.groups := rfl
@[simp] theorem heap_setRow : (s.setRow id k r).heap = s.heap := rfl
@[simp] theorem heap_eraseRow : (s.eraseRow id k).heap = s.heap := rfl
@[simp] theorem row_append : (s.append id r).row = s.row := rfl
@[simp] theorem groups_append : (s.append id r).groups = s.groups := rfl

@[simp] theorem heap_append_self : (s.append id r).heap id = s.heap id ++ [r] := by
  simp [append]

theorem heap_append_other (h : id' ≠ id) : (s.append id r).heap id' = s.heap id' := by
  simp [append, Function.update_of_ne h]

@[simp] theorem row_enter (e : Option (C.Group id × C.Member id)) : (s.enter id e).row = s.row := by
  cases e <;> rfl

@[simp] theorem heap_enter (e : Option (C.Group id × C.Member id)) :
    (s.enter id e).heap = s.heap := by
  cases e <;> rfl

@[simp] theorem enter_none : s.enter id none = s := rfl

@[simp] theorem groups_enter_self (g : C.Group id) (m : C.Member id) :
    (s.enter id (some (g, m))).groups id g = m :: s.groups id g := by
  simp [enter, setGroup]

theorem groups_enter_ne {g g' : C.Group id} (m : C.Member id) (h : g' ≠ g) :
    (s.enter id (some (g, m))).groups id g' = s.groups id g' := by
  simp [enter, setGroup, Function.update_of_ne h]

theorem groups_enter_apply (g g' : C.Group id) (m : C.Member id) :
    (s.enter id (some (g, m))).groups id g' =
      if g' = g then m :: s.groups id g' else s.groups id g' := by
  split
  · rename_i he
    rw [he, groups_enter_self]
  · rename_i he
    exact groups_enter_ne s m he

theorem groups_enter_other (h : id' ≠ id) (e : Option (C.Group id × C.Member id))
    (g : C.Group id') : (s.enter id e).groups id' g = s.groups id' g := by
  rcases e with - | ⟨g', m⟩
  · rfl
  · simp [enter, setGroup, Function.update_of_ne h]

@[simp] theorem leave_none : s.leave id none = s := rfl

@[simp] theorem row_leave (e : Option (C.Group id × C.Member id)) : (s.leave id e).row = s.row := by
  cases e <;> rfl

@[simp] theorem heap_leave (e : Option (C.Group id × C.Member id)) :
    (s.leave id e).heap = s.heap := by
  cases e <;> rfl

/-- Change the row under a key, if there is one. -/
def changeRow (s : Store C) (id : ι) (k : C.Key id) (change : C.Row id → C.Row id) : Store C :=
  match s.row id k with
  | some r => s.setRow id k (change r)
  | none => s

variable {change : C.Row id → C.Row id}

theorem row_changeRow_self : (s.changeRow id k change).row id k = (s.row id k).map change := by
  unfold changeRow
  split <;> simp [*]

theorem row_changeRow_of_ne {k' : C.Key id'} (h : (⟨id', k'⟩ : Σ id, C.Key id) ≠ ⟨id, k⟩) :
    (s.changeRow id k change).row id' k' = s.row id' k' := by
  unfold changeRow
  split
  · exact row_setRow_of_ne s _ h
  · rfl

@[simp] theorem groups_changeRow : (s.changeRow id k change).groups = s.groups := by
  unfold changeRow
  split <;> rfl

@[simp] theorem heap_changeRow : (s.changeRow id k change).heap = s.heap := by
  unfold changeRow
  split <;> rfl

/-- Without the row nothing is changed. -/
theorem changeRow_of_none (h : s.row id k = none) : s.changeRow id k change = s := by
  unfold changeRow
  rw [h]

theorem eraseRow_of_none (h : s.row id k = none) : s.eraseRow id k = s := by
  refine Store.ext (fun id' k' => ?_) (fun _ _ => rfl) (fun _ => rfl)
  by_cases he : (⟨id', k'⟩ : Σ id, C.Key id) = ⟨id, k⟩
  · cases he
    rw [row_eraseRow_self, h]
  · exact row_eraseRow_of_ne s he

theorem row_of_setRow_eq_self {r : C.Row id} (h : s.setRow id k r = s) : s.row id k = some r := by
  have hrow : (s.setRow id k r).row id k = some r := row_setRow_self s r
  rwa [h] at hrow

theorem eraseRow_eq_self_iff : s.eraseRow id k = s ↔ s.row id k = none := by
  constructor
  · intro h
    rw [← h, row_eraseRow_self]
  · exact eraseRow_of_none s

theorem changeRow_eq_self_iff :
    s.changeRow id k change = s ↔ ∀ r, s.row id k = some r → change r = r := by
  constructor
  · intro h r hr
    have hself : (s.changeRow id k change).row id k = (s.row id k).map change :=
      row_changeRow_self s
    rw [h, hr] at hself
    exact (Option.some.inj hself).symm
  · intro h
    refine Store.ext (fun id' k' => ?_) (fun _ _ => ?_) (fun _ => ?_)
    · by_cases he : (⟨id', k'⟩ : Σ id, C.Key id) = ⟨id, k⟩
      · cases he
        rw [row_changeRow_self]
        cases hr : s.row id k with
        | none => rfl
        | some r => rw [Option.map_some, h r hr]
      · exact row_changeRow_of_ne s he
    · rw [groups_changeRow]
    · rw [heap_changeRow]

end Store

/-- A reference to the record under a key, or `NULL`. -/
structure ConstRecord (C : Catalog ι) (id : ι) (k : C.Key id) where
  found : Bool
  deriving DecidableEq

def selectRecord (id : ι) (k : C.Key id) : Program (Store C) (ConstRecord C id k) :=
  .atomic (fun s => some (⟨(s.row id k).isSome⟩, s))

/-- The keys of the records of a group. -/
def selectRecords (id : ι) (g : C.Group id) : Program (Store C) (List (C.Member id)) :=
  .atomic (fun s => some (s.groups id g, s))

/-- The record that a search through the secondary index returns for a member of a group. -/
def ConstRecord.ofMember (g : C.Group id) (m : C.Member id) : ConstRecord C id (C.keyOf id g m) :=
  ⟨true⟩

/-- Read a column of the record. -/
def getColumn (record : ConstRecord C id k) (column : C.Row id → β) : Program (Store C) β :=
  .atomic (fun s =>
    if record.found then (s.row id k).map (fun r => (column r, s)) else none)

variable {s : Store C} {r : C.Row id}

@[simp] theorem run_selectRecord (s : Store C) (id : ι) (k : C.Key id) :
    (selectRecord id k).run s = some (⟨(s.row id k).isSome⟩, s) :=
  Program.run_atomic _ s

@[simp] theorem run_selectRecords (s : Store C) (id : ι) (g : C.Group id) :
    (selectRecords id g).run s = some (s.groups id g, s) :=
  Program.run_atomic _ s

theorem run_getColumn (h : s.row id k = some r) (column : C.Row id → β) :
    (getColumn (k := k) ⟨true⟩ column).run s = some (column r, s) := by
  simp [getColumn, h]

variable [DecidableEq ι]

/-- Write columns of the record in place. -/
def updateRecord (record : ConstRecord C id k) (change : C.Row id → C.Row id) :
    Program (Store C) Unit :=
  .atomic (fun s =>
    if record.found then (s.row id k).map (fun r => ((), s.setRow id k (change r))) else none)

/-- A key that is already live must not be inserted. -/
def insertRecord (id : ι) (r : C.Row id) : Program (Store C) Unit :=
  .atomic (fun s =>
    match C.primaryKey id r with
    | some k =>
      if (s.row id k).isSome then none
      else some ((), (s.setRow id k r).enter id (C.indexed id r))
    | none => some ((), s.append id r))

def deleteRecord (record : ConstRecord C id k) : Program (Store C) Unit :=
  .atomic (fun s =>
    if record.found then
      (s.row id k).map (fun r => ((), (s.eraseRow id k).leave id (C.indexed id r)))
    else none)

theorem run_updateRecord (h : s.row id k = some r) (change : C.Row id → C.Row id) :
    (updateRecord (k := k) ⟨true⟩ change).run s = some ((), s.setRow id k (change r)) := by
  simp [updateRecord, h]

theorem run_insertRecord (hk : C.primaryKey id r = some k) (h : s.row id k = none) :
    (insertRecord id r).run s = some ((), (s.setRow id k r).enter id (C.indexed id r)) := by
  simp [insertRecord, hk, h]

/-- Where a row was inserted there was none. -/
theorem row_of_insertRecord {s s' : Store C} (hk : C.primaryKey id r = some k)
    (h : (insertRecord id r).run s = some ((), s')) : s.row id k = none := by
  simp only [insertRecord, Program.run_atomic, hk] at h
  split at h
  · cases h
  · rename_i hnone
    simpa using hnone

theorem run_insertRecord_heap (hk : C.primaryKey id r = none) :
    (insertRecord id r).run s = some ((), s.append id r) := by
  simp [insertRecord, hk]

theorem run_deleteRecord (h : s.row id k = some r) :
    (deleteRecord (k := k) ⟨true⟩).run s =
      some ((), (s.eraseRow id k).leave id (C.indexed id r)) := by
  simp [deleteRecord, h]

/-- In a table without a secondary index. -/
theorem run_insertRecord_plain (hk : C.primaryKey id r = some k) (hi : C.indexed id r = none)
    (h : s.row id k = none) : (insertRecord id r).run s = some ((), s.setRow id k r) := by
  rw [run_insertRecord hk h, hi, Store.enter_none]

theorem run_deleteRecord_plain (h : s.row id k = some r) (hi : C.indexed id r = none) :
    (deleteRecord (k := k) ⟨true⟩).run s = some ((), s.eraseRow id k) := by
  rw [run_deleteRecord h, hi, Store.leave_none]

end ImdbD.KeyedStore
