import ImdbD.RecordStore
import ImdbD.KeyedFootprint

/-!
# Footprints of the calls on a store of records

A row is one place.
-/
namespace ImdbD.AtomicProgram
variable {σ α L : Type} {F : Places σ L}

/-- Every place but one. -/
def Footprint.except (l : L) : Footprint L := ⟨{l}ᶜ, {l}ᶜ⟩

theorem Footprint.mem_except {l l' : L} (h : l' ≠ l) : l' ∈ (Footprint.except l).writes := h

/-- A program that stays away from a place does the same on states that differ at that place
only, and leaves the place as it was. -/
theorem Program.Within.differ {p : Program σ α} {l : L} (h : p.Within F (.except l)) {s t s' : σ}
    {a : α} (hagree : ∀ l', l' ≠ l → F.Agree l' s t) (hrun : p.run s = some (a, s')) :
    ∃ t', p.run t = some (a, t') ∧ F.Agree l s s' ∧ F.Agree l t t' := by
  have hl : l ∉ (Footprint.except l).writes := fun hmem => hmem rfl
  obtain ⟨t', ht, -⟩ := h.run.local_ (fun l' hl' => hagree l' (hl'.elim (fun h => h) (fun h => h)))
    hrun
  exact ⟨t', ht, h.run.frame hrun l hl, h.run.frame ht l hl⟩

end ImdbD.AtomicProgram

namespace ImdbD.StorageEngine
open AtomicProgram KeyedStore ByteMemory

/-- Every row as one part. -/
abbrev wholeRows {ι : Type} (C : Catalog ι) : Division C where
  Part _ := Unit
  Value id _ := C.Row id
  view _ _ r := r
  ext _ _ _ h := h ()
  nonempty _ := ⟨()⟩

private theorem wholeRows_whole {ι : Type} (C : Catalog ι) (id : ι) : (wholeRows C).Whole id () :=
  ⟨fun _ => rfl, fun h => h⟩

namespace RecordStore
variable {ι : Type} {L : ι → TableLayout} {id : ι} {k : Bytes} {params : List (ℕ × Bytes)}

abbrev RecordPlace (L : ι → TableLayout) := Place (wholeRows (recordCatalog L))

abbrev places (L : ι → TableLayout) : Places (RecordStore L) (RecordPlace L) :=
  Store.places (wholeRows (recordCatalog L))

/-- Stores that agree on a row have the same row. -/
theorem row_of_agree {s t : RecordStore L} (h : (places L).Agree (.row id k ()) s t) :
    s.row id k = t.row id k := by
  have hm : (s.row id k).map (fun r => r) = (t.row id k).map (fun r => r) := h
  simpa using hm

variable [DecidableEq ι] {f : Footprint (RecordPlace L)}

/-- A selection by the primary columns looks at one row. -/
theorem selectRecord_within (hp : params.map Prod.fst = (L id).schema.schema.primaryCols)
    (h : .row id (predicateKey (L id).schema params) () ∈ f.touches) :
    ((manager L).selectRecord id params).Within (places L) f := by
  refine .atomic (.look (fun hagree => ?_))
  rw [search, if_pos hp, search, if_pos hp, row_of_agree (hagree _ h)]

/-- What follows a selection by the primary columns. -/
theorem selectRecord_bind_within {β : Type}
    {q : Option ((manager L).Found id) → Program (RecordStore L) β}
    (hp : params.map Prod.fst = (L id).schema.schema.primaryCols)
    (h : .row id (predicateKey (L id).schema params) () ∈ f.touches)
    (hnone : (q none).Within (places L) f)
    (hsome : (q (some (predicateKey (L id).schema params))).Within (places L) f) :
    ((manager L).selectRecord id params >>= q).Within (places L) f := by
  refine .atomic_bind (selectRecord_within hp h).1 (fun s a s' hrun => ?_)
  rw [search_primary hp rfl, Option.map_some] at hrun
  cases hrun
  cases s.row id (predicateKey (L id).schema params) with
  | none => exact hnone
  | some _ => exact hsome

/-- A selection by the columns of the secondary index looks at one group. -/
theorem selectRecord_group_within (hp : params.map Prod.fst ≠ (L id).schema.schema.primaryCols)
    (h : .group id (predicateKey (L id).schema params) ∈ f.touches) :
    ((manager L).selectRecord id params).Within (places L) f := by
  refine .atomic (.look (fun {s t} hagree => ?_))
  have hg : s.groups id (predicateKey (L id).schema params) =
      t.groups id (predicateKey (L id).schema params) := hagree _ h
  rw [search, if_neg hp, search, if_neg hp, hg]

theorem getColumn_within {k : (manager L).Found id} {column : ℕ} (h : .row id k () ∈ f.touches) :
    ((manager L).getColumn k column).Within (places L) f := by
  have hlook : Action.Within (places L) f (fun s : RecordStore L =>
      ((s.row id k).map (fun r => r.getColumn column)).map (fun a => (a, s))) :=
    .look (fun hagree => by rw [row_of_agree (hagree _ h)])
  refine .atomic ?_
  simpa only [Option.map_map, Function.comp_def] using hlook

theorem updateRecord_within {k : (manager L).Found id} (h : .row id k () ∈ f.writes) :
    ((manager L).updateRecord k params).Within (places L) f :=
  KeyedStore.updateRecord_whole (wholeRows_whole _ id) h

theorem insertRecord_within {r : Record (L id).schema} (hk : r.primaryKey = some k)
    (h : .row id k () ∈ f.writes)
    (hgroup : ∀ cols, (L id).indexCols = some cols → .group id (r.keySymbol cols) ∈ f.writes) :
    ((manager L).insertRecord id r).Within (places L) f := by
  refine KeyedStore.insertRecord_within hk (fun _ => h) (fun g m hi => ?_)
  obtain ⟨cols, hcols, he⟩ := Option.bind_eq_some_iff.mp hi
  rw [hk, Option.map_some] at he
  cases he
  exact hgroup cols hcols

theorem insertRecord_heap_within {r : Record (L id).schema} (hk : r.primaryKey = none)
    (h : .heap id ∈ f.writes) : ((manager L).insertRecord id r).Within (places L) f :=
  KeyedStore.insertRecord_heap_within hk h

theorem deleteRecord_within {k : (manager L).Found id} (h : .row id k () ∈ f.writes)
    (hi : (L id).indexCols = none) : ((manager L).deleteRecord k).Within (places L) f := by
  refine KeyedStore.deleteRecord_within (fun _ => h) (fun r => ?_)
  change (L id).indexCols.bind _ = none
  rw [hi]
  rfl

end RecordStore
end ImdbD.StorageEngine
