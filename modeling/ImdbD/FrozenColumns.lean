import ImdbD.TableLoad
import ImdbD.SharedInvariant
import ImdbD.FiniteMapTable

/-!
# Tables whose records stay and whose keys are not written

While threads select and update records but write no column of an index, the
records keep their slots and the other columns. So every index leads to the same
records as ever, whatever the threads do in between.
-/
namespace ImdbD.StorageEngine
open ByteMemory AtomicProgram

namespace Session
variable {s s' : Session} {p : Ptr} {params : ColumnPredicates}

theorem Updated.primaryAnswers (h : Updated s p params s') (hx : s.PrimaryAnswers)
    (hkey : s.updatedKey p params = s.primaryKey p) : s'.PrimaryAnswers := by
  have hsame : ∀ q ∈ s.live, s'.primaryKey q = s.primaryKey q := by
    intro q hq
    by_cases hne : q = p
    · rw [hne, h.primaryKey_self, hkey]
    · exact h.primaryKey_ne hq hne
  intro index hindex key
  rw [h.primary] at hindex
  have hanswer := hx index hindex key
  rw [h.live]
  cases hr : index.searchRecord key with
  | some a =>
    rw [hr] at hanswer
    obtain ⟨q, hq, hk, ha⟩ := hanswer
    exact ⟨q, hq, (hsame q hq).trans hk, ha⟩
  | none =>
    rw [hr] at hanswer
    exact fun q hq hk => hanswer q hq ((hsame q hq).symm.trans hk)

theorem Grown.updated (h : Grown s) (hu : Updated s p params s')
    (hkey : s.updatedKey p params = s.primaryKey p) (hkeep : s.KeepsSecondary p params) : Grown s' where
  good := hu.good
  primary := hu.primaryAnswers h.primary hkey
  secondary := hu.secondaryExact h.secondary hkeep
  blocks hne := by
    rw [hu.blocks]
    exact h.blocks (by rwa [hu.live] at hne)

private theorem keepsSecondary_of_outside (h : Good s) (hp : p ∈ s.live) (hv : params.Valid s.table.schema)
    (hout : ∀ e ∈ s.table.secondaryIndexes, ∀ c ∈ params.columnIds,
      c ∉ SchemaTable.indexCols e.1) : s.KeepsSecondary p params :=
  fun e he => h.sound.layout.getKeySymbol_setColumns (h.bytes_length hp) hv
    (h.sound.validColumns he) (hout e he)

end Session

/-- The columns include those of the indexes. -/
structure TableLayout.Covered (L : TableLayout) (cols : List ℕ) : Prop where
  valid : L.schema.schema.ValidColumns cols
  primary : ∀ c ∈ L.schema.schema.primaryCols, c ∈ cols
  secondary : ∀ index, L.indexCols = some index → ∀ c ∈ index, c ∈ cols

/-- The live records are those of `live`, with the columns `cols` that they have in `rows`. -/
structure Frozen (L : TableLayout) (cols : List ℕ) (live : List Ptr) (rows : Ptr → Bytes)
    (s : Session) : Prop where
  grown : s.Grown
  frame : Session.Frame (SchemaTable.new L.schema.schema L.indexCols.toList) s.table
  slots : s.live = live
  column : ∀ p ∈ live, ∀ c ∈ cols,
    L.schema.schema.getColumn (s.bytes p) c = L.schema.schema.getColumn (rows p) c

/-- What a selection returns: a record that matched all along, or none if none did. -/
def Answers (L : TableLayout) (live : List Ptr) (rows : Ptr → Bytes) (params : List (ℕ × Bytes)) :
    Option Ptr → Prop
  | some a => ∃ p ∈ live, p.add kRecordHeaderSize = a ∧
    (ColumnPredicates.mk params).Matches L.schema.schema (rows p)
  | none => ∀ p ∈ live, ¬ (ColumnPredicates.mk params).Matches L.schema.schema (rows p)

namespace Frozen
variable {L : TableLayout} {cols : List ℕ} {live : List Ptr} {rows : Ptr → Bytes} {s : Session}
  {params : List (ℕ × Bytes)} {p : Ptr}

/-- What was loaded is frozen from then on. -/
theorem of_grew {data : List Bytes} (h : Grew L s data) (cols : List ℕ) :
    Frozen L cols s.live s.bytes s := ⟨h.grown, h.frame, rfl, fun _ _ _ _ => rfl⟩

theorem schema (h : Frozen L cols live rows s) : s.table.schema = L.schema.schema := h.frame.schema

theorem keyReadable (h : Frozen L cols live rows s) (hL : L.Keyed) :
    Session.KeyReadable s.table.schema := by
  rw [h.schema]
  exact Or.inl hL.length

theorem primarySymbol (h : Frozen L cols live rows s) (hL : L.Keyed) :
    s.table.primarySymbol = sizeWords L.schema.schema.primaryCols := by
  rw [h.frame.primarySymbol]
  exact if_pos hL.primary

theorem secondary (h : Frozen L cols live rows s) :
    s.table.secondaryIndexes.map Prod.fst = L.indexCols.toList.map sizeWords := by
  rw [h.frame.secondary]
  cases L.indexCols with
  | none => rfl
  | some index => rfl

private theorem matches_iff (h : Frozen L cols live rows s) (hcols : ∀ e ∈ params, e.1 ∈ cols)
    (hp : p ∈ live) :
    (ColumnPredicates.mk params).Matches s.table.schema (s.bytes p) ↔
      (ColumnPredicates.mk params).Matches L.schema.schema (rows p) := by
  rw [h.schema]
  refine forall₂_congr (fun e he => ?_)
  rw [h.column p hp e.1 (hcols e he)]

/-- The columns of the predicate have an index. -/
theorem selectRecord (h : Frozen L cols live rows s) (hL : L.Keyed)
    (hv : (ColumnPredicates.mk params).Valid L.schema.schema) (hne : params ≠ [])
    (hcols : ∀ e ∈ params, e.1 ∈ cols)
    (hindexed : params.map Prod.fst = L.schema.schema.primaryCols ∨
      L.indexCols = some (params.map Prod.fst)) :
    ∃ r, s.table.selectRecordColumns ⟨params⟩ = some r ∧ Answers L live rows params r := by
  have hsymbol : (ColumnPredicates.mk params).getPredicateColumnSymbol = s.table.primarySymbol ∨
      (s.table.secondaryIndex (ColumnPredicates.mk params).getPredicateColumnSymbol).isSome := by
    rcases hindexed with hprimary | hsecondary
    · exact Or.inl (by rw [h.primarySymbol hL, ← hprimary]; rfl)
    · refine Or.inr ?_
      have hmem : sizeWords (params.map Prod.fst) ∈ s.table.secondaryIndexes.map Prod.fst := by
        rw [h.secondary, hsecondary]
        exact List.mem_singleton_self _
      obtain ⟨e, he, hfst⟩ := List.mem_map.mp hmem
      rw [SchemaTable.secondaryIndex, List.lookup_isSome_iff]
      exact ⟨e, he, by rw [hfst]; exact beq_self_eq_true _⟩
  obtain ⟨r, hr, hfound⟩ := h.grown.selectRecordColumns_indexed (fun _ => h.keyReadable hL) hne
    (by rw [h.schema]; exact hv) hsymbol
  refine ⟨r, hr, ?_⟩
  cases r with
  | some a =>
    obtain ⟨p, hp, hm, ha⟩ := Session.mem_matching.mp hfound
    rw [h.slots] at hp
    exact ⟨p, hp, ha, (h.matches_iff hcols hp).mp hm⟩
  | none =>
    intro p hp hm
    have hmem := Session.mem_matching.mpr
      ⟨p, by rw [h.slots]; exact hp, (h.matches_iff hcols hp).mpr hm, rfl⟩
    rw [show s.matching ⟨params⟩ = [] from hfound] at hmem
    exact List.not_mem_nil hmem

theorem updateRecord (h : Frozen L cols live rows s) (hL : L.Keyed) (hcovered : L.Covered cols)
    (hp : p ∈ live) (hv : (ColumnPredicates.mk params).Valid L.schema.schema)
    (hout : ∀ c ∈ params.map Prod.fst, c ∉ cols) :
    ∃ s', s.table.updateRecordColumns (p.add kRecordHeaderSize) ⟨params⟩ = some s'.table ∧
      Frozen L cols live rows s' := by
  have hlive : p ∈ s.live := by rwa [h.slots]
  have hvalid : (ColumnPredicates.mk params).Valid s.table.schema := by rwa [h.schema]
  obtain ⟨table, htable, hu⟩ := Session.updateRecordColumns_spec h.grown.good hlive hvalid
  have hkey := Session.updatedKey_of_outside h.grown.good (h.keyReadable hL) hlive hvalid
    (fun c hc hprimary => hout c hc (hcovered.primary c (by rwa [h.schema] at hprimary)))
  have hkeep := Session.keepsSecondary_of_outside h.grown.good hlive hvalid (by
    intro e he c hc hindex
    have hmem := List.mem_map_of_mem (f := Prod.fst) he
    rw [h.secondary] at hmem
    obtain ⟨index, hregistered, hsymbol⟩ := List.mem_map.mp hmem
    have hregistered := Option.mem_toList.mp hregistered
    rw [← hsymbol, h.grown.good.sound.indexCols (by
      rw [h.schema]
      exact hL.columns index hregistered)] at hindex
    exact hout c hc (hcovered.secondary index hregistered c hindex))
  refine ⟨⟨table, s.live⟩, htable, h.grown.updated hu hkey hkeep, ?_, h.slots, ?_⟩
  · exact ⟨hu.frame.schema.trans h.frame.schema,
      hu.frame.primarySymbol.trans h.frame.primarySymbol,
      hu.frame.primaryIndex.trans h.frame.primaryIndex,
      hu.frame.secondary.trans h.frame.secondary⟩
  · intro q hq c hc
    rw [← h.column q hq c hc]
    by_cases hqp : q = p
    · subst hqp
      have hcolumn : s.table.schema.ValidColumns [c] := by
        rw [h.schema]
        exact List.forall_mem_singleton.mpr (hcovered.valid c hc)
      have hone := h.grown.good.sound.layout.getKeySymbol_setColumns
        (h.grown.good.bytes_length hlive) hvalid hcolumn
        (fun c' hc' hmem => hout c' hc' (by rwa [List.mem_singleton.mp hmem]))
      simp only [Schema.getKeySymbol, List.flatMap_cons, List.flatMap_nil, List.append_nil,
        h.schema] at hone
      rw [hu.bytes, h.schema]
      exact hone
    · rw [hu.kept q (by rwa [h.slots]) hqp]

theorem getColumn (h : Frozen L cols live rows s) (hp : p ∈ live) {c : ℕ} (hc : c ∈ cols) :
    s.table.schema.getColumn (s.table.base.recordAt (p.add kRecordHeaderSize)) c =
      L.schema.schema.getColumn (rows p) c := by
  rw [h.schema]
  exact h.column p hp c hc

end Frozen

namespace SchemaTables
variable {ι : Type}

/-- A table with frozen records. -/
def HoldsFrozen (L : TableLayout) (cols : List ℕ) (live : List Ptr) (rows : Ptr → Bytes) (id : ι)
    (t : SchemaTables ι) : Prop := ∃ s : Session, t id = some s.table ∧ Frozen L cols live rows s

theorem keeps_look {α : Type} {I : SchemaTables ι → Prop} (id : ι) (f : SchemaTable → Option α) :
    (Program.atomic (look id f)).Keeps I (fun _ => True) := by
  refine .atomic (fun t a t' ht hrun => ?_)
  obtain ⟨b, -, he⟩ := Option.map_eq_some_iff.mp hrun
  cases he
  exact ⟨ht, trivial⟩

variable [DecidableEq ι] {L : ι → TableLayout} {cols : List ℕ} {live : List Ptr} {rows : Ptr → Bytes}
  {id id' : ι} {params : List (ℕ × Bytes)}

/-- Whatever is done to other tables. -/
theorem keeps_change_other (hne : id ≠ id') (f : SchemaTable → Option SchemaTable) :
    (Program.atomic (change id' f)).Keeps (HoldsFrozen (L id) cols live rows id) (fun _ => True) := by
  refine .atomic (fun t a t' ht hrun => ?_)
  obtain ⟨table, -, he⟩ := Option.map_eq_some_iff.mp hrun
  cases he
  obtain ⟨s, htable, hs⟩ := ht
  exact ⟨⟨s, by rw [Function.update_of_ne hne, htable], hs⟩, trivial⟩

theorem run_selectRecord {t : SchemaTables ι} (ht : HoldsFrozen (L id) cols live rows id t)
    (hL : (L id).Keyed) (hv : (ColumnPredicates.mk params).Valid (L id).schema.schema)
    (hne : params ≠ []) (hcols : ∀ e ∈ params, e.1 ∈ cols)
    (hindexed : params.map Prod.fst = (L id).schema.schema.primaryCols ∨
      (L id).indexCols = some (params.map Prod.fst)) :
    ∃ r, ((manager L).selectRecord id params).run t = some (r, t) ∧
      Answers (L id) live rows params r := by
  obtain ⟨s, htable, hs⟩ := ht
  obtain ⟨r, hr, hanswers⟩ := hs.selectRecord hL hv hne hcols hindexed
  exact ⟨r, by rw [Program.run_atomic, look, htable, Option.bind_some, hr]; rfl, hanswers⟩

theorem run_getColumn {t : SchemaTables ι} (ht : HoldsFrozen (L id) cols live rows id t) {p : Ptr}
    (hp : p ∈ live) {c : ℕ} (hc : c ∈ cols) :
    ((manager L).getColumn (show (manager L).Found id from p.add kRecordHeaderSize) c).run t =
      some ((L id).schema.schema.getColumn (rows p) c, t) := by
  obtain ⟨s, htable, hs⟩ := ht
  rw [Program.run_atomic, look, htable, Option.bind_some, ← hs.getColumn hp hc]
  rfl

theorem keeps_selectRecord (hL : (L id).Keyed)
    (hv : (ColumnPredicates.mk params).Valid (L id).schema.schema)
    (hne : params ≠ []) (hcols : ∀ e ∈ params, e.1 ∈ cols)
    (hindexed : params.map Prod.fst = (L id).schema.schema.primaryCols ∨
      (L id).indexCols = some (params.map Prod.fst)) :
    ((manager L).selectRecord id params).Keeps (HoldsFrozen (L id) cols live rows id)
      (Answers (L id) live rows params) := by
  refine .atomic (fun t r t' ht hrun => ?_)
  obtain ⟨r', hrun', hanswers⟩ := run_selectRecord ht hL hv hne hcols hindexed
  rw [Program.run_atomic, hrun] at hrun'
  cases hrun'
  exact ⟨ht, hanswers⟩

theorem keeps_updateRecord (hL : (L id).Keyed) (hcovered : (L id).Covered cols) {p : Ptr}
    (hp : p ∈ live) (hv : (ColumnPredicates.mk params).Valid (L id).schema.schema)
    (hout : ∀ c ∈ params.map Prod.fst, c ∉ cols) :
    ((manager L).updateRecord (show (manager L).Found id from p.add kRecordHeaderSize) params).Keeps
      (HoldsFrozen (L id) cols live rows id) (fun _ => True) := by
  refine .atomic (fun t a t' ht hrun => ?_)
  obtain ⟨s, htable, hs⟩ := ht
  obtain ⟨s', hupdate, hs'⟩ := hs.updateRecord hL hcovered hp hv hout
  rw [change, htable, Option.bind_some, hupdate] at hrun
  cases hrun
  exact ⟨⟨s', Function.update_self .., hs'⟩, trivial⟩

end SchemaTables
end ImdbD.StorageEngine
