import ImdbD.RecordStore
import ImdbD.FiniteMapTable

/-!
# A table of slots holds the rows of a store

A table keeps its records in slots, with indexes from keys to addresses. It
holds a table of the store when its live records are the rows, each under its
primary key, and its indexes lead to them. Every call keeps that.
-/
namespace ImdbD.StorageEngine
open ByteMemory KeyedStore

namespace Record
variable {S : BuiltSchema}

theorem data_injective : Function.Injective (Record.data : Record S → Bytes) := by
  rintro ⟨data, size⟩ ⟨_, _⟩ rfl
  rfl

private theorem data_setColumns (r : Record S) (entries : List (ℕ × Bytes)) :
    (r.setColumns entries).data = S.schema.setColumns r.data entries := by
  induction entries generalizing r with
  | nil => rfl
  | cons e es ih => exact ih _

theorem primaryKey_eq_symbol (r : Record S) (hn : S.schema.primaryColNum ≠ 0) :
    r.primaryKey = some (S.schema.getPrimaryKeySymbol r.data) :=
  if_neg hn

end Record

/-- The primary index leads from a key to an address. -/
def SchemaTable.Located (table : SchemaTable) (address : Ptr) (key : Bytes) : Prop :=
  ∃ index, table.primaryIndex = some index ∧ index.searchRecord key = some address

/-- The schema has a primary key of at least one byte, and an index over its own columns. -/
structure TableLayout.Keyed (L : TableLayout) : Prop where
  primary : L.schema.schema.primaryColNum ≠ 0
  length : L.schema.schema.primaryKeyLength ≠ 0
  fits : L.schema.schema.getSchemaSize + kRecordHeaderSize ≤ kBlockSize
  columns : ∀ cols, L.indexCols = some cols → L.schema.schema.ValidColumns cols

/-- The secondary index of a table lists the addresses of a group in the order of its keys. -/
def SecondaryHolds (L : TableLayout) (table : SchemaTable) (groups : Bytes → List Bytes) : Prop :=
  match L.indexCols with
  | none => table.secondaryIndexes = []
  | some cols => ∃ index, table.secondaryIndexes = [(sizeWords cols, index)] ∧
    ∀ g, List.Forall₂ table.Located (index.searchRecords g) (groups g)

/-- The live records of a session are the rows of a table of a store. -/
structure Holds (L : TableLayout) (s : Session) (row : Bytes → Option (Record L.schema))
    (groups : Bytes → List Bytes) : Prop where
  good : s.Good
  schema : s.table.schema = L.schema.schema
  indexed : s.table.primaryIndex.isSome
  distinct : s.DistinctKeys
  exact_ : s.PrimaryExact
  live : ∀ p ∈ s.live, ∃ r, row (s.primaryKey p) = some r ∧ r.data = s.bytes p
  only : ∀ k, (row k).isSome → ∃ p ∈ s.live, s.primaryKey p = k
  secondary : SecondaryHolds L s.table groups

/-- The bytes of the records in the occupied slots, as a scan comes by them. -/
def SchemaTable.records (table : SchemaTable) : List Bytes :=
  table.base.recordPtrs.map table.base.recordAt

/-- The records in the slots of a table are rows, each under its primary key, and no two of them
share their key. -/
structure Contents (L : TableLayout) (table : SchemaTable) (row : Bytes → Option (Record L.schema)) :
    Prop where
  distinct : (table.records.map L.schema.schema.getPrimaryKeySymbol).Nodup
  key : ∀ k r, row k = some r → r.primaryKey = some k
  mem_iff : ∀ data, data ∈ table.records ↔ ∃ k r, row k = some r ∧ r.data = data

namespace Holds
variable {L : TableLayout} {s : Session} {row : Bytes → Option (Record L.schema)}
  {groups : Bytes → List Bytes} {a : Ptr} {k : Bytes} {params : ColumnPredicates}

theorem located_iff (h : Holds L s row groups) : s.table.Located a k ↔
    ∃ p ∈ s.live, s.primaryKey p = k ∧ p.add kRecordHeaderSize = a := by
  constructor
  · rintro ⟨index, hindex, hsearch⟩
    exact (h.exact_ index hindex k a).mp hsearch
  · intro hlive
    obtain ⟨index, hindex⟩ := Option.isSome_iff_exists.mp h.indexed
    exact ⟨index, hindex, (h.exact_ index hindex k a).mpr hlive⟩

/-- What lies at the address of a key is the row under that key. -/
theorem recordAt_eq (h : Holds L s row groups) (ha : s.table.Located a k) :
    ∃ r, row k = some r ∧ s.table.base.recordAt a = r.data := by
  obtain ⟨p, hp, rfl, rfl⟩ := h.located_iff.mp ha
  obtain ⟨r, hr, hdata⟩ := h.live p hp
  exact ⟨r, hr, hdata.symm⟩

theorem keyReadable (h : Holds L s row groups) (hk : L.Keyed) :
    Session.KeyReadable s.table.schema :=
  .inl (by rw [h.schema]; exact hk.length)

private theorem rel_head? {α β : Type} {R : α → β → Prop} {as : List α} {bs : List β}
    (h : List.Forall₂ R as bs) : Option.Rel R as.head? bs.head? := by
  cases h with
  | nil => exact .none
  | cons hab _ => exact .some hab

/-- A selection by the primary columns. -/
theorem selectRecord (h : Holds L s row groups) (hk : L.Keyed) (hv : params.Valid L.schema.schema)
    (hcols : params.columnIds = L.schema.schema.primaryCols) :
    ∃ r, s.table.selectRecordColumns params = some r ∧ Option.Rel s.table.Located r
      ((row (params.getPredicateDataSymbol L.schema.schema)).map
        (fun _ => params.getPredicateDataSymbol L.schema.schema)) := by
  rw [← h.schema] at hv hcols ⊢
  obtain ⟨r, hr, hfound⟩ := h.exact_.found h.good h.indexed (h.keyReadable hk) hv hcols
  refine ⟨r, hr, ?_⟩
  have hmatch := fun {p} => h.good.primaryKey_eq_iff (h.keyReadable hk) hv hcols (p := p)
  cases r with
  | some a =>
    obtain ⟨p, hp, hm, rfl⟩ := Session.mem_matching.mp hfound
    obtain ⟨r, hrow, -⟩ := h.live p hp
    have hkey := (hmatch hp).mpr hm
    rw [← hkey, hrow]
    exact .some (h.located_iff.mpr ⟨p, hp, rfl, rfl⟩)
  | none =>
    have hnone : row (params.getPredicateDataSymbol s.table.schema) = none := by
      rw [← Option.not_isSome_iff_eq_none]
      intro hsome
      obtain ⟨p, hp, hkey⟩ := h.only _ hsome
      have hmem := Session.mem_matching.mpr ⟨p, hp, (hmatch hp).mp hkey, rfl⟩
      rw [show s.matching params = [] from hfound] at hmem
      cases hmem
    rw [hnone]
    exact .none

/-- A selection by the columns of the secondary index. -/
theorem selectRecord_group (h : Holds L s row groups) (hv : params.Valid L.schema.schema)
    (hcols : params.columnIds ≠ L.schema.schema.primaryCols)
    (hi : L.indexCols = some params.columnIds) :
    ∃ r, s.table.selectRecordColumns params = some r ∧ Option.Rel s.table.Located r
      (groups (params.getPredicateDataSymbol L.schema.schema)).head? := by
  have hsecondary := h.secondary
  rw [SecondaryHolds, hi] at hsecondary
  obtain ⟨index, hindex, hgroups⟩ := hsecondary
  rw [← h.schema] at hv hcols ⊢
  have hother : params.getPredicateColumnSymbol ≠ s.table.primarySymbol :=
    fun he => hcols ((h.good.sound.primarySymbol_iff h.indexed hv).mp he)
  have hlookup : s.table.secondaryIndex params.getPredicateColumnSymbol = some index := by
    rw [SchemaTable.secondaryIndex, hindex, ColumnPredicates.getPredicateColumnSymbol]
    simp
  refine ⟨index.searchRecord (params.getPredicateDataSymbol s.table.schema), ?_, ?_⟩
  · rw [SchemaTable.selectRecordColumns, if_neg hother, hlookup]
    exact if_pos hv
  have hhead : index.searchRecord (params.getPredicateDataSymbol s.table.schema) =
      (index.searchRecords (params.getPredicateDataSymbol s.table.schema)).head? := by
    rw [TBBMultiIndex.searchRecord, TBBMultiIndex.searchRecords, List.head?_map, List.head?_filter]
  rw [hhead]
  exact rel_head? (hgroups _)

variable {s' : Session} {r : Record L.schema} {row' : Bytes → Option (Record L.schema)}
  {groups' : Bytes → List Bytes}

private theorem located_of_live (h : Holds L s row groups) (hexact : s'.PrimaryExact)
    (hi : s'.table.primaryIndex.isSome)
    (hlive : ∀ p ∈ s.live, s.primaryKey p = k → p ∈ s'.live ∧ s'.primaryKey p = k)
    (ha : s.table.Located a k) : s'.table.Located a k := by
  obtain ⟨p, hp, hkey, rfl⟩ := h.located_iff.mp ha
  obtain ⟨index, hindex⟩ := Option.isSome_iff_exists.mp hi
  exact ⟨index, hindex, (hexact index hindex k _).mpr ⟨p, (hlive p hp hkey).1, (hlive p hp hkey).2, rfl⟩⟩

/-- Inserting a record whose key is not there. -/
theorem insertRecord (h : Holds L s row groups) (hk : r.primaryKey = some k) (hL : L.Keyed)
    (hnew : row k = none) (hrow : ∀ k', row' k' = if k' = k then some r else row k')
    (hgroups : ∀ cols, L.indexCols = some cols → ∀ g, groups' g =
      if g = r.keySymbol cols then k :: groups g else groups g) :
    ∃ s', s.table.insertRecordOf L.schema.schema r.data = some s'.table ∧
      Holds L s' row' groups' := by
  have hkey : s.table.schema.getPrimaryKeySymbol r.data = k := by
    rw [r.primaryKey_eq_symbol hL.primary, Option.some_inj] at hk
    rw [h.schema, hk]
  have hsize : r.data.length = s.table.schema.getSchemaSize := by rw [r.size, h.schema]
  obtain ⟨p, s', hstep, hins⟩ := Session.step_insertRecord h.good hsize
  have htable : s.table.insertRecord r.data = some s'.table := by
    obtain ⟨_, -, hmap⟩ := Option.bind_eq_some_iff.mp hstep
    obtain ⟨table, htable, rfl⟩ := Option.map_eq_some_iff.mp hmap
    exact htable
  have hfresh : ∀ q ∈ s.live, s.primaryKey q ≠ s.table.schema.getPrimaryKeySymbol r.data := by
    intro q hq he
    obtain ⟨r', hr', -⟩ := h.live q hq
    rw [he, hkey, hnew] at hr'
    cases hr'
  have hexact := hins.primaryExact h.exact_ hfresh
  have hindexed : s'.table.primaryIndex.isSome := hins.frame.primaryIndex ▸ h.indexed
  have hnewKey : s'.primaryKey p = k := hins.primaryKey_new.trans hkey
  have hlocated : s'.table.Located (p.add kRecordHeaderSize) k := by
    obtain ⟨index, hindex⟩ := Option.isSome_iff_exists.mp hindexed
    refine ⟨index, hindex, (hexact index hindex k _).mpr ⟨p, ?_, hnewKey, rfl⟩⟩
    rw [hins.live]
    exact List.mem_cons_self
  refine ⟨s', by rw [SchemaTable.insertRecordOf, if_pos h.schema, htable], hins.good,
    hins.frame.schema.trans h.schema, hindexed, hins.distinctKeys h.distinct hfresh, hexact, ?_, ?_, ?_⟩
  · intro q hq
    rw [hins.live] at hq
    rcases List.mem_cons.mp hq with rfl | hq
    · rw [hnewKey, hins.bytes, hrow, if_pos rfl]
      exact ⟨r, rfl, rfl⟩
    · rw [hins.primaryKey_old hq, hins.kept q hq, hrow, if_neg (fun he => hfresh q hq (he.trans hkey.symm))]
      exact h.live q hq
  · intro k' hsome
    rw [hins.live]
    rw [hrow] at hsome
    split at hsome
    · rename_i he
      exact ⟨p, List.mem_cons_self, hnewKey.trans he.symm⟩
    · obtain ⟨q, hq, hqk⟩ := h.only k' hsome
      exact ⟨q, List.mem_cons_of_mem _ hq, (hins.primaryKey_old hq).trans hqk⟩
  · have hold := h.secondary
    rw [SecondaryHolds] at hold ⊢
    rw [hins.secondary]
    cases hcols : L.indexCols with
    | none =>
      rw [hcols] at hold
      simp only at hold ⊢
      rw [hold, List.map_nil]
    | some cols =>
      rw [hcols] at hold
      obtain ⟨index, hindex, hrel⟩ := hold
      have hindexCols : SchemaTable.indexCols (sizeWords cols) = cols :=
        h.good.sound.indexCols (h.schema ▸ hL.columns cols hcols)
      refine ⟨_, by rw [hindex, List.map_cons, List.map_nil], fun g => ?_⟩
      have hstay : List.Forall₂ s'.table.Located (index.searchRecords g) (groups g) :=
        (hrel g).imp (fun _ _ ha => h.located_of_live hexact hindexed (fun q hq hqk =>
          ⟨by rw [hins.live]; exact List.mem_cons_of_mem _ hq, (hins.primaryKey_old hq).trans hqk⟩) ha)
      have hsymbol : s.table.schema.getKeySymbol r.data (SchemaTable.indexCols (sizeWords cols)) =
          r.keySymbol cols := by
        rw [hindexCols, h.schema]
        rfl
      rw [hgroups cols hcols, hsymbol]
      by_cases hg : g = r.keySymbol cols
      · subst hg
        simp only [TBBMultiIndex.searchRecords, TBBMultiIndex.insertRecord, List.filter_cons,
          decide_true, if_true, List.map_cons]
        exact .cons hlocated hstay
      · rw [if_neg hg]
        simpa [TBBMultiIndex.searchRecords, TBBMultiIndex.insertRecord, List.filter_cons, Ne.symm hg]
          using hstay

/-- Deleting the record of a key from a table without a secondary index. -/
theorem deleteRecord (h : Holds L s row groups) (ha : s.table.Located a k) (hi : L.indexCols = none)
    (hrow : ∀ k', row' k' = if k' = k then none else row k') :
    ∃ s', s.table.deleteRecord a = some s'.table ∧ Holds L s' row' groups' := by
  obtain ⟨p, hp, rfl, rfl⟩ := h.located_iff.mp ha
  obtain ⟨i, hi'⟩ := List.mem_iff_getElem?.mp hp
  obtain ⟨s', hstep, hdel⟩ := Session.step_deleteRecord h.good hi'
  have htable : s.table.deleteRecord (p.add kRecordHeaderSize) = some s'.table := by
    obtain ⟨q, hq, hmap⟩ := Option.bind_eq_some_iff.mp hstep
    obtain rfl : p = q := Option.some.inj (hi'.symm.trans hq)
    obtain ⟨table, htable, rfl⟩ := Option.map_eq_some_iff.mp hmap
    exact htable
  have hmem := fun {q} => hdel.mem_iff h.good (q := q)
  refine ⟨s', htable, hdel.good, hdel.frame.schema.trans h.schema, hdel.frame.primaryIndex ▸ h.indexed,
    hdel.distinctKeys h.distinct, hdel.primaryExact h.good h.distinct h.exact_, ?_, ?_, ?_⟩
  · intro q hq
    obtain ⟨hne, hq⟩ := hmem.mp hq
    have hkey : s.primaryKey q ≠ s.primaryKey p := fun he => hne (h.distinct q hq p hp he)
    rw [hdel.primaryKey hq, hdel.kept q hq, hrow, if_neg hkey]
    exact h.live q hq
  · intro k' hsome
    rw [hrow] at hsome
    split at hsome
    · cases hsome
    · rename_i hne
      obtain ⟨q, hq, rfl⟩ := h.only k' hsome
      exact ⟨q, hmem.mpr ⟨fun he => hne (he ▸ rfl), hq⟩, hdel.primaryKey hq⟩
  · have hold := h.secondary
    simp only [SecondaryHolds, hi] at hold ⊢
    rw [hdel.secondary, hold, List.map_nil]

/-- Writing columns that belong to no key. -/
theorem updateRecord (h : Holds L s row groups) (hL : L.Keyed) (ha : s.table.Located a k)
    (hv : params.Valid L.schema.schema)
    (hprimary : ∀ id ∈ params.columnIds, id ∉ L.schema.schema.primaryCols) (hr : row k = some r)
    (hrow : ∀ k', row' k' = if k' = k then some (r.setColumns params.entries) else row k') :
    ∃ s', s.table.updateRecordColumns a params = some s'.table ∧ Holds L s' row' groups := by
  obtain ⟨p, hp, rfl, rfl⟩ := h.located_iff.mp ha
  rw [← h.schema] at hv hprimary
  obtain ⟨table, htable, hupd⟩ := Session.updateRecordColumns_spec h.good hp hv
  have hkey := Session.updatedKey_of_outside h.good (h.keyReadable hL) hp hv hprimary
  have hkeys : ∀ q ∈ s.live, Session.primaryKey ⟨table, s.live⟩ q = s.primaryKey q := by
    intro q hq
    by_cases hqp : q = p
    · rw [hqp, hupd.primaryKey_self, hkey]
    · exact hupd.primaryKey_ne hq hqp
  have hexact := hupd.primaryExact h.exact_ hkey
  have hindexed : table.primaryIndex.isSome := hupd.frame.primaryIndex ▸ h.indexed
  have hbytes : ∃ r, row (s.primaryKey p) = some r ∧ r.data = s.bytes p := h.live p hp
  refine ⟨⟨table, s.live⟩, htable, hupd.good, hupd.frame.schema.trans h.schema, hindexed,
    hupd.distinctKeys h.distinct ?_, hexact, ?_, ?_, ?_⟩
  · intro q hq hne he
    exact hne (h.distinct q hq p hp (he.trans hkey))
  · intro q hq
    rw [hkeys q hq, hrow]
    by_cases hqp : q = p
    · subst hqp
      obtain ⟨r', hr', hdata⟩ := hbytes
      rw [hr] at hr'
      cases hr'
      rw [if_pos rfl, hupd.bytes, ← hdata, h.schema]
      exact ⟨_, rfl, r.data_setColumns _⟩
    · rw [if_neg (fun he => hqp (h.distinct q hq p hp he)), hupd.kept q hq hqp]
      exact h.live q hq
  · intro k' hsome
    rw [hrow] at hsome
    split at hsome
    · rename_i he
      exact ⟨p, hp, (hkeys p hp).trans he.symm⟩
    · obtain ⟨q, hq, hqk⟩ := h.only k' hsome
      exact ⟨q, hq, (hkeys q hq).trans hqk⟩
  · have hold := h.secondary
    rw [SecondaryHolds] at hold ⊢
    rw [show table.secondaryIndexes = s.table.secondaryIndexes from hupd.secondary]
    cases hcols : L.indexCols with
    | none =>
      rw [hcols] at hold
      exact hold
    | some cols =>
      rw [hcols] at hold
      obtain ⟨index, hindex, hrel⟩ := hold
      exact ⟨index, hindex, fun g => (hrel g).imp (fun _ _ ha => h.located_of_live hexact hindexed
        (fun q hq hqk => ⟨hq, (hkeys q hq).trans hqk⟩) ha)⟩

private theorem records_perm (h : Holds L s row groups) : s.table.records.Perm (s.live.map s.bytes) := by
  have hscan := h.good.heap.recordPtrs.map s.table.base.recordAt
  rwa [List.map_map] at hscan

private theorem primaryKey_of_live (h : Holds L s row groups) {p : Ptr} {r : Record L.schema}
    (hdata : r.data = s.bytes p) : L.schema.schema.getPrimaryKeySymbol r.data = s.primaryKey p := by
  rw [hdata, Session.primaryKey, h.schema]

theorem contents (h : Holds L s row groups) (hL : L.Keyed) : Contents L s.table row where
  distinct := by
    have hkeys : (s.live.map s.primaryKey).Nodup :=
      List.Nodup.map_on (fun p hp q hq he => h.distinct p hp q hq he) h.good.heap.nodup
    refine (h.records_perm.map _).nodup_iff.mpr ?_
    rw [List.map_map, ← h.schema]
    exact hkeys
  key k r hr := by
    obtain ⟨p, hp, rfl⟩ := h.only k (by simp [hr])
    obtain ⟨r', hr', hdata⟩ := h.live p hp
    obtain rfl : r = r' := Option.some.inj (hr.symm.trans hr')
    rw [r.primaryKey_eq_symbol hL.primary, h.primaryKey_of_live hdata]
  mem_iff data := by
    rw [h.records_perm.mem_iff, List.mem_map]
    constructor
    · rintro ⟨p, hp, rfl⟩
      obtain ⟨r, hr, hdata⟩ := h.live p hp
      exact ⟨_, r, hr, hdata⟩
    · rintro ⟨k, r, hr, rfl⟩
      obtain ⟨p, hp, rfl⟩ := h.only k (by simp [hr])
      obtain ⟨r', hr', hdata⟩ := h.live p hp
      obtain rfl : r = r' := Option.some.inj (hr.symm.trans hr')
      exact ⟨p, hp, hdata.symm⟩

theorem new (hL : L.Keyed) : Holds L (Session.new L.schema.schema L.indexCols.toList) (fun _ => none)
    (fun _ => []) := by
  have hcols : ∀ cols ∈ L.indexCols.toList, L.schema.schema.ValidColumns cols :=
    fun cols hcols => hL.columns cols (Option.mem_toList.mp hcols)
  have hlayout := L.schema.built.layout
  refine ⟨.new hlayout hcols hL.fits, rfl, (Session.Sound.new hlayout hcols).primaryIndex.mpr hL.primary,
    Session.distinctKeys_new _ _, Session.primaryExact_new _ _, fun p hp => (nomatch hp),
    fun _ hsome => (nomatch hsome), ?_⟩
  rw [SecondaryHolds]
  cases L.indexCols with
  | none => rfl
  | some cols => exact ⟨.empty, rfl, fun g => .nil⟩

end Holds
end ImdbD.StorageEngine
