import ImdbD.KeyEncodings
import ImdbD.TableSession
import ImdbD.Lists

/-!
# What the indexes of a session contain

The primary index is exact when it maps the key of every live record to that
record and nothing else; a multi-index is exact when its entries are those of
the live records. Each operation keeps the indexes exact under a condition on
the keys it touches.
-/
namespace ImdbD.StorageEngine
open ByteMemory
namespace Session

/-- The key of the record in a slot under the multi-index with a given symbol. -/
def secondaryKey (s : Session) (symbol : Bytes) (slot : Ptr) : Bytes :=
  s.table.schema.getKeySymbol (s.bytes slot) (SchemaTable.indexCols symbol)

/-- No two live records share their primary key. -/
def DistinctKeys (s : Session) : Prop :=
  ∀ p ∈ s.live, ∀ q ∈ s.live, s.primaryKey p = s.primaryKey q → p = q

/-- The primary index maps the keys of the live records to their addresses, and no other key. -/
def PrimaryExact (s : Session) : Prop :=
  ∀ index, s.table.primaryIndex = some index → ∀ key address, index.searchRecord key = some address ↔
    ∃ p ∈ s.live, s.primaryKey p = key ∧ p.add kRecordHeaderSize = address

/-- The entries of a multi-index are those of the live records. -/
def EntriesExact (s : Session) (e : Bytes × TBBMultiIndex) : Prop :=
  e.2.map.Perm (s.live.map (fun p => (s.secondaryKey e.1 p, p.add kRecordHeaderSize)))

def SecondaryExact (s : Session) : Prop := ∀ e ∈ s.table.secondaryIndexes, s.EntriesExact e

variable {s s' : Session} {p : Ptr} {i : ℕ} {data : Bytes} {params : ColumnPredicates}

theorem Inserted.primaryKey_new (h : Inserted s data p s') :
    s'.primaryKey p = s.table.schema.getPrimaryKeySymbol data := by
  rw [primaryKey, h.bytes, h.frame.schema]

theorem Inserted.primaryKey_old (h : Inserted s data p s') {q : Ptr} (hq : q ∈ s.live) :
    s'.primaryKey q = s.primaryKey q := by
  rw [primaryKey, primaryKey, h.kept q hq, h.frame.schema]

theorem Deleted.mem_live (h : Deleted s i p s') : p ∈ s.live := List.mem_of_getElem? h.at_i

theorem Deleted.mem_iff (h : Deleted s i p s') (hs : Good s) {q : Ptr} :
    q ∈ s'.live ↔ q ≠ p ∧ q ∈ s.live := by
  rw [h.erase]
  exact hs.heap.nodup.mem_erase_iff

theorem Deleted.primaryKey (h : Deleted s i p s') {q : Ptr} (hq : q ∈ s.live) :
    s'.primaryKey q = s.primaryKey q := by
  rw [Session.primaryKey, Session.primaryKey, h.kept q hq, h.frame.schema]

/-- The primary key that the updated record has afterwards. -/
def updatedKey (s : Session) (p : Ptr) (params : ColumnPredicates) : Bytes :=
  s.table.schema.getPrimaryKeySymbol (s.table.schema.setColumns (s.bytes p) params.entries)

theorem Updated.primaryKey_self (h : Updated s p params s') :
    s'.primaryKey p = s.updatedKey p params := by
  rw [Session.primaryKey, h.bytes, h.frame.schema]
  rfl

theorem Updated.primaryKey_ne (h : Updated s p params s') {q : Ptr} (hq : q ∈ s.live)
    (hne : q ≠ p) : s'.primaryKey q = s.primaryKey q := by
  rw [Session.primaryKey, Session.primaryKey, h.kept q hq hne, h.frame.schema]

theorem distinctKeys_new (schema : Schema) (indexes : List (List ℕ)) :
    (Session.new schema indexes).DistinctKeys := by
  intro p hp
  cases hp

theorem Inserted.distinctKeys (h : Inserted s data p s') (hd : s.DistinctKeys)
    (hnew : ∀ q ∈ s.live, s.primaryKey q ≠ s.table.schema.getPrimaryKeySymbol data) :
    s'.DistinctKeys := by
  intro q hq r hr he
  rw [h.live] at hq hr
  rcases List.mem_cons.mp hq with hqp | hq' <;> rcases List.mem_cons.mp hr with hrp | hr'
  · rw [hqp, hrp]
  · rw [hqp, h.primaryKey_new, h.primaryKey_old hr'] at he
    exact absurd he.symm (hnew r hr')
  · rw [hrp, h.primaryKey_new, h.primaryKey_old hq'] at he
    exact absurd he (hnew q hq')
  · rw [h.primaryKey_old hq', h.primaryKey_old hr'] at he
    exact hd q hq' r hr' he

theorem Deleted.distinctKeys (h : Deleted s i p s') (hd : s.DistinctKeys) : s'.DistinctKeys := by
  have hsub : ∀ q ∈ s'.live, q ∈ s.live := fun q hq => List.mem_of_mem_erase (h.erase ▸ hq)
  intro q hq r hr he
  rw [h.primaryKey (hsub q hq), h.primaryKey (hsub r hr)] at he
  exact hd q (hsub q hq) r (hsub r hr) he

theorem Updated.distinctKeys (h : Updated s p params s') (hd : s.DistinctKeys)
    (hnew : ∀ q ∈ s.live, q ≠ p → s.primaryKey q ≠ s.updatedKey p params) : s'.DistinctKeys := by
  intro q hq r hr he
  rw [h.live] at hq hr
  by_cases hqp : q = p <;> by_cases hrp : r = p
  · rw [hqp, hrp]
  · rw [hqp, h.primaryKey_self, h.primaryKey_ne hr hrp] at he
    exact absurd he.symm (hnew r hr hrp)
  · rw [hrp, h.primaryKey_self, h.primaryKey_ne hq hqp] at he
    exact absurd he (hnew q hq hqp)
  · rw [h.primaryKey_ne hq hqp, h.primaryKey_ne hr hrp] at he
    exact hd q hq r hr he

theorem primaryExact_new (schema : Schema) (indexes : List (List ℕ)) :
    (Session.new schema indexes).PrimaryExact := by
  intro index hi key address
  have he : index = TBBUniqueIndex.empty := by
    simp only [Session.new, SchemaTable.new] at hi
    split at hi
    · exact (Option.some.inj hi).symm
    · cases hi
  simp [he, TBBUniqueIndex.empty, TBBUniqueIndex.searchRecord, Session.new]

/-- A key that is not in the index is entered with its record. -/
theorem Inserted.primaryExact (h : Inserted s data p s') (hx : s.PrimaryExact)
    (hnew : ∀ q ∈ s.live, s.primaryKey q ≠ s.table.schema.getPrimaryKeySymbol data) :
    s'.PrimaryExact := by
  intro index' hi key address
  rw [h.primary] at hi
  obtain ⟨index, hindex, rfl⟩ := Option.map_eq_some_iff.mp hi
  have hold := hx index hindex
  have habsent : index.map (s.table.schema.getPrimaryKeySymbol data) = none := by
    rw [Option.eq_none_iff_forall_ne_some]
    intro a ha
    obtain ⟨q, hq, hk, -⟩ := (hold _ a).mp ha
    exact hnew q hq hk
  simp only [TBBUniqueIndex.searchRecord] at hold ⊢
  rw [h.live]
  by_cases hk : key = s.table.schema.getPrimaryKeySymbol data
  · subst hk
    simp only [TBBUniqueIndex.insertRecord, if_pos, habsent, Option.getD_none, Option.some.injEq,
      List.exists_mem_cons_iff, h.primaryKey_new, true_and]
    constructor
    · exact Or.inl
    · rintro (he | ⟨q, hq, hkey, -⟩)
      · exact he
      · rw [h.primaryKey_old hq] at hkey
        exact absurd hkey (hnew q hq)
  · simp only [TBBUniqueIndex.insertRecord, if_neg hk, hold, List.exists_mem_cons_iff,
      h.primaryKey_new]
    constructor
    · rintro ⟨q, hq, hkey, ha⟩
      exact Or.inr ⟨q, hq, by rw [h.primaryKey_old hq]; exact hkey, ha⟩
    · rintro (⟨he, -⟩ | ⟨q, hq, hkey, ha⟩)
      · exact absurd he.symm hk
      · rw [h.primaryKey_old hq] at hkey
        exact ⟨q, hq, hkey, ha⟩

/-- With distinct keys the erased entry is the one of the deleted record. -/
theorem Deleted.primaryExact (h : Deleted s i p s') (hs : Good s) (hd : s.DistinctKeys)
    (hx : s.PrimaryExact) : s'.PrimaryExact := by
  intro index' hi key address
  rw [h.primary] at hi
  obtain ⟨index, hindex, rfl⟩ := Option.map_eq_some_iff.mp hi
  have hold := hx index hindex
  simp only [TBBUniqueIndex.searchRecord] at hold ⊢
  by_cases hk : key = s.primaryKey p
  · simp only [TBBUniqueIndex.deleteRecord, if_pos hk, reduceCtorEq, false_iff]
    rintro ⟨q, hq, hkey, -⟩
    obtain ⟨hne, hq⟩ := (h.mem_iff hs).mp hq
    rw [h.primaryKey hq, hk] at hkey
    exact hne (hd q hq p h.mem_live hkey)
  · simp only [TBBUniqueIndex.deleteRecord, if_neg hk, hold]
    constructor
    · rintro ⟨q, hq, hkey, ha⟩
      refine ⟨q, (h.mem_iff hs).mpr ⟨?_, hq⟩, by rw [h.primaryKey hq]; exact hkey, ha⟩
      rintro rfl
      exact hk hkey.symm
    · rintro ⟨q, hq, hkey, ha⟩
      obtain ⟨-, hq⟩ := (h.mem_iff hs).mp hq
      exact ⟨q, hq, by rw [← h.primaryKey hq]; exact hkey, ha⟩

/-- An update that keeps the key keeps the index exact. -/
theorem Updated.primaryExact (h : Updated s p params s') (hx : s.PrimaryExact)
    (hkey : s.updatedKey p params = s.primaryKey p) : s'.PrimaryExact := by
  have hsame : ∀ q ∈ s.live, s'.primaryKey q = s.primaryKey q := by
    intro q hq
    by_cases hne : q = p
    · rw [hne, h.primaryKey_self, hkey]
    · exact h.primaryKey_ne hq hne
  intro index hi key address
  rw [h.primary] at hi
  rw [hx index hi, h.live]
  constructor
  · rintro ⟨q, hq, hk, ha⟩
    exact ⟨q, hq, by rw [hsame q hq]; exact hk, ha⟩
  · rintro ⟨q, hq, hk, ha⟩
    exact ⟨q, hq, by rw [← hsame q hq]; exact hk, ha⟩

theorem secondaryExact_new (schema : Schema) (indexes : List (List ℕ)) :
    (Session.new schema indexes).SecondaryExact := by
  intro e he
  obtain ⟨cols, -, rfl⟩ := new_secondary he
  exact List.Perm.refl _

theorem Inserted.secondaryExact (h : Inserted s data p s') (hx : s.SecondaryExact) :
    s'.SecondaryExact := by
  intro e' he'
  rw [h.secondary] at he'
  obtain ⟨e, he, rfl⟩ := List.mem_map.mp he'
  have hold : (s.live.map (fun q => (s'.secondaryKey e.1 q, q.add kRecordHeaderSize))) =
      s.live.map (fun q => (s.secondaryKey e.1 q, q.add kRecordHeaderSize)) := by
    apply List.map_congr_left
    intro q hq
    simp only [secondaryKey, h.kept q hq, h.frame.schema]
  rw [EntriesExact, h.live, List.map_cons, hold, secondaryKey, h.bytes, h.frame.schema]
  exact (hx e he).cons _

/-- The deleted record shares no key of a multi-index with another live record. -/
def KeysAlone (s : Session) (p : Ptr) : Prop :=
  ∀ e ∈ s.table.secondaryIndexes, ∀ q ∈ s.live,
    s.secondaryKey e.1 q = s.secondaryKey e.1 p → q = p

theorem Deleted.secondaryKey (h : Deleted s i p s') (symbol : Bytes) {q : Ptr} (hq : q ∈ s.live) :
    s'.secondaryKey symbol q = s.secondaryKey symbol q := by
  rw [Session.secondaryKey, Session.secondaryKey, h.kept q hq, h.frame.schema]

/-- Erasing a key removes exactly the entry of the deleted record if nobody else has that key. -/
theorem Deleted.secondaryExact (h : Deleted s i p s') (hs : Good s) (hx : s.SecondaryExact)
    (halone : s.KeysAlone p) : s'.SecondaryExact := by
  intro e' he'
  rw [h.secondary] at he'
  obtain ⟨e, he, rfl⟩ := List.mem_map.mp he'
  have hnew : s'.live.map (fun q => (s'.secondaryKey e.1 q, q.add kRecordHeaderSize)) =
      (s.live.erase p).map (fun q => (s.secondaryKey e.1 q, q.add kRecordHeaderSize)) := by
    rw [h.erase]
    apply List.map_congr_left
    intro q hq
    rw [h.secondaryKey e.1 (List.mem_of_mem_erase hq)]
  rw [EntriesExact, hnew, ← Lists.filter_ne_key (s.secondaryKey e.1) hs.heap.nodup (halone e he)]
  have hfilter := (hx e he).filter (fun r => r.1 ≠ s.secondaryKey e.1 p)
  rw [List.filter_map] at hfilter
  exact hfilter

/-- Every search through a multi-index finds the live records with the key, each once. -/
def SearchExact (s : Session) : Prop :=
  ∀ e ∈ s.table.secondaryIndexes, ∀ key, (e.2.searchRecords key).Perm
    ((s.live.filter (fun p => s.secondaryKey e.1 p = key)).map (fun p => p.add kRecordHeaderSize))

/-- Conversely, if the searches are right after the deletion, nobody else had the key. -/
theorem Deleted.keysAlone (h : Deleted s i p s') (hs : Good s) (hx : s'.SearchExact) :
    s.KeysAlone p := by
  intro e he q hq hkey
  by_contra hne
  have hmem : (e.1, e.2.deleteRecord (s.secondaryKey e.1 p)) ∈ s'.table.secondaryIndexes := by
    rw [h.secondary]
    exact List.mem_map.mpr ⟨e, he, rfl⟩
  have hlive : q ∈ s'.live := (h.mem_iff hs).mpr ⟨hne, hq⟩
  have hfound := (hx _ hmem (s.secondaryKey e.1 p)).mem_iff.mpr
    (List.mem_map_of_mem (List.mem_filter.mpr ⟨hlive, by simp [h.secondaryKey e.1 hq, hkey]⟩))
  simp [TBBMultiIndex.searchRecords, TBBMultiIndex.deleteRecord] at hfound

/-- The update leaves the record's key in every multi-index as it was. -/
def KeepsSecondary (s : Session) (p : Ptr) (params : ColumnPredicates) : Prop :=
  ∀ e ∈ s.table.secondaryIndexes,
    s.table.schema.getKeySymbol (s.table.schema.setColumns (s.bytes p) params.entries)
      (SchemaTable.indexCols e.1) = s.secondaryKey e.1 p

theorem Updated.secondaryExact (h : Updated s p params s') (hx : s.SecondaryExact)
    (hkeep : s.KeepsSecondary p params) : s'.SecondaryExact := by
  intro e he
  rw [h.secondary] at he
  have hsame : s.live.map (fun q => (s'.secondaryKey e.1 q, q.add kRecordHeaderSize)) =
      s.live.map (fun q => (s.secondaryKey e.1 q, q.add kRecordHeaderSize)) := by
    apply List.map_congr_left
    intro q hq
    by_cases hne : q = p
    · rw [hne, ← hkeep e he, secondaryKey, h.bytes, h.frame.schema]
    · rw [secondaryKey, secondaryKey, h.kept q hq hne, h.frame.schema]
  rw [EntriesExact, h.live, hsame]
  exact hx e he

/-- A search through an exact multi-index finds the live records with the key. -/
theorem SecondaryExact.searchExact (h : s.SecondaryExact) : s.SearchExact := by
  intro e he key
  have hf := ((h e he).filter (fun r => r.1 = key)).map Prod.snd
  rw [List.filter_map, List.map_map] at hf
  exact hf

theorem EntriesExact.searchRecord {e : Bytes × TBBMultiIndex} (h : s.EntriesExact e)
    (key : Bytes) : match e.2.searchRecord key with
      | some a => ∃ p ∈ s.live, s.secondaryKey e.1 p = key ∧ p.add kRecordHeaderSize = a
      | none => ∀ p ∈ s.live, s.secondaryKey e.1 p ≠ key := by
  unfold TBBMultiIndex.searchRecord
  cases hf : e.2.map.find? (fun r => r.1 = key) with
  | none =>
    intro p hp hk
    have hm := h.mem_iff.mpr (List.mem_map_of_mem hp)
    have := List.find?_eq_none.mp hf _ hm
    simp [hk] at this
  | some r =>
    have hm := h.mem_iff.mp (List.mem_of_find?_eq_some hf)
    have hk := List.find?_some hf
    obtain ⟨p, hp, rfl⟩ := List.mem_map.mp hm
    exact ⟨p, hp, by simpa using hk, rfl⟩

/-- The addresses of the live records that match a predicate. -/
def matching (s : Session) (params : ColumnPredicates) : List Ptr :=
  (s.live.filter (fun p => params.Matches s.table.schema (s.bytes p))).map
    (fun p => p.add kRecordHeaderSize)

theorem mem_matching {a : Ptr} : a ∈ s.matching params ↔
    ∃ p ∈ s.live, params.Matches s.table.schema (s.bytes p) ∧ p.add kRecordHeaderSize = a := by
  simp [matching, and_assoc]

/-- Under an index on the columns of the predicate, the key that a record must have to match. -/
theorem Good.secondaryKey_eq_iff (h : Good s) {e : Bytes × TBBMultiIndex}
    (he : e ∈ s.table.secondaryIndexes) (hp : params.Valid s.table.schema)
    (hsym : params.getPredicateColumnSymbol = e.1) {p : Ptr} (hlive : p ∈ s.live) :
    s.secondaryKey e.1 p = params.getPredicateDataSymbol s.table.schema ↔
      params.Matches s.table.schema (s.bytes p) := by
  obtain ⟨cols, hc, hv⟩ := h.sound.secondary e he
  have hcols : params.columnIds = cols :=
    sizeWords_injective (fun id hid => h.sound.layout.lt_word (hp.columns id hid))
      (fun id hid => h.sound.layout.lt_word (hv id hid)) (hsym.trans hc)
  rw [secondaryKey, hc, h.sound.indexCols hv, ← hcols, eq_comm]
  exact ColumnPredicates.getPredicateDataSymbol_eq_iff h.sound.layout hp (h.bytes_length hlive)

theorem mem_of_secondaryIndex {t : SchemaTable} {symbol : Bytes} {index : TBBMultiIndex}
    (h : t.secondaryIndex symbol = some index) : (symbol, index) ∈ t.secondaryIndexes := by
  unfold SchemaTable.secondaryIndex at h
  obtain ⟨l, r, he, -⟩ := List.lookup_eq_some_iff.mp h
  rw [he]
  simp

/-- `selectRecords` through a multi-index whose searches are right. -/
theorem SearchExact.selectRecordsColumns (hx : s.SearchExact) (h : Good s)
    (hp : params.Valid s.table.schema) {index : TBBMultiIndex}
    (hindex : s.table.secondaryIndex params.getPredicateColumnSymbol = some index) :
    ∃ r, s.table.selectRecordsColumns params = some r ∧ r.dataPtrs.Perm (s.matching params) := by
  have hmem := mem_of_secondaryIndex hindex
  refine ⟨_, by rw [SchemaTable.selectRecordsColumns, hindex]; exact if_pos hp, ?_⟩
  have hs := hx _ hmem (params.getPredicateDataSymbol s.table.schema)
  have hfilter : s.live.filter (fun p => s.secondaryKey params.getPredicateColumnSymbol p =
        params.getPredicateDataSymbol s.table.schema) =
      s.live.filter (fun p => params.Matches s.table.schema (s.bytes p)) := by
    apply List.filter_congr
    intro p hlive
    simp only [h.secondaryKey_eq_iff hmem hp rfl hlive]
  rw [hfilter] at hs
  exact hs

/-- A result of `selectRecord`: a record that matches, or none if none does. -/
def FoundOne (s : Session) (params : ColumnPredicates) : Option Ptr → Prop
  | some a => a ∈ s.matching params
  | none => s.matching params = []

private theorem selects_iff (a : Ptr) (p : Ptr) (ha : p.add kRecordHeaderSize = a) :
    s.table.Selects params a ↔ params.Matches s.table.schema (s.bytes p) := by
  subst ha
  exact Iff.rfl

theorem scanRecord_found (h : Good s) (hb : s.table.base.blocks.length ≠ 0)
    (hp : params.Valid s.table.schema) :
    ∃ r, s.table.scanRecord params = some r ∧ s.FoundOne params r := by
  refine ⟨_, SchemaTable.scanRecord_eq h.heap hb hp, ?_⟩
  have hmem : ∀ a, a ∈ s.table.base.recordPtrs ↔ ∃ p ∈ s.live, p.add kRecordHeaderSize = a := by
    intro a
    rw [h.heap.recordPtrs.mem_iff, List.mem_map]
  cases hf : s.table.base.recordPtrs.find? (fun a => decide (s.table.Selects params a)) with
  | some a =>
    obtain ⟨p, hlive, ha⟩ := (hmem a).mp (List.mem_of_find?_eq_some hf)
    have hsel : s.table.Selects params a := by simpa using List.find?_some hf
    exact mem_matching.mpr ⟨p, hlive, (selects_iff a p ha).mp hsel, ha⟩
  | none =>
    rw [FoundOne, List.eq_nil_iff_forall_not_mem]
    intro a ha
    obtain ⟨p, hlive, hm, he⟩ := mem_matching.mp ha
    have hnone := List.find?_eq_none.mp hf a ((hmem a).mpr ⟨p, hlive, he⟩)
    exact hnone (decide_eq_true ((selects_iff a p he).mpr hm))

theorem scanRecords_found (h : Good s) (hb : s.table.base.blocks.length ≠ 0)
    (hp : params.Valid s.table.schema) :
    ∃ r, s.table.scanRecords params = some r ∧ r.dataPtrs.Perm (s.matching params) := by
  obtain ⟨r, hr, hd⟩ := SchemaTable.scanRecords_eq h.heap hb hp
  refine ⟨r, hr, ?_⟩
  have hperm := h.heap.recordPtrs.filter (fun a => decide (s.table.Selects params a))
  rw [← hd, List.filter_map] at hperm
  exact hperm

/-- `selectRecord` through an exact multi-index. -/
theorem EntriesExact.found {e : Bytes × TBBMultiIndex} (hx : s.EntriesExact e) (h : Good s)
    (he : e ∈ s.table.secondaryIndexes) (hp : params.Valid s.table.schema)
    (hsym : params.getPredicateColumnSymbol = e.1) :
    s.FoundOne params (e.2.searchRecord (params.getPredicateDataSymbol s.table.schema)) := by
  have hs := hx.searchRecord (params.getPredicateDataSymbol s.table.schema)
  cases hr : e.2.searchRecord (params.getPredicateDataSymbol s.table.schema) with
  | some a =>
    rw [hr] at hs
    obtain ⟨p, hlive, hk, ha⟩ := hs
    exact mem_matching.mpr ⟨p, hlive, (h.secondaryKey_eq_iff he hp hsym hlive).mp hk, ha⟩
  | none =>
    rw [hr] at hs
    rw [FoundOne, List.eq_nil_iff_forall_not_mem]
    intro a ha
    obtain ⟨p, hlive, hm, -⟩ := mem_matching.mp ha
    exact hs p hlive ((h.secondaryKey_eq_iff he hp hsym hlive).mpr hm)

/-- The primary key symbol is made of the primary columns: either they have at least one byte
together, or records have none at all. -/
def KeyReadable (s : Schema) : Prop := s.primaryKeyLength ≠ 0 ∨ s.getSchemaSize = 0

theorem KeyReadable.getPrimaryKeySymbol_eq {schema : Schema} (hk : KeyReadable schema)
    (hl : schema.Layout) (hd : data.length = schema.getSchemaSize) :
    schema.getPrimaryKeySymbol data = schema.getKeySymbol data schema.primaryCols := by
  by_cases h0 : schema.primaryKeyLength = 0
  · obtain rfl : data = [] := List.length_eq_zero_iff.mp (hd.trans (hk.resolve_left (· h0)))
    rw [Schema.getPrimaryKeySymbol, if_pos h0]
    simp [Schema.getKeySymbol, Schema.getColumn, slice]
  · exact hl.getPrimaryKeySymbol_eq h0 data

/-- Columns of at least one byte make the primary key readable. -/
theorem keyReadable_of_sizes {schema : Schema} (hs : schema.Layout) (hp : schema.primaryColNum ≠ 0)
    (hsizes : ∀ c ∈ schema.columns, 1 ≤ c.columnSize) : KeyReadable schema :=
  Or.inl (hs.primaryKeyLength_ne hsizes hp)

/-- With a primary index, the primary symbol is that of predicates over the primary columns in
schema order. -/
theorem Sound.primarySymbol_iff {t : SchemaTable} (h : Sound t) (hi : t.primaryIndex.isSome)
    (hp : params.Valid t.schema) : params.getPredicateColumnSymbol = t.primarySymbol ↔
      params.columnIds = t.schema.primaryCols := by
  rw [h.primary, if_pos (h.primaryIndex.mp hi)]
  constructor
  · exact sizeWords_injective (fun id hid => h.layout.lt_word (hp.columns id hid))
      (fun id hid => h.layout.lt_word (h.layout.primary_lt hid))
  · exact congrArg sizeWords

theorem Good.primaryKey_eq_iff (h : Good s) (hk : KeyReadable s.table.schema)
    (hp : params.Valid s.table.schema) (hcols : params.columnIds = s.table.schema.primaryCols)
    (hlive : p ∈ s.live) : s.primaryKey p = params.getPredicateDataSymbol s.table.schema ↔
      params.Matches s.table.schema (s.bytes p) := by
  have hd := h.bytes_length hlive
  rw [primaryKey, hk.getPrimaryKeySymbol_eq h.sound.layout hd, ← hcols, eq_comm]
  exact ColumnPredicates.getPredicateDataSymbol_eq_iff h.sound.layout hp hd

/-- What a search of the primary index says, also where live records share a key: a record with the
key, or none if none has it. -/
def PrimaryAnswers (s : Session) : Prop :=
  ∀ index, s.table.primaryIndex = some index → ∀ key, match index.searchRecord key with
    | some a => ∃ p ∈ s.live, s.primaryKey p = key ∧ p.add kRecordHeaderSize = a
    | none => ∀ p ∈ s.live, s.primaryKey p ≠ key

theorem PrimaryExact.answers (h : s.PrimaryExact) : s.PrimaryAnswers := by
  intro index hindex key
  have hexact := h index hindex key
  cases hr : index.searchRecord key with
  | some a => exact (hexact a).mp hr
  | none =>
    intro p hp hk
    have hsome := (hexact (p.add kRecordHeaderSize)).mpr ⟨p, hp, hk, rfl⟩
    rw [hr] at hsome
    cases hsome

/-- `selectRecord` through the primary index. -/
theorem PrimaryAnswers.found (hx : s.PrimaryAnswers) (h : Good s)
    (hi : s.table.primaryIndex.isSome) (hk : KeyReadable s.table.schema)
    (hp : params.Valid s.table.schema)
    (hcols : params.columnIds = s.table.schema.primaryCols) :
    ∃ r, s.table.selectRecordColumns params = some r ∧ s.FoundOne params r := by
  obtain ⟨index, hindex⟩ := Option.isSome_iff_exists.mp hi
  have hanswer := hx index hindex (params.getPredicateDataSymbol s.table.schema)
  have hrun : s.table.selectRecordColumns params =
      some (index.searchRecord (params.getPredicateDataSymbol s.table.schema)) := by
    rw [SchemaTable.selectRecordColumns, if_pos ((h.sound.primarySymbol_iff hi hp).mpr hcols),
      if_pos hp, hindex]
    rfl
  refine ⟨_, hrun, ?_⟩
  cases hr : index.searchRecord (params.getPredicateDataSymbol s.table.schema) with
  | some a =>
    rw [hr] at hanswer
    obtain ⟨p, hlive, hkey, ha⟩ := hanswer
    exact mem_matching.mpr ⟨p, hlive, (h.primaryKey_eq_iff hk hp hcols hlive).mp hkey, ha⟩
  | none =>
    rw [hr] at hanswer
    rw [FoundOne, List.eq_nil_iff_forall_not_mem]
    intro a ha
    obtain ⟨p, hlive, hm, -⟩ := mem_matching.mp ha
    exact hanswer p hlive ((h.primaryKey_eq_iff hk hp hcols hlive).mpr hm)

theorem PrimaryExact.found (hx : s.PrimaryExact) (h : Good s)
    (hi : s.table.primaryIndex.isSome) (hk : KeyReadable s.table.schema)
    (hp : params.Valid s.table.schema)
    (hcols : params.columnIds = s.table.schema.primaryCols) :
    ∃ r, s.table.selectRecordColumns params = some r ∧ s.FoundOne params r :=
  hx.answers.found h hi hk hp hcols

end Session
end ImdbD.StorageEngine
