import ImdbD.KeyEncodings
import ImdbD.MultimapOrder
import ImdbD.PrimaryKeyEnforcement

/-!
# Updates and the index path

An update writes into the record and leaves every index as it is. Along a run of
insertions and updates the selections through an index keep returning what the
scan returns, whatever the order of equal keys, exactly when no update changes a
key of an index and no inserted record has a key that a live record has already.
-/
namespace ImdbD.StorageEngine
open ByteMemory GuardedRun
namespace Session
variable {s s' : Session} {p : Ptr} {data : Bytes} {params : ColumnPredicates}

/-- Calls of a client that inserts and updates records and keeps the primary keys distinct, where
there is a primary key. -/
def InsertsUpdates (s : Session) : Op → Prop
  | .insertRecord data => data.length = s.table.schema.getSchemaSize ∧
    (s.table.primaryIndex.isSome → ¬ s.KeyLive data)
  | .insertRecordOf recordSchema data => recordSchema = s.table.schema ∧
    data.length = s.table.schema.getSchemaSize ∧
    (s.table.primaryIndex.isSome → ¬ s.KeyLive data)
  | .deleteRecord _ => False
  | op => ∃ p params, s.updateTarget op = some (p, params) ∧ params.Valid s.table.schema ∧
    (s.table.primaryIndex.isSome →
      ∀ q ∈ s.live, q ≠ p → s.primaryKey q ≠ s.updatedKey p params)

theorem InsertsUpdates.first {schema : Schema} {indexes : List (List ℕ)} {op : Op}
    (h : InsertsUpdates (Session.new schema indexes) op) : op.inserted.isSome := by
  have hnone : ∀ {op : Op} {p : Ptr} {params : ColumnPredicates},
      (Session.new schema indexes).updateTarget op = some (p, params) → False := by
    intro op p params ht
    have hm := updateTarget_mem ht
    cases hm
  cases op with
  | insertRecord | insertRecordOf => rfl
  | deleteRecord => exact h.elim
  | _ =>
    obtain ⟨p, params, ht, -⟩ := h
    exact (hnone ht).elim

/-- The two kinds of step of such a client. -/
theorem InsertsUpdates.step (hs : Good s) {op : Op} (h : InsertsUpdates s op) :
    (∃ data p s', op.inserted = some data ∧ s.updateTarget op = none ∧ s.step op = some s' ∧
      Inserted s data p s' ∧ (s.table.primaryIndex.isSome → ¬ s.KeyLive data)) ∨
    (∃ p params s', op.inserted = none ∧ s.updateTarget op = some (p, params) ∧ p ∈ s.live ∧
      s.step op = some s' ∧ Updated s p params s' ∧ (s.table.primaryIndex.isSome →
        ∀ q ∈ s.live, q ≠ p → s.primaryKey q ≠ s.updatedKey p params)) := by
  cases op with
  | insertRecord data =>
    obtain ⟨p, s', hstep, hi⟩ := step_insertRecord hs h.1
    exact Or.inl ⟨data, p, s', rfl, rfl, hstep, hi, h.2⟩
  | insertRecordOf recordSchema data =>
    obtain ⟨rfl, hd, hfresh⟩ := h
    obtain ⟨p, s', hstep, hi⟩ := step_insertRecord hs hd
    exact Or.inl ⟨data, p, s', rfl, rfl, (step_insertRecordOf s data).trans hstep, hi, hfresh⟩
  | deleteRecord => exact h.elim
  | _ =>
    obtain ⟨p, params, ht, hv, hkeys⟩ := h
    obtain ⟨s', hstep, hu⟩ := step_updated hs ht hv
    exact Or.inr ⟨p, params, s', rfl, ht, updateTarget_mem ht, hstep, hu, hkeys⟩

/-- There is an index on the columns of the predicate that `selectRecord` can use. -/
def Indexed (t : SchemaTable) (params : ColumnPredicates) : Prop :=
  (t.primaryIndex.isSome ∧ params.getPredicateColumnSymbol = t.primarySymbol) ∨
    (t.secondaryIndex params.getPredicateColumnSymbol).isSome

/-- The index path returns what the scan path returns: the one record, or all the records, whose
bytes match. -/
structure PathsEqual (s : Session) : Prop where
  selectRecord : ∀ params : ColumnPredicates, params.Valid s.table.schema →
    Indexed s.table params → ∃ r, s.table.selectRecordColumns params = some r ∧
      s.table.scanRecord params = some r ∧ s.FoundOne params r
  selectRecords : ∀ params : ColumnPredicates, params.Valid s.table.schema →
    (s.table.secondaryIndex params.getPredicateColumnSymbol).isSome →
    ∃ r r', s.table.selectRecordsColumns params = some r ∧ s.table.scanRecords params = some r' ∧
      r.dataPtrs = r'.dataPtrs ∧ r'.dataPtrs.Perm (s.matching params)

/-- The two paths agree in whatever order the multi-indexes meet equal keys. -/
def PathsAgree (s : Session) : Prop := ∀ t, s.SameEntries t → t.PathsEqual

/-- The keys of the table's indexes can be told from predicates: primary columns of no bytes are
allowed only in records of no bytes, and without a primary index every multi-index has a column. -/
def IndexReadable (t : SchemaTable) : Prop :=
  (t.primaryIndex.isSome → KeyReadable t.schema) ∧
    (t.primaryIndex.isSome ∨ ∀ e ∈ t.secondaryIndexes, e.1 ≠ [])

/-- No live record has one of the keys that a record has in the multi-indexes. -/
def SecondaryNew (s : Session) (data : Bytes) : Prop :=
  ∀ e ∈ s.table.secondaryIndexes, ∀ q ∈ s.live,
    s.secondaryKey e.1 q ≠ s.table.schema.getKeySymbol data (SchemaTable.indexCols e.1)

/-- An inserted record fits a block of a table with readable indexes and is the first with its keys;
an update leaves the record's key in every index as it was. -/
def KeepsKeys (s : Session) (op : Op) : Prop :=
  (∀ data, op.inserted = some data → s.Fits ∧ IndexReadable s.table ∧ s.SecondaryNew data) ∧
    ∀ p params, s.updateTarget op = some (p, params) →
      (s.table.primaryIndex.isSome → s.updatedKey p params = s.primaryKey p) ∧
        s.KeepsSecondary p params

/-- The invariant of runs whose operations keep the keys. -/
private structure Exact (s : Session) : Prop where
  good : Good s
  distinct : s.table.primaryIndex.isSome → s.DistinctKeys
  primary : s.PrimaryExact
  secondary : s.SecondaryExact
  alone : ∀ p ∈ s.live, s.KeysAlone p
  readable : s.live ≠ [] → IndexReadable s.table
  blocks : s.live ≠ [] → s.table.base.blocks.length ≠ 0

/-- The invariant does not depend on the order. -/
private theorem Exact.sameEntries (hs : Exact s) {t : Session} (h : s.SameEntries t) :
    Exact t := by
  have hgood := h.good hs.good
  have hprimary := h.primaryExact hs.primary
  have hsecondary := h.secondaryExact hs.secondary
  obtain ⟨t, live⟩ := t
  obtain ⟨htable, rfl⟩ := h
  have hmem := fun e he => htable.of_mem (e := e) he
  obtain ⟨indexes, hindexes, rfl⟩ := htable
  refine ⟨hgood, hs.distinct, hprimary, hsecondary, fun p hp e he => ?_, fun hne => ?_, hs.blocks⟩
  · obtain ⟨e', he', hfst, -⟩ := hmem e he
    have halone := hs.alone p hp e' he'
    rw [hfst] at halone
    exact halone
  · obtain ⟨hread, hcolumn⟩ := hs.readable hne
    refine ⟨hread, hcolumn.imp id (fun hcols e he => ?_)⟩
    obtain ⟨e', he', hfst, -⟩ := hmem e he
    exact hfst ▸ hcols e' he'

/-- At most one live record matches. -/
private def MatchesOnce (s : Session) (params : ColumnPredicates) : Prop :=
  ∀ p ∈ s.live, ∀ q ∈ s.live, params.Matches s.table.schema (s.bytes p) →
    params.Matches s.table.schema (s.bytes q) → p = q

private theorem MatchesOnce.foundOne_eq (h : MatchesOnce s params) {r r' : Option Ptr}
    (hr : s.FoundOne params r) (hr' : s.FoundOne params r') : r = r' := by
  cases r with
  | none =>
    cases r' with
    | none => rfl
    | some a =>
      simp only [FoundOne] at hr hr'
      simp [hr] at hr'
  | some a =>
    cases r' with
    | none =>
      simp only [FoundOne] at hr hr'
      simp [hr'] at hr
    | some b =>
      obtain ⟨p, hp, hm, rfl⟩ := mem_matching.mp hr
      obtain ⟨q, hq, hm', rfl⟩ := mem_matching.mp hr'
      rw [h p hp q hq hm hm']

private theorem MatchesOnce.perm_eq (h : MatchesOnce s params) (hs : s.live.Nodup) {l l' : List Ptr}
    (hl : l.Perm (s.matching params)) (hl' : l'.Perm (s.matching params)) : l = l' := by
  have hall : ∀ p ∈ s.live.filter (fun p => params.Matches s.table.schema (s.bytes p)),
      ∀ q ∈ s.live.filter (fun p => params.Matches s.table.schema (s.bytes p)), p = q := by
    intro p hp q hq
    rw [List.mem_filter, decide_eq_true_eq] at hp hq
    exact h p hp.1 q hq.1 hp.2 hq.2
  have hnodup := hs.filter (fun p => params.Matches s.table.schema (s.bytes p))
  rw [matching] at hl hl'
  generalize s.live.filter (fun p => params.Matches s.table.schema (s.bytes p)) = found
    at hall hnodup hl hl'
  rcases found with _ | ⟨p, _ | ⟨q, rest⟩⟩
  · rw [List.perm_nil.mp hl, List.perm_nil.mp hl']
  · rw [List.perm_singleton.mp hl, List.perm_singleton.mp hl']
  · have hpq := hall p (by simp) q (by simp)
    simp [hpq] at hnodup

private theorem Exact.once_primary (hs : Exact s) (hi : s.table.primaryIndex.isSome)
    (hk : KeyReadable s.table.schema) (hp : params.Valid s.table.schema)
    (hcols : params.columnIds = s.table.schema.primaryCols) : MatchesOnce s params := by
  intro p hp' q hq' hm hm'
  have hkey := (hs.good.primaryKey_eq_iff hk hp hcols hp').mpr hm
  have hkey' := (hs.good.primaryKey_eq_iff hk hp hcols hq').mpr hm'
  exact hs.distinct hi p hp' q hq' (hkey.trans hkey'.symm)

private theorem Exact.once_secondary (hs : Exact s) {e : Bytes × TBBMultiIndex}
    (he : e ∈ s.table.secondaryIndexes) (hp : params.Valid s.table.schema)
    (hsym : params.getPredicateColumnSymbol = e.1) : MatchesOnce s params := by
  intro p hp' q hq' hm hm'
  have hkey := (hs.good.secondaryKey_eq_iff he hp hsym hp').mpr hm
  have hkey' := (hs.good.secondaryKey_eq_iff he hp hsym hq').mpr hm'
  exact hs.alone q hq' e he p hp' (hkey.trans hkey'.symm)

private theorem Exact.pathsEqual (hs : Exact s) (hne : s.live ≠ []) : s.PathsEqual where
  selectRecord params hp hindexed := by
    obtain ⟨r', hr', hf'⟩ := scanRecord_found hs.good (hs.blocks hne) hp
    obtain ⟨hread, hcolumn⟩ := hs.readable hne
    by_cases hsym : params.getPredicateColumnSymbol = s.table.primarySymbol
    · have hi : s.table.primaryIndex.isSome := by
        rcases hindexed with h | h
        · exact h.1
        · rcases hcolumn with hi | hne
          · exact hi
          · -- without a primary index the symbol would be empty, and so an index without columns
            obtain ⟨index, hindex⟩ := Option.isSome_iff_exists.mp h
            by_contra hi
            have hnil : s.table.primarySymbol = [] := by
              rw [hs.good.sound.primary, if_neg (fun hc => hi (hs.good.sound.primaryIndex.mpr hc))]
            exact hne _ (mem_of_secondaryIndex hindex) (hsym.trans hnil)
      have hcols := (hs.good.sound.primarySymbol_iff hi hp).mp hsym
      obtain ⟨r, hr, hf⟩ := hs.primary.found hs.good hi (hread hi) hp hcols
      rw [(hs.once_primary hi (hread hi) hp hcols).foundOne_eq hf hf'] at hr
      exact ⟨r', hr, hr', hf'⟩
    · obtain ⟨index, hindex⟩ := Option.isSome_iff_exists.mp
        (hindexed.resolve_left (fun h => hsym h.2))
      have hmem := mem_of_secondaryIndex hindex
      have hf := (hs.secondary _ hmem).found hs.good hmem hp rfl
      refine ⟨r', ?_, hr', hf'⟩
      rw [SchemaTable.selectRecordColumns, if_neg hsym, hindex, ←
        (hs.once_secondary hmem hp rfl).foundOne_eq hf hf']
      exact if_pos hp
  selectRecords params hp hindexed := by
    obtain ⟨index, hindex⟩ := Option.isSome_iff_exists.mp hindexed
    obtain ⟨r', hr', hm'⟩ := scanRecords_found hs.good (hs.blocks hne) hp
    obtain ⟨r, hr, hm⟩ := hs.secondary.searchExact.selectRecordsColumns hs.good hp hindex
    have honce := hs.once_secondary (mem_of_secondaryIndex hindex) hp rfl
    exact ⟨r, r', hr, hr', honce.perm_eq hs.good.heap.nodup hm hm', hm'⟩

private theorem Exact.pathsAgree (hs : Exact s) (hne : s.live ≠ []) : s.PathsAgree :=
  fun _ ht => (hs.sameEntries ht).pathsEqual (ht.2 ▸ hne)

private theorem readable_of_frame {t u : SchemaTable} (hf : Frame t u) (h : IndexReadable t) :
    IndexReadable u := by
  refine ⟨fun hi => ?_, ?_⟩
  · rw [hf.schema]
    exact h.1 (hf.primaryIndex ▸ hi)
  · rcases h.2 with hi | hne
    · exact Or.inl (by rw [hf.primaryIndex]; exact hi)
    · right
      intro e he
      have hm : e.1 ∈ t.secondaryIndexes.map Prod.fst := hf.secondary ▸ List.mem_map_of_mem he
      obtain ⟨e', he', hfst⟩ := List.mem_map.mp hm
      exact hfst ▸ hne e' he'

/-- The keys of a record in the multi-indexes after an insertion. -/
private theorem Inserted.secondaryKey_new (hi : Inserted s data p s') (symbol : Bytes) :
    s'.secondaryKey symbol p =
      s.table.schema.getKeySymbol data (SchemaTable.indexCols symbol) := by
  rw [secondaryKey, hi.bytes, hi.frame.schema]

private theorem Inserted.secondaryKey_old (hi : Inserted s data p s') (symbol : Bytes) {q : Ptr}
    (hq : q ∈ s.live) : s'.secondaryKey symbol q = s.secondaryKey symbol q := by
  rw [secondaryKey, secondaryKey, hi.kept q hq, hi.frame.schema]

private theorem Inserted.keysAlone (hi : Inserted s data p s') (ha : ∀ q ∈ s.live, s.KeysAlone q)
    (hnew : s.SecondaryNew data) : ∀ q ∈ s'.live, s'.KeysAlone q := by
  intro q hq e' he' r hr hkey
  rw [hi.secondary] at he'
  obtain ⟨e, he, rfl⟩ := List.mem_map.mp he'
  rw [hi.live] at hq hr
  rcases List.mem_cons.mp hq with rfl | hq' <;> rcases List.mem_cons.mp hr with rfl | hr'
  · rfl
  · rw [hi.secondaryKey_new, hi.secondaryKey_old _ hr'] at hkey
    exact absurd hkey (hnew e he r hr')
  · rw [hi.secondaryKey_new, hi.secondaryKey_old _ hq'] at hkey
    exact absurd hkey.symm (hnew e he q hq')
  · rw [hi.secondaryKey_old _ hq', hi.secondaryKey_old _ hr'] at hkey
    exact ha q hq' e he r hr' hkey

private theorem Updated.secondaryKey (hu : Updated s p params s')
    (hkeep : s.KeepsSecondary p params) {e : Bytes × TBBMultiIndex}
    (he : e ∈ s.table.secondaryIndexes) {q : Ptr} (hq : q ∈ s.live) :
    s'.secondaryKey e.1 q = s.secondaryKey e.1 q := by
  by_cases hne : q = p
  · rw [hne, ← hkeep e he, Session.secondaryKey, hu.bytes, hu.frame.schema]
  · rw [Session.secondaryKey, Session.secondaryKey, hu.kept q hq hne, hu.frame.schema]

private theorem Exact.inserted (hs : Exact s) (hi : Inserted s data p s')
    (hread : IndexReadable s.table) (hnew : s.SecondaryNew data)
    (hfresh : s.table.primaryIndex.isSome → ¬ s.KeyLive data) : Exact s' where
  good := hi.good
  distinct hsome := by
    rw [hi.frame.primaryIndex] at hsome
    exact hi.distinctKeys (hs.distinct hsome) (fun q hq he => hfresh hsome ⟨q, hq, he⟩)
  primary := by
    by_cases hsome : s.table.primaryIndex.isSome
    · exact hi.primaryExact hs.primary (fun q hq he => hfresh hsome ⟨q, hq, he⟩)
    · intro index hindex
      have : s'.table.primaryIndex.isSome = true := by rw [hindex]; rfl
      rw [hi.frame.primaryIndex] at this
      exact absurd this hsome
  secondary := hi.secondaryExact hs.secondary
  alone := hi.keysAlone hs.alone hnew
  readable _ := readable_of_frame hi.frame hread
  blocks _ := hi.blocks

private theorem Exact.updated (hs : Exact s) (hu : Updated s p params s')
    (hkeys : s.table.primaryIndex.isSome →
      ∀ q ∈ s.live, q ≠ p → s.primaryKey q ≠ s.updatedKey p params)
    (hkeep : (s.table.primaryIndex.isSome → s.updatedKey p params = s.primaryKey p) ∧
      s.KeepsSecondary p params) : Exact s' where
  good := hu.good
  distinct hsome := by
    rw [hu.frame.primaryIndex] at hsome
    exact hu.distinctKeys (hs.distinct hsome) (hkeys hsome)
  primary := by
    by_cases hsome : s.table.primaryIndex.isSome
    · exact hu.primaryExact hs.primary (hkeep.1 hsome)
    · intro index hindex
      rw [hu.primary] at hindex
      simp [hindex] at hsome
  secondary := hu.secondaryExact hs.secondary hkeep.2
  alone := by
    intro q hq e he r hr hkey
    rw [hu.live] at hq hr
    rw [hu.secondary] at he
    rw [hu.secondaryKey hkeep.2 he hq, hu.secondaryKey hkeep.2 he hr] at hkey
    exact hs.alone q hq e he r hr hkey
  readable hne := readable_of_frame hu.frame (hs.readable (hu.live ▸ hne))
  blocks hne := by
    rw [hu.blocks]
    exact hs.blocks (hu.live ▸ hne)

private theorem agree_step {op : Op} (hs : Exact s) (hv : InsertsUpdates s op)
    (hc : KeepsKeys s op) : ∃ s', s.step op = some s' ∧ s'.PathsAgree ∧ Exact s' := by
  rcases hv.step hs.good with
    ⟨data, p, s', ho, -, hstep, hi, hfresh⟩ | ⟨p, params, s', -, ht, hp, hstep, hu, hkeys⟩
  · obtain ⟨-, hread, hnew⟩ := hc.1 data ho
    have hs' := hs.inserted hi hread hnew hfresh
    exact ⟨s', hstep, hs'.pathsAgree (by simp [hi.live]), hs'⟩
  · have hs' := hs.updated hu hkeys (hc.2 p params ht)
    exact ⟨s', hstep, hs'.pathsAgree (hu.live ▸ List.ne_nil_of_mem hp), hs'⟩

/-- The predicate that asks for the columns of a given record. -/
def predicateOf (schema : Schema) (data : Bytes) (cols : List ℕ) : ColumnPredicates :=
  ⟨cols.map (fun c => (c, schema.getColumn data c))⟩

section PredicateOf
variable {schema : Schema} {cols : List ℕ}

@[simp] theorem predicateOf_columnIds (schema : Schema) (data : Bytes) (cols : List ℕ) :
    (predicateOf schema data cols).columnIds = cols := by
  simp [predicateOf, ColumnPredicates.columnIds, Function.comp_def]

theorem predicateOf_valid (hl : schema.Layout) (hd : data.length = schema.getSchemaSize)
    (hc : schema.ValidColumns cols) : (predicateOf schema data cols).Valid schema := by
  intro e he
  obtain ⟨c, hcm, rfl⟩ := List.mem_map.mp he
  exact ⟨hc c hcm, (Schema.getColumn_length hl hd (hc c hcm)).ge⟩

private theorem predicateOf_matches (hl : schema.Layout) (hd : data.length = schema.getSchemaSize)
    (hc : schema.ValidColumns cols) : (predicateOf schema data cols).Matches schema data := by
  intro e he
  obtain ⟨c, hcm, rfl⟩ := List.mem_map.mp he
  exact List.take_of_length_le (Schema.getColumn_length hl hd (hc c hcm)).le

theorem predicateOf_symbol (hl : schema.Layout) (hd : data.length = schema.getSchemaSize)
    (hc : schema.ValidColumns cols) : (predicateOf schema data cols).getPredicateDataSymbol schema =
      schema.getKeySymbol data cols := by
  have h := (ColumnPredicates.getPredicateDataSymbol_eq_iff hl (predicateOf_valid hl hd hc) hd).mpr
    (predicateOf_matches hl hd hc)
  rwa [predicateOf_columnIds] at h

private theorem predicateOf_key (hl : schema.Layout) (hd : data.length = schema.getSchemaSize)
    (hc : schema.ValidColumns cols) {data' : Bytes} (hd' : data'.length = schema.getSchemaSize)
    (hm : (predicateOf schema data cols).Matches schema data') :
    schema.getKeySymbol data' cols = schema.getKeySymbol data cols := by
  have h := (ColumnPredicates.getPredicateDataSymbol_eq_iff hl (predicateOf_valid hl hd hc) hd').mpr
    hm
  rw [predicateOf_columnIds, predicateOf_symbol hl hd hc] at h
  exact h.symm

end PredicateOf

private theorem secondaryIndex_isSome {t : SchemaTable} {e : Bytes × TBBMultiIndex}
    (he : e ∈ t.secondaryIndexes) : ∃ index, t.secondaryIndex e.1 = some index := by
  cases hl : t.secondaryIndex e.1 with
  | some index => exact ⟨index, rfl⟩
  | none =>
    have := List.lookup_eq_none_iff.mp hl e he
    simp at this

private theorem matches_of_mem_matching {a : Ptr} (ha : p.add kRecordHeaderSize = a)
    (hm : a ∈ s.matching params) : params.Matches s.table.schema (s.bytes p) := by
  obtain ⟨q, -, hm, he⟩ := mem_matching.mp hm
  have hqp : q = p := Ptr.add_injective kRecordHeaderSize (he.trans ha.symm)
  exact hqp ▸ hm

/-- If the paths still agree after an update, the update has kept the primary key. -/
private theorem updatedKey_of_agree (hs : Exact s) (hp : p ∈ s.live) (hu : Updated s p params s')
    (hf : s'.PathsAgree) (hi : s.table.primaryIndex.isSome) :
    s.updatedKey p params = s.primaryKey p := by
  have hl := hs.good.sound.layout
  have hk := (hs.readable (List.ne_nil_of_mem hp)).1 hi
  have hd := hs.good.bytes_length hp
  have hcols : s.table.schema.ValidColumns s.table.schema.primaryCols := fun _ => hl.primary_lt
  have hschema := hu.frame.schema
  have hi' : s'.table.primaryIndex.isSome := hu.frame.primaryIndex ▸ hi
  have hv : (predicateOf s.table.schema (s.bytes p) s.table.schema.primaryCols).Valid
      s'.table.schema := by
    rw [hschema]
    exact predicateOf_valid hl hd hcols
  have hsym := (hu.good.sound.primarySymbol_iff hi' hv).mpr (by rw [hschema, predicateOf_columnIds])
  obtain ⟨r, hr, -, hfound⟩ := (hf s' (.refl _)).selectRecord _ hv (Or.inl ⟨hi', hsym⟩)
  -- the index still answers with the updated record under its old key
  obtain ⟨index, hindex⟩ := Option.isSome_iff_exists.mp hi
  have hold := (hs.primary index hindex _ _).mpr ⟨p, hp, rfl, rfl⟩
  rw [SchemaTable.selectRecordColumns, if_pos hsym, if_pos hv, hu.primary, hindex, hschema,
    predicateOf_symbol hl hd hcols, Option.map_some, ← hk.getPrimaryKeySymbol_eq hl hd] at hr
  rw [primaryKey] at hold
  rw [hold] at hr
  cases hr
  have hm := matches_of_mem_matching rfl hfound
  rw [hschema, hu.bytes] at hm
  have hd' : (s.table.schema.setColumns (s.bytes p) params.entries).length =
      s.table.schema.getSchemaSize := by
    rw [← hu.bytes, hu.good.bytes_length (hu.live ▸ hp), hschema]
  rw [updatedKey, primaryKey, hk.getPrimaryKeySymbol_eq hl hd', hk.getPrimaryKeySymbol_eq hl hd]
  exact predicateOf_key hl hd hcols hd' hm

/-- If the paths still agree after an update, the update has kept every secondary key. -/
private theorem keepsSecondary_of_agree (hs : Exact s) (hp : p ∈ s.live)
    (hu : Updated s p params s') (hf : s'.PathsAgree) : s.KeepsSecondary p params := by
  intro e he
  have hl := hs.good.sound.layout
  have hd := hs.good.bytes_length hp
  have hschema := hu.frame.schema
  obtain ⟨cols, hc, hcols⟩ := hs.good.sound.secondary e he
  have hindexCols := hs.good.sound.indexCols hcols
  have hv : (predicateOf s.table.schema (s.bytes p) cols).Valid s'.table.schema := by
    rw [hschema]
    exact predicateOf_valid hl hd hcols
  have hsym : (predicateOf s.table.schema (s.bytes p) cols).getPredicateColumnSymbol = e.1 := by
    rw [hc, ColumnPredicates.getPredicateColumnSymbol, predicateOf_columnIds]
  obtain ⟨index, hindex⟩ := secondaryIndex_isSome he
  have hindex' : s'.table.secondaryIndex e.1 = some index := by
    rw [SchemaTable.secondaryIndex, hu.secondary]
    exact hindex
  obtain ⟨r, r', hr, -, heq, hperm⟩ := (hf s' (.refl _)).selectRecords _ hv (by rw [hsym, hindex']; rfl)
  have hsearch := hs.secondary.searchExact _ (mem_of_secondaryIndex hindex)
    (s.table.schema.getKeySymbol (s.bytes p) cols)
  have hfound : p.add kRecordHeaderSize ∈
      index.searchRecords (s.table.schema.getKeySymbol (s.bytes p) cols) := by
    apply hsearch.mem_iff.mpr
    apply List.mem_map_of_mem
    refine List.mem_filter.mpr ⟨hp, ?_⟩
    simp [secondaryKey, hc, hindexCols]
  simp only [SchemaTable.selectRecordsColumns, hsym, hindex', if_pos hv] at hr
  rw [hschema, predicateOf_symbol hl hd hcols] at hr
  cases hr
  have hm := matches_of_mem_matching rfl (hperm.mem_iff.mp (heq.subst hfound))
  rw [hschema, hu.bytes] at hm
  have hd' : (s.table.schema.setColumns (s.bytes p) params.entries).length =
      s.table.schema.getSchemaSize := by
    rw [← hu.bytes, hu.good.bytes_length (hu.live ▸ hp), hschema]
  rw [secondaryKey, hc, hindexCols]
  exact predicateOf_key hl hd hcols hd' hm

/-- If the paths agree after an insertion, the indexes are readable. -/
private theorem readable_of_agree (hs : Exact s) (hi : Inserted s data p s')
    (hfresh : s.table.primaryIndex.isSome → ¬ s.KeyLive data) (hf : s'.PathsAgree) :
    IndexReadable s.table := by
  have hgood := hi.good
  have hl := hgood.sound.layout
  have hlive : p ∈ s'.live := by simp [hi.live]
  have hd := hgood.bytes_length hlive
  constructor
  · -- primary columns of no bytes: the index has the whole record as its key
    intro hsome
    by_contra hread
    obtain ⟨h0, hsize⟩ := not_or.mp hread
    have hsome' : s'.table.primaryIndex.isSome := hi.frame.primaryIndex ▸ hsome
    have hx := hi.primaryExact hs.primary (fun q hq he => hfresh hsome ⟨q, hq, he⟩)
    have hcols : s'.table.schema.ValidColumns s'.table.schema.primaryCols :=
      fun _ => hl.primary_lt
    have hv := predicateOf_valid hl hd hcols
    have hsym := (hgood.sound.primarySymbol_iff hsome' hv).mpr (predicateOf_columnIds _ _ _)
    obtain ⟨r, hr, -, hfound⟩ := (hf s' (.refl _)).selectRecord _ hv (Or.inl ⟨hsome', hsym⟩)
    obtain ⟨index, hindex⟩ := Option.isSome_iff_exists.mp hsome'
    have hempty : s'.table.schema.getKeySymbol (s'.bytes p) s'.table.schema.primaryCols = [] := by
      apply List.length_eq_zero_iff.mp
      rw [Schema.getKeySymbol_length hl hd hcols, Schema.getKeyLength, ← hl.sizes, ← hl.keyLength,
        hi.frame.schema]
      exact not_not.mp h0
    rw [SchemaTable.selectRecordColumns, if_pos hsym, if_pos hv, hindex,
      predicateOf_symbol hl hd hcols, hempty, Option.map_some] at hr
    cases r with
    | none =>
      have hm := mem_matching.mpr ⟨p, hlive, predicateOf_matches hl hd hcols, rfl⟩
      rw [show s'.matching _ = [] from hfound] at hm
      cases hm
    | some a =>
      obtain ⟨q, hq, hkey, -⟩ := (hx index hindex _ _).mp (Option.some.inj hr)
      rw [primaryKey, hi.frame.schema, Schema.getPrimaryKeySymbol, if_pos (not_not.mp h0),
        ← hi.frame.schema, List.take_of_length_le (hgood.bytes_length hq).le] at hkey
      have hzero := hgood.bytes_length hq
      rw [hkey, hi.frame.schema] at hzero
      exact hsize hzero.symm
  · -- a multi-index without columns and no primary index: the first comparison succeeds
    by_contra hnone
    obtain ⟨hnone, hcol⟩ := not_or.mp hnone
    simp only [not_forall, not_not] at hcol
    obtain ⟨e, he, hnil⟩ := hcol
    have hnone' : ¬ s'.table.primaryIndex.isSome := hi.frame.primaryIndex ▸ hnone
    have hm : e.1 ∈ s'.table.secondaryIndexes.map Prod.fst :=
      hi.frame.secondary ▸ List.mem_map_of_mem he
    obtain ⟨e', he', hfst⟩ := List.mem_map.mp hm
    obtain ⟨index, hindex⟩ := secondaryIndex_isSome he'
    have hv : (⟨[]⟩ : ColumnPredicates).Valid s'.table.schema := by
      intro e he
      cases he
    have hsecond : (s'.table.secondaryIndex
        (⟨[]⟩ : ColumnPredicates).getPredicateColumnSymbol).isSome := by
      rw [show (⟨[]⟩ : ColumnPredicates).getPredicateColumnSymbol = e'.1 by
        rw [hfst, hnil]; rfl, hindex]
      rfl
    obtain ⟨r, hr, -⟩ := (hf s' (.refl _)).selectRecord _ hv (Or.inr hsecond)
    have hsym : (⟨[]⟩ : ColumnPredicates).getPredicateColumnSymbol = s'.table.primarySymbol := by
      rw [hgood.sound.primary, if_neg (fun h => hnone' (hgood.sound.primaryIndex.mpr h))]
      rfl
    rw [SchemaTable.selectRecordColumns, if_pos hsym, if_pos hv,
      Option.not_isSome_iff_eq_none.mp hnone'] at hr
    cases hr

/-- If the paths agree whatever the order, whoever is met first under a key heads what the scan
returns. -/
private theorem head_of_agree (hf : s.PathsAgree) (hp : params.Valid s.table.schema)
    {index : TBBMultiIndex}
    (hindex : s.table.secondaryIndex params.getPredicateColumnSymbol = some index) {a : Ptr}
    (ha : (params.getPredicateDataSymbol s.table.schema, a) ∈ index.map) {r : Records}
    (hr : s.table.scanRecords params = some r) : r.dataPtrs.head? = some a := by
  have horder := s.table.sameEntries_foremost a
  have hfirst : (s.table.foremost a).secondaryIndex params.getPredicateColumnSymbol =
      some (index.foremost a) := by
    rw [SchemaTable.secondaryIndex_foremost, hindex, Option.map_some]
  have hequal : PathsEqual ⟨s.table.foremost a, s.live⟩ := hf _ ⟨horder, rfl⟩
  obtain ⟨r₁, r₂, hr₁, hr₂, heq, -⟩ := hequal.selectRecords params hp
    (by simp only [hfirst, Option.isSome_some])
  simp only [horder.scanRecords_eq, hr, Option.some.injEq] at hr₂
  simp only [SchemaTable.selectRecordsColumns, hfirst] at hr₁
  cases (if_pos hp).symm.trans hr₁
  have hsearch := TBBMultiIndex.searchRecord_foremost ha
  rw [TBBMultiIndex.searchRecord, ← List.head?_filter, ← List.head?_map] at hsearch
  rw [hr₂, ← heq]
  exact hsearch

/-- If the paths agree whatever the order, no two live records share a key of a multi-index. -/
private theorem keysAlone_of_agree (hs : Good s) (hx : s.SecondaryExact)
    (hb : s.table.base.blocks.length ≠ 0) (hf : s.PathsAgree) (hp : p ∈ s.live) :
    s.KeysAlone p := by
  intro e he q hq hkey
  have hl := hs.sound.layout
  have hd := hs.bytes_length hp
  obtain ⟨cols, hc, hcols⟩ := hs.sound.secondary e he
  obtain ⟨index, hindex⟩ := secondaryIndex_isSome he
  have hv := predicateOf_valid hl hd hcols
  have hsym : (predicateOf s.table.schema (s.bytes p) cols).getPredicateColumnSymbol = e.1 := by
    rw [hc, ColumnPredicates.getPredicateColumnSymbol, predicateOf_columnIds]
  have hdata : (predicateOf s.table.schema (s.bytes p) cols).getPredicateDataSymbol
      s.table.schema = s.secondaryKey e.1 p := by
    rw [predicateOf_symbol hl hd hcols, secondaryKey, hc, hs.sound.indexCols hcols]
  have hentries := hx _ (mem_of_secondaryIndex hindex)
  have hentry : ∀ a ∈ s.live, s.secondaryKey e.1 a = s.secondaryKey e.1 p →
      ((predicateOf s.table.schema (s.bytes p) cols).getPredicateDataSymbol s.table.schema,
        a.add kRecordHeaderSize) ∈ index.map :=
    fun a ha hsame => hentries.mem_iff.mpr (List.mem_map.mpr ⟨a, ha, by rw [hdata, ← hsame]⟩)
  obtain ⟨r, hr, -⟩ := scanRecords_found hs hb hv
  have hheadp := head_of_agree hf hv (hsym.symm ▸ hindex) (hentry p hp rfl) hr
  have hheadq := head_of_agree hf hv (hsym.symm ▸ hindex) (hentry q hq hkey) hr
  exact Ptr.add_injective kRecordHeaderSize (Option.some.inj (hheadq.symm.trans hheadp))

/-- If the paths agree after an insertion, nobody had a key of the inserted record before. -/
private theorem secondaryNew_of_agree (hs : Exact s) (hi : Inserted s data p s')
    (hf : s'.PathsAgree) : s.SecondaryNew data := by
  intro e he q hq hkey
  have hsymbol : e.1 ∈ s'.table.secondaryIndexes.map Prod.fst :=
    hi.frame.secondary ▸ List.mem_map_of_mem he
  obtain ⟨e', he', hfst⟩ := List.mem_map.mp hsymbol
  have hp : p ∈ s'.live := by simp [hi.live]
  have halone := keysAlone_of_agree hi.good (hi.secondaryExact hs.secondary) hi.blocks hf hp
  have hqp := halone e' he' q (by simp [hi.live, hq])
    (by rw [hfst, hi.secondaryKey_new, hi.secondaryKey_old _ hq, hkey])
  exact hi.fresh (hqp ▸ hq)

private theorem agree_back {op : Op} (hs : Exact s) (hv : InsertsUpdates s op)
    (hstep : s.step op = some s') (hf : s'.PathsAgree) : KeepsKeys s op := by
  rcases hv.step hs.good with
    ⟨data, p, s₁, ho, htarget, hstep', hi, hfresh⟩ |
    ⟨p, params, s₁, hins, htarget, hp, hstep', hu, -⟩
  · rw [hstep] at hstep'
    cases hstep'
    constructor
    · intro inserted hinserted
      rw [ho] at hinserted
      cases hinserted
      exact ⟨hs.good.heap.fits, readable_of_agree hs hi hfresh hf, secondaryNew_of_agree hs hi hf⟩
    · intro q ps ht
      rw [htarget] at ht
      cases ht
  · rw [hstep] at hstep'
    cases hstep'
    refine ⟨fun data ho => by simp [hins] at ho, ?_⟩
    intro q ps ht
    rw [htarget] at ht
    cases ht
    exact ⟨updatedKey_of_agree hs hp hu hf, keepsSecondary_of_agree hs hp hu hf⟩

private theorem exact_new {schema : Schema} (hs : schema.Built) {indexes : List (List ℕ)}
    (hi : ∀ cols ∈ indexes, schema.ValidColumns cols) (hfit : (Session.new schema indexes).Fits) :
    Exact (Session.new schema indexes) where
  good := Good.new hs.layout hi hfit
  distinct _ := distinctKeys_new schema indexes
  primary := primaryExact_new schema indexes
  secondary := secondaryExact_new schema indexes
  alone _ hp := nomatch hp
  readable h := absurd rfl h
  blocks h := absurd rfl h

/-- Where the multi-indexes change the order of equal keys as they like along the run, the two paths
still return the same at its end. -/
theorem RunsReordered.pathsEqual {schema : Schema} (hs : schema.Built) {indexes : List (List ℕ)}
    (hi : ∀ cols ∈ indexes, schema.ValidColumns cols) (hfit : (Session.new schema indexes).Fits)
    {ops : List Op} {op : Op} {u : Session}
    (hv : Meets Session.step InsertsUpdates (Session.new schema indexes) (ops ++ [op]))
    (hc : Meets Session.step KeepsKeys (Session.new schema indexes) (ops ++ [op]))
    (h : RunsReordered (Session.new schema indexes) (ops ++ [op]) u) : u.PathsEqual := by
  have hholds := (hv.and hc).holds (fun _ _ hs hop => agree_step hs hop.1 hop.2)
    (exact_new hs hi hfit)
  obtain ⟨-, s', -, hrun, hagree⟩ := hholds.last
  obtain ⟨t, hrun', hsame⟩ := h.run (.refl _)
  cases hrun.symm.trans hrun'
  exact hagree u hsame

/-- Along every run of insertions and updates, selections through an index return after every step
what the scan returns, in whatever order equal keys are met, if and only if the records fit a block,
the indexes can be read from predicates, no inserted record has a secondary key of a live one and no
update changes a key of an index. -/
theorem pathsAgree_iff {schema : Schema} (hs : schema.Built) {indexes : List (List ℕ)}
    (hi : ∀ cols ∈ indexes, schema.ValidColumns cols) {ops : List Op}
    (hv : Meets Session.step InsertsUpdates (Session.new schema indexes) ops) :
    GuardedRun.Holds Session.step (fun _ _ s' => s'.PathsAgree) (Session.new schema indexes) ops ↔
      Meets Session.step KeepsKeys (Session.new schema indexes) ops := by
  by_cases hfit : (Session.new schema indexes).Fits
  · exact holds_iff_meets (fun s op hinv => agree_step hinv)
      (fun s op s' hinv => agree_back hinv)
      (exact_new hs hi hfit) hv
  · exact holds_iff_meets_unfit hfit (fun op => InsertsUpdates.first)
      (fun s op ho hc => by
        obtain ⟨data, hdata⟩ := Option.isSome_iff_exists.mp ho
        exact (hc.1 data hdata).1) hv

/-- One record whose group is changed. -/
def moveToGroup : List Op := [.insertRecord [1, 7], .updateRecordColumn 0 ⟨1, [8]⟩]

private theorem moveToGroup_valid :
    Meets Session.step InsertsUpdates (Session.new groupSchema [[1]]) moveToGroup := by
  have hgood : Good (Session.new groupSchema [[1]]) :=
    Good.new groupSchema_built.layout (by decide) (by decide)
  refine ⟨⟨rfl, fun _ ⟨p, hp, _⟩ => nomatch hp⟩, fun s hs => ⟨?_, fun _ _ => trivial⟩⟩
  obtain ⟨p, s', hstep, hi⟩ := step_insertRecord hgood (show ([1, 7] : Bytes).length = _ from rfl)
  rw [hs] at hstep
  cases hstep
  refine ⟨p, ⟨[(1, [8])]⟩, by simp [updateTarget, Op.target, hi.live, ColumnPredicate.toPredicates], ?_, ?_⟩
  · rw [hi.frame.schema]
    decide
  · intro _ q hq hne
    rw [hi.live] at hq
    exact absurd (List.mem_singleton.mp hq) hne

theorem pathsAgree_iff_moveToGroup :
    GuardedRun.Holds Session.step (fun _ _ s' => s'.PathsAgree) (Session.new groupSchema [[1]]) moveToGroup ↔
      Meets Session.step KeepsKeys (Session.new groupSchema [[1]]) moveToGroup :=
  pathsAgree_iff groupSchema_built (by decide) moveToGroup_valid

/-- The index on the group has no entry under the new group, where a scan finds the record. -/
theorem moveToGroup_disagrees :
    Meets Session.step InsertsUpdates (Session.new groupSchema [[1]]) moveToGroup ∧
      ¬ GuardedRun.Holds Session.step (fun _ _ s' => s'.PathsAgree) (Session.new groupSchema [[1]])
        moveToGroup := by
  refine ⟨moveToGroup_valid, fun h => ?_⟩
  obtain ⟨-, s', -, hrun, hf⟩ := Holds.last
    (show GuardedRun.Holds _ _ _ ([Op.insertRecord [1, 7]] ++ [Op.updateRecordColumn 0 ⟨1, [8]⟩]) from h)
  have heval : (run Session.step (Session.new groupSchema [[1]]) moveToGroup).map (fun s =>
      (s.table.schema, (s.table.secondaryIndex (sizeWords [1])).isSome,
        (s.table.selectRecordsColumns ⟨[(1, [8])]⟩).map (fun r => r.dataPtrs.length),
        (s.matching ⟨[(1, [8])]⟩).length)) = some (groupSchema, true, some 0, 1) := by decide
  rw [show run Session.step (Session.new groupSchema [[1]]) moveToGroup = some s' from hrun] at heval
  simp only [Option.map_some, Option.some_inj, Prod.mk.injEq] at heval
  obtain ⟨hschema, hindex, hselect, hmatch⟩ := heval
  obtain ⟨r, r', hr, -, heq, hperm⟩ := (hf s' (.refl _)).selectRecords ⟨[(1, [8])]⟩
    (by rw [hschema]; decide) hindex
  rw [hr, Option.map_some, Option.some_inj, heq] at hselect
  have hlength := hperm.length_eq
  omega

end Session
end ImdbD.StorageEngine
