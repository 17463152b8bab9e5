import ImdbD.PrimaryKeyEnforcement

/-!
# The selections of a table that only grows

After insertions alone every multi-index holds exactly the live records, and the
primary index holds for each key one of the records that have it, the first one
inserted. So whichever path a selection takes, it answers what a scan would.
-/
namespace ImdbD.StorageEngine
open ByteMemory GuardedRun
namespace Session
variable {s s' : Session} {p : Ptr} {data : Bytes} {params : ColumnPredicates}

/-- Calls of a client that only inserts records, with either overload of `insertRecord`. -/
def Inserts (s : Session) (op : Op) : Prop := op.inserted.isSome ∧ InsertsDeletes s op

instance (s : Session) (op : Op) : Decidable (Inserts s op) :=
  inferInstanceAs (Decidable (_ ∧ _))

theorem Inserts.step (hs : Good s) {op : Op} (h : Inserts s op) :
    ∃ data p s', op.inserted = some data ∧ s.step op = some s' ∧ Inserted s data p s' := by
  rcases h.2.step hs with hi | ⟨i, p, s', rfl, -, -⟩
  · exact hi
  · cases h.1

private theorem primaryAnswers_new (schema : Schema) (indexes : List (List ℕ)) :
    (Session.new schema indexes).PrimaryAnswers :=
  (primaryExact_new schema indexes).answers

/-- The entry of a key stays that of the first record with it. -/
theorem Inserted.primaryAnswers (h : Inserted s data p s') (hx : s.PrimaryAnswers) :
    s'.PrimaryAnswers := by
  intro index' hi key
  rw [h.primary] at hi
  obtain ⟨index, hindex, rfl⟩ := Option.map_eq_some_iff.mp hi
  have hold := hx index hindex key
  simp only [TBBUniqueIndex.searchRecord, TBBUniqueIndex.insertRecord] at hold ⊢
  rw [h.live]
  have hkept : ∀ {a : Ptr}, (∃ q ∈ s.live, s.primaryKey q = key ∧ q.add kRecordHeaderSize = a) →
      ∃ q ∈ p :: s.live, s'.primaryKey q = key ∧ q.add kRecordHeaderSize = a := by
    rintro a ⟨q, hq, hk, ha⟩
    exact ⟨q, List.mem_cons_of_mem _ hq, by rw [h.primaryKey_old hq]; exact hk, ha⟩
  by_cases hk : key = s.table.schema.getPrimaryKeySymbol data
  · subst hk
    rw [if_pos rfl]
    cases hm : index.map (s.table.schema.getPrimaryKeySymbol data) with
    | none => exact ⟨p, List.mem_cons_self, h.primaryKey_new, rfl⟩
    | some a =>
      rw [hm] at hold
      exact hkept hold
  · rw [if_neg hk]
    cases hm : index.map key with
    | some a =>
      rw [hm] at hold
      exact hkept hold
    | none =>
      rw [hm] at hold
      intro q hq
      rcases List.mem_cons.mp hq with rfl | hq'
      · rw [h.primaryKey_new]
        exact Ne.symm hk
      · rw [h.primaryKey_old hq']
        exact hold q hq'

/-- The selections by predicates over one or more columns and the one by primary key. -/
structure SelectsExact (s : Session) : Prop where
  selectRecords : ∀ params : ColumnPredicates, params.entries ≠ [] →
    params.Valid s.table.schema → ∃ r, s.table.selectRecordsColumns params = some r ∧
      r.dataPtrs.Perm (s.matching params)
  selectRecordsColumn : ∀ param : ColumnPredicate, param.toPredicates.Valid s.table.schema →
    ∃ r, s.table.selectRecordsColumn param = some r ∧
      r.dataPtrs.Perm (s.matching param.toPredicates)
  selectRecord : ∀ params : ColumnPredicates, params.entries ≠ [] →
    params.Valid s.table.schema → ∃ r, s.table.selectRecordColumns params = some r ∧
      s.FoundOne params r
  selectRecordColumn : ∀ param : ColumnPredicate, param.toPredicates.Valid s.table.schema →
    ∃ r, s.table.selectRecordColumn param = some r ∧ s.FoundOne param.toPredicates r
  selectRecordKey : s.table.primaryIndex.isSome → ∀ key,
    ∃ r, s.table.selectRecordKey key = some r ∧ match r with
      | some a => ∃ p ∈ s.live, s.primaryKey p = key ∧ p.add kRecordHeaderSize = a
      | none => ∀ p ∈ s.live, s.primaryKey p ≠ key

/-- The invariant of runs that only insert. -/
structure Grown (s : Session) : Prop where
  good : Good s
  primary : s.PrimaryAnswers
  secondary : s.SecondaryExact
  blocks : s.live ≠ [] → s.table.base.blocks.length ≠ 0

theorem Grown.new {schema : Schema} (hs : schema.Layout) {indexes : List (List ℕ)}
    (hi : ∀ cols ∈ indexes, schema.ValidColumns cols)
    (hfit : schema.getSchemaSize + kRecordHeaderSize ≤ kBlockSize) :
    Grown (Session.new schema indexes) where
  good := Good.new hs hi hfit
  primary := primaryAnswers_new schema indexes
  secondary := secondaryExact_new schema indexes
  blocks h := absurd rfl h

theorem Grown.inserted (h : Grown s) (hi : Inserted s data p s') : Grown s' where
  good := hi.good
  primary := hi.primaryAnswers h.primary
  secondary := hi.secondaryExact h.secondary
  blocks _ := hi.blocks

/-- `selectRecords` goes through a multi-index or scans. -/
theorem Grown.selectRecordsColumns (h : Grown s) (hne : s.live ≠ [])
    (hp : params.Valid s.table.schema) : ∃ r, s.table.selectRecordsColumns params = some r ∧
      r.dataPtrs.Perm (s.matching params) := by
  cases hindex : s.table.secondaryIndex params.getPredicateColumnSymbol with
  | some index => exact h.secondary.searchExact.selectRecordsColumns h.good hp hindex
  | none =>
    rw [SchemaTable.selectRecordsColumns, hindex]
    exact scanRecords_found h.good (h.blocks hne) hp

/-- `selectRecord` through the primary index or a multi-index, of an empty table as well. -/
theorem Grown.selectRecordColumns_indexed (h : Grown s)
    (hk : s.table.primaryIndex.isSome → KeyReadable s.table.schema) (hcols : params.entries ≠ [])
    (hp : params.Valid s.table.schema)
    (hindexed : params.getPredicateColumnSymbol = s.table.primarySymbol ∨
      (s.table.secondaryIndex params.getPredicateColumnSymbol).isSome) :
    ∃ r, s.table.selectRecordColumns params = some r ∧ s.FoundOne params r := by
  by_cases hsym : params.getPredicateColumnSymbol = s.table.primarySymbol
  · have hi : s.table.primaryIndex.isSome := by
      -- without primary columns the symbol is empty, and that of the predicate is not
      by_contra hnone
      have hnil : s.table.primarySymbol = [] := by
        rw [h.good.sound.primary, if_neg (fun hc => hnone (h.good.sound.primaryIndex.mpr hc))]
      have hcount := congrArg List.length (hsym.trans hnil)
      simp only [ColumnPredicates.getPredicateColumnSymbol, ColumnPredicates.columnIds,
        sizeWords_length, List.length_map, List.length_nil] at hcount
      exact hcols (List.length_eq_zero_iff.mp (by omega))
    exact h.primary.found h.good hi (hk hi) hp ((h.good.sound.primarySymbol_iff hi hp).mp hsym)
  · obtain ⟨index, hindex⟩ := Option.isSome_iff_exists.mp (hindexed.resolve_left hsym)
    have hmem := mem_of_secondaryIndex hindex
    rw [SchemaTable.selectRecordColumns, if_neg hsym, hindex]
    exact ⟨_, if_pos hp, (h.secondary _ hmem).found h.good hmem hp rfl⟩

/-- `selectRecord` goes through the primary index, through a multi-index or scans. -/
theorem Grown.selectRecordColumns (h : Grown s) (hne : s.live ≠ [])
    (hk : s.table.primaryIndex.isSome → KeyReadable s.table.schema) (hcols : params.entries ≠ [])
    (hp : params.Valid s.table.schema) : ∃ r, s.table.selectRecordColumns params = some r ∧
      s.FoundOne params r := by
  by_cases hindexed : params.getPredicateColumnSymbol = s.table.primarySymbol ∨
      (s.table.secondaryIndex params.getPredicateColumnSymbol).isSome
  · exact h.selectRecordColumns_indexed hk hcols hp hindexed
  · rw [not_or, Option.not_isSome_iff_eq_none] at hindexed
    rw [SchemaTable.selectRecordColumns, if_neg hindexed.1, hindexed.2]
    exact scanRecord_found h.good (h.blocks hne) hp

private theorem Grown.selectsExact (h : Grown s) (hne : s.live ≠ [])
    (hk : s.table.primaryIndex.isSome → KeyReadable s.table.schema) : s.SelectsExact where
  selectRecords _ _ hp := h.selectRecordsColumns hne hp
  selectRecordsColumn _ hp := h.selectRecordsColumns hne hp
  selectRecord _ hcols hp := h.selectRecordColumns hne hk hcols hp
  selectRecordColumn _ hp := h.selectRecordColumns hne hk (List.cons_ne_nil _ _) hp
  selectRecordKey hi key := by
    obtain ⟨index, hindex⟩ := Option.isSome_iff_exists.mp hi
    exact ⟨_, by rw [SchemaTable.selectRecordKey, hindex, Option.map_some],
      h.primary index hindex key⟩

/-- A run of insertions: it succeeds, and the live records are those inserted. -/
theorem Grown.run (h : Grown s) {ops : List Op} (hv : Meets Session.step Inserts s ops) :
    ∃ s', GuardedRun.run Session.step s ops = some s' ∧ Grown s' ∧
      s'.table.schema = s.table.schema ∧
      s'.table.primaryIndex.isSome = s.table.primaryIndex.isSome ∧
      s'.live.map s'.bytes = (ops.filterMap Op.inserted).reverse ++ s.live.map s.bytes := by
  induction ops generalizing s with
  | nil => exact ⟨s, rfl, h, rfl, rfl, rfl⟩
  | cons op ops ih =>
    obtain ⟨hop, hrest⟩ := hv
    obtain ⟨data, p, t, ho, hstep, hi⟩ := hop.step h.good
    obtain ⟨s', hrun, hg, hschema, hprimary, hlive⟩ := ih (h.inserted hi) (hrest t hstep)
    refine ⟨s', by rw [GuardedRun.run, hstep, Option.bind_some, hrun], hg,
      hschema.trans hi.frame.schema, hprimary.trans hi.frame.primaryIndex, ?_⟩
    have hkept : s.live.map t.bytes = s.live.map s.bytes := List.map_congr_left hi.kept
    rw [hlive, hi.live, List.map_cons, hi.bytes, hkept, List.filterMap_cons, ho]
    simp

/-- The invariant does not depend on the order in which equal keys are met. -/
private theorem Grown.sameEntries (h : Grown s) {t : Session} (hsame : s.SameEntries t) :
    Grown t where
  good := hsame.good h.good
  primary := hsame.primaryAnswers h.primary
  secondary := hsame.secondaryExact h.secondary
  blocks hne := by
    rw [hsame.1.base_eq]
    exact h.blocks (hsame.2 ▸ hne)

private theorem grown_of_inserts {schema : Schema} (hs : schema.Built)
    (hsizes : ∀ c ∈ schema.columns, 1 ≤ c.columnSize)
    (hfit : schema.getSchemaSize + kRecordHeaderSize ≤ kBlockSize) {indexes : List (List ℕ)}
    (hi : ∀ cols ∈ indexes, schema.ValidColumns cols) {ops : List Op} (hne : ops ≠ [])
    (hv : Meets Session.step Inserts (Session.new schema indexes) ops) :
    ∃ s, GuardedRun.run Session.step (Session.new schema indexes) ops = some s ∧
      s.live.map s.bytes = (ops.filterMap Op.inserted).reverse ∧ Grown s ∧ s.live ≠ [] ∧
      (s.table.primaryIndex.isSome → KeyReadable s.table.schema) := by
  have hg := Grown.new hs.layout hi hfit
  obtain ⟨s, hrun, hgrown, hschema, hprimary, hlive⟩ := hg.run hv
  have hbytes : s.live.map s.bytes = (ops.filterMap Op.inserted).reverse :=
    hlive.trans (List.append_nil _)
  refine ⟨s, hrun, hbytes, hgrown, ?_, ?_⟩
  · -- the first operation of the run has inserted a record
    intro hnil
    obtain ⟨op, rest, rfl⟩ := List.exists_cons_of_ne_nil hne
    obtain ⟨data, hdata⟩ := Option.isSome_iff_exists.mp hv.1.1
    rw [hnil, List.filterMap_cons, hdata] at hbytes
    simp at hbytes
  · intro hsome
    rw [hschema]
    rw [hprimary] at hsome
    exact keyReadable_of_sizes hs.layout (hg.good.sound.primaryIndex.mp hsome) hsizes

/-- Where the multi-indexes change the order of equal keys as they like along the run, the selections
still answer exactly which of the inserted records match. -/
theorem RunsReordered.selectsExact {schema : Schema} (hs : schema.Built)
    (hsizes : ∀ c ∈ schema.columns, 1 ≤ c.columnSize)
    (hfit : schema.getSchemaSize + kRecordHeaderSize ≤ kBlockSize) {indexes : List (List ℕ)}
    (hi : ∀ cols ∈ indexes, schema.ValidColumns cols) {ops : List Op} (hne : ops ≠ [])
    (hv : Meets Session.step Inserts (Session.new schema indexes) ops) {u : Session}
    (h : RunsReordered (Session.new schema indexes) ops u) :
    u.live.map u.bytes = (ops.filterMap Op.inserted).reverse ∧ u.SelectsExact := by
  obtain ⟨s, hrun, hbytes, hgrown, hlive, hread⟩ := grown_of_inserts hs hsizes hfit hi hne hv
  obtain ⟨t, hrun', hsame⟩ := h.run (.refl _)
  cases hrun.symm.trans hrun'
  have hread' : u.table.primaryIndex.isSome → KeyReadable u.table.schema := by
    rw [hsame.1.schema_eq, hsame.1.primaryIndex_eq]
    exact hread
  exact ⟨hsame.map_bytes.trans hbytes,
    (hgrown.sameEntries hsame).selectsExact (hsame.2 ▸ hlive) hread'⟩

/-- After every run of at least one insertion, with keys repeated or not, of records that fit a
block, the live records are the inserted ones and every selection answers exactly which of them
match, on whichever path it goes. -/
theorem selectsExact_of_inserts {schema : Schema} (hs : schema.Built)
    (hsizes : ∀ c ∈ schema.columns, 1 ≤ c.columnSize)
    (hfit : schema.getSchemaSize + kRecordHeaderSize ≤ kBlockSize) {indexes : List (List ℕ)}
    (hi : ∀ cols ∈ indexes, schema.ValidColumns cols) {ops : List Op} (hne : ops ≠ [])
    (hv : Meets Session.step Inserts (Session.new schema indexes) ops) :
    ∃ s, run Session.step (Session.new schema indexes) ops = some s ∧
      s.live.map s.bytes = (ops.filterMap Op.inserted).reverse ∧ s.SelectsExact := by
  obtain ⟨s, hrun, hbytes, hgrown, hlive, hread⟩ := grown_of_inserts hs hsizes hfit hi hne hv
  exact ⟨s, hrun, hbytes, hgrown.selectsExact hlive hread⟩

/-- Two records of key 1 and one of key 2, with an index on the group. -/
theorem selectsExact_of_inserts_repeatedKey :
    ∃ s, run Session.step (Session.new groupSchema [[1]])
        [.insertRecord [1, 7], .insertRecord [1, 8], .insertRecordOf groupSchema [2, 7]] = some s ∧
      s.live.map s.bytes = [[2, 7], [1, 8], [1, 7]] ∧ s.SelectsExact :=
  selectsExact_of_inserts groupSchema_built (by decide) (by decide) (by decide) (by decide)
    (by decide)

/-- One column as large as a block, which leaves no room for a header. -/
def blockSchema : Schema :=
  ⟨[⟨"data", .varchar, kBlockSize, 0, false⟩], 1, kBlockSize, 0, 0, [], []⟩

private theorem blockSchema_built : blockSchema.Built :=
  .insertColumn ⟨"data", .varchar, kBlockSize, 0, false⟩ .empty rfl

/-- A record of that table, of zeros. -/
def blockRecord : Op := .insertRecord (List.replicate kBlockSize 0)

/-- The first record of the table is written behind a block of no slots. -/
theorem blockRecord_not_selected : blockSchema.Built ∧
    (∀ c ∈ blockSchema.columns, 1 ≤ c.columnSize) ∧
    Meets Session.step Inserts (Session.new blockSchema []) [blockRecord] ∧
    ¬ ∃ s, run Session.step (Session.new blockSchema []) [blockRecord] = some s ∧
      s.live.map s.bytes = ([blockRecord].filterMap Op.inserted).reverse ∧ s.SelectsExact := by
  have hunfit : ¬ (Session.new blockSchema []).Fits :=
    show ¬ blockSchema.getSchemaSize + kRecordHeaderSize ≤ kBlockSize by decide
  refine ⟨blockSchema_built, by decide, ⟨⟨rfl, ?_⟩, fun _ _ => trivial⟩, ?_⟩
  · exact List.length_replicate
  · rintro ⟨s, hrun, -⟩
    rw [run, step_unfit hunfit rfl] at hrun
    cases hrun

end Session
end ImdbD.StorageEngine
