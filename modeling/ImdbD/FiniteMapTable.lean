import ImdbD.PrimaryKeyEnforcement
import Mathlib.Data.Finmap

/-!
# A table with a primary index is a finite map

The abstract machine keeps a finite map from primary keys to record bytes and
the keys of the client's live records. It takes the same calls as a session and
refuses the ones a client must not make. A session follows it step by step, and
in every state reached the selections, the size and the iterator of the table
say what the map says.
-/
namespace ImdbD.StorageEngine
open ByteMemory GuardedRun

/-- `keys` lists the primary keys of the live records, the latest first. -/
structure MapState where
  keys : List Bytes
  map : Finmap (fun _ : Bytes => Bytes)

namespace MapState

def empty : MapState := ⟨[], ∅⟩

/-- Insert a record whose key is not in the map. -/
def insert (schema : Schema) (m : MapState) (data : Bytes) : Option MapState :=
  if data.length = schema.getSchemaSize ∧ schema.getPrimaryKeySymbol data ∉ m.map then
    some ⟨schema.getPrimaryKeySymbol data :: m.keys,
      m.map.insert (schema.getPrimaryKeySymbol data) data⟩
  else none

/-- Write columns outside the primary key of the record with a given key. -/
def update (schema : Schema) (m : MapState) (key : Bytes) (params : ColumnPredicates) :
    Option MapState :=
  if params.Valid schema ∧ ∀ id ∈ params.columnIds, id ∉ schema.primaryCols then
    (m.map.lookup key).map
      (fun data => ⟨m.keys, m.map.insert key (schema.setColumns data params.entries)⟩)
  else none

def step (schema : Schema) (m : MapState) (op : Op) : Option MapState :=
  match op with
  | .insertRecord data => m.insert schema data
  | .insertRecordOf recordSchema data =>
    if recordSchema = schema then m.insert schema data else none
  | .deleteRecord i => m.keys[i]?.map (fun key => ⟨m.keys.eraseIdx i, m.map.erase key⟩)
  | op => (op.target m.keys).bind (fun r => m.update schema r.1 r.2)

end MapState

private theorem Op.target_map {α β : Type*} (f : α → β) (live : List α) (op : Op) :
    op.target (live.map f) = (op.target live).map (fun r => (f r.1, r.2)) := by
  have hm : ∀ is : List ℕ, is.mapM (fun i => (live.map f)[i]?) =
      (is.mapM (fun i => live[i]?)).map (List.map f) := by
    intro is
    induction is with
    | nil => rfl
    | cons i is ih =>
      rw [List.mapM_cons, List.mapM_cons, ih, List.getElem?_map]
      cases live[i]? with
      | none => rfl
      | some a => cases is.mapM (fun i => live[i]?) <;> rfl
  cases op with
  | insertRecord | insertRecordOf | deleteRecord => rfl
  | updateRecordColumn i param | updateRecordColumns i params =>
    simp [target, Function.comp_def]
  | updateRecordsColumn is recordId param | updateRecordsColumns is recordId params =>
    simp only [target, hm]
    cases is.mapM (fun i => live[i]?) with
    | none => rfl
    | some ps => simp [Function.comp_def]

namespace Session
variable {s s' : Session} {m m' : MapState} {schema : Schema} {p : Ptr} {i : ℕ} {data : Bytes}
  {params : ColumnPredicates}

/-- A session and the map that its table stands for. -/
structure Refines (schema : Schema) (s : Session) (m : MapState) : Prop where
  good : Good s
  schema_eq : s.table.schema = schema
  indexed : s.table.primaryIndex.isSome
  distinct : s.DistinctKeys
  exact : s.PrimaryExact
  keys : m.keys = s.live.map s.primaryKey
  bytes : ∀ p ∈ s.live, m.map.lookup (s.primaryKey p) = some (s.bytes p)
  only : ∀ key ∈ m.map, ∃ p ∈ s.live, s.primaryKey p = key

private theorem Refines.absent (h : Refines schema s m) {key : Bytes} (hk : key ∉ m.map) :
    ∀ p ∈ s.live, s.primaryKey p ≠ key := by
  rintro p hp rfl
  exact hk (Finmap.mem_of_lookup_eq_some (h.bytes p hp))

private theorem Refines.insert (h : Refines schema s m) (hm : m.insert schema data = some m') :
    ∃ s', s.step (.insertRecord data) = some s' ∧ Refines schema s' m' ∧
      s'.table.base.blocks.length ≠ 0 := by
  unfold MapState.insert at hm
  split at hm
  · rename_i hc
    cases hm
    obtain ⟨hd, hk⟩ := hc
    obtain ⟨p, s', hstep, hi⟩ := step_insertRecord h.good (h.schema_eq ▸ hd)
    have hnew : ∀ q ∈ s.live, s.primaryKey q ≠ s.table.schema.getPrimaryKeySymbol data := by
      rw [h.schema_eq]
      exact h.absent hk
    have hkey : s'.primaryKey p = schema.getPrimaryKeySymbol data := by
      rw [hi.primaryKey_new, h.schema_eq]
    refine ⟨s', hstep, ⟨hi.good, hi.frame.schema.trans h.schema_eq,
      hi.frame.primaryIndex ▸ h.indexed, hi.distinctKeys h.distinct hnew,
      hi.primaryExact h.exact hnew, ?_, ?_, ?_⟩, hi.blocks⟩
    · rw [hi.live, List.map_cons, hkey, h.keys]
      exact congrArg (_ :: ·) (List.map_congr_left (fun q hq => (hi.primaryKey_old hq).symm))
    · intro q hq
      rw [hi.live] at hq
      rcases List.mem_cons.mp hq with rfl | hq'
      · rw [hkey, Finmap.lookup_insert, hi.bytes]
      · rw [hi.primaryKey_old hq', hi.kept q hq', Finmap.lookup_insert_of_ne, h.bytes q hq']
        rw [← h.schema_eq]
        exact hnew q hq'
    · intro key hmem
      rw [hi.live]
      rcases Finmap.mem_insert.mp hmem with rfl | hold
      · exact ⟨p, List.mem_cons_self, hkey⟩
      · obtain ⟨q, hq, hqk⟩ := h.only key hold
        exact ⟨q, List.mem_cons_of_mem _ hq, (hi.primaryKey_old hq).trans hqk⟩
  · cases hm

private theorem Refines.delete (h : Refines schema s m) {key : Bytes}
    (hk : m.keys[i]? = some key) : ∃ s', s.step (.deleteRecord i) = some s' ∧
      Refines schema s' ⟨m.keys.eraseIdx i, m.map.erase key⟩ ∧
      s'.table.base.blocks.length = s.table.base.blocks.length := by
  rw [h.keys, List.getElem?_map, Option.map_eq_some_iff] at hk
  obtain ⟨p, hp, rfl⟩ := hk
  obtain ⟨s', hstep, hd⟩ := step_deleteRecord h.good hp
  have hne : ∀ q ∈ s'.live, q ∈ s.live ∧ s.primaryKey q ≠ s.primaryKey p := by
    intro q hq
    obtain ⟨hqp, hq'⟩ := (hd.mem_iff h.good).mp hq
    exact ⟨hq', fun he => hqp (h.distinct q hq' p hd.mem_live he)⟩
  refine ⟨s', hstep, ⟨hd.good, hd.frame.schema.trans h.schema_eq,
    hd.frame.primaryIndex ▸ h.indexed, hd.distinctKeys h.distinct,
    hd.primaryExact h.good h.distinct h.exact, ?_, ?_, ?_⟩, hd.blocks⟩
  · change m.keys.eraseIdx i = _
    rw [h.keys, List.eraseIdx_map, ← hd.live]
    exact List.map_congr_left (fun q hq => (hd.primaryKey (hne q hq).1).symm)
  · intro q hq
    obtain ⟨hq', hkey⟩ := hne q hq
    rw [hd.primaryKey hq', hd.kept q hq', Finmap.lookup_erase_ne hkey, h.bytes q hq']
  · intro key hmem
    obtain ⟨hkey, hold⟩ := Finmap.mem_erase.mp hmem
    obtain ⟨q, hq, rfl⟩ := h.only key hold
    exact ⟨q, (hd.mem_iff h.good).mpr ⟨fun he => hkey (he ▸ rfl), hq⟩, hd.primaryKey hq⟩

/-- Writing outside the primary columns keeps the primary key. -/
theorem updatedKey_of_outside (h : Good s) (hk : KeyReadable s.table.schema) (hp : p ∈ s.live)
    (hv : params.Valid s.table.schema)
    (hout : ∀ id ∈ params.columnIds, id ∉ s.table.schema.primaryCols) :
    s.updatedKey p params = s.primaryKey p := by
  have hl := h.sound.layout
  have hd := h.bytes_length hp
  rw [updatedKey, primaryKey, hk.getPrimaryKeySymbol_eq hl (hl.setColumns_length hd hv),
    hk.getPrimaryKeySymbol_eq hl hd]
  exact hl.getKeySymbol_setColumns hd hv (fun _ => hl.primary_lt) hout

private theorem Refines.update (h : Refines schema s m) (hk : KeyReadable schema) {op : Op}
    (hins : s.updateTarget op = some (p, params))
    (hm : m.update schema (s.primaryKey p) params = some m') :
    ∃ s', s.step op = some s' ∧ Refines schema s' m' ∧
      s'.table.base.blocks.length = s.table.base.blocks.length := by
  have hp := updateTarget_mem hins
  unfold MapState.update at hm
  split at hm
  · rename_i hc
    obtain ⟨hv, hout⟩ := hc
    rw [h.bytes p hp, Option.map_some] at hm
    cases hm
    rw [← h.schema_eq] at hv hout hk
    obtain ⟨s', hstep, hu⟩ := step_updated h.good hins hv
    have hkey := updatedKey_of_outside h.good hk hp hv hout
    have hkeys : ∀ q ∈ s.live, s'.primaryKey q = s.primaryKey q := by
      intro q hq
      by_cases hqp : q = p
      · rw [hqp, hu.primaryKey_self, hkey]
      · exact hu.primaryKey_ne hq hqp
    have hdist : ∀ q ∈ s.live, q ≠ p → s.primaryKey q ≠ s.primaryKey p :=
      fun q hq hqp he => hqp (h.distinct q hq p hp he)
    refine ⟨s', hstep, ⟨hu.good, hu.frame.schema.trans h.schema_eq,
      hu.frame.primaryIndex ▸ h.indexed,
      hu.distinctKeys h.distinct (fun q hq hqp => hkey ▸ hdist q hq hqp),
      hu.primaryExact h.exact hkey, ?_, ?_, ?_⟩, hu.blocks⟩
    · change m.keys = _
      rw [h.keys, hu.live]
      exact List.map_congr_left (fun q hq => (hkeys q hq).symm)
    · intro q hq
      rw [hu.live] at hq
      rw [hkeys q hq]
      by_cases hqp : q = p
      · rw [hqp, Finmap.lookup_insert, hu.bytes, h.schema_eq]
      · rw [Finmap.lookup_insert_of_ne _ (hdist q hq hqp), hu.kept q hq hqp, h.bytes q hq]
    · intro key hmem
      rw [hu.live]
      rcases Finmap.mem_insert.mp hmem with rfl | hold
      · exact ⟨p, hp, hkeys p hp⟩
      · obtain ⟨q, hq, hqk⟩ := h.only key hold
        exact ⟨q, hq, (hkeys q hq).trans hqk⟩
  · cases hm

/-- One call keeps session and map together. Blocks come with the first insertion and stay. -/
theorem Refines.step (h : Refines schema s m) (hk : KeyReadable schema) {op : Op}
    (hm : m.step schema op = some m') : ∃ s', s.step op = some s' ∧ Refines schema s' m' ∧
      (op.inserted.isSome ∨ s.table.base.blocks.length ≠ 0 →
        s'.table.base.blocks.length ≠ 0) := by
  have hinsert : ∀ data, m.insert schema data = some m' → ∃ s',
      s.step (.insertRecord data) = some s' ∧ Refines schema s' m' ∧
        (True ∨ s.table.base.blocks.length ≠ 0 → s'.table.base.blocks.length ≠ 0) := by
    intro data hi
    obtain ⟨s', hstep, hr, hb⟩ := h.insert hi
    exact ⟨s', hstep, hr, fun _ => hb⟩
  have hupdate : ∀ op : Op, (op.target m.keys).bind (fun r => m.update schema r.1 r.2) = some m' →
      ∃ s', s.step op = some s' ∧ Refines schema s' m' ∧
        (False ∨ s.table.base.blocks.length ≠ 0 → s'.table.base.blocks.length ≠ 0) := by
    intro op ho
    rw [h.keys, Op.target_map] at ho
    obtain ⟨r, hr, hupd⟩ := Option.bind_eq_some_iff.mp ho
    obtain ⟨r', hr', rfl⟩ := Option.map_eq_some_iff.mp hr
    obtain ⟨s', hstep, href, hb⟩ := h.update hk hr' hupd
    exact ⟨s', hstep, href, fun hne => hb ▸ hne.resolve_left id⟩
  cases op with
  | insertRecord data => simpa [Op.inserted] using hinsert data hm
  | insertRecordOf recordSchema data =>
    simp only [MapState.step] at hm
    split at hm
    · rename_i he
      rw [he.trans h.schema_eq.symm, step_insertRecordOf]
      simpa [Op.inserted] using hinsert data hm
    · cases hm
  | deleteRecord i =>
    obtain ⟨key, hkey, he⟩ := Option.map_eq_some_iff.mp hm
    cases he
    obtain ⟨s', hstep, hr, hb⟩ := h.delete hkey
    exact ⟨s', hstep, hr, fun hne => hb ▸ hne.resolve_left (by simp [Op.inserted])⟩
  | updateRecordColumn i param => simpa [Op.inserted] using hupdate _ hm
  | updateRecordColumns i params => simpa [Op.inserted] using hupdate _ hm
  | updateRecordsColumn is recordId param => simpa [Op.inserted] using hupdate _ hm
  | updateRecordsColumns is recordId params => simpa [Op.inserted] using hupdate _ hm

/-- Everything that the table shows is what the map says. A predicate over the primary columns is
looked up under the key that its values spell in schema order. -/
structure Represents (s : Session) (m : MapState) : Prop where
  selectRecordKey : ∀ key, (s.table.selectRecordKey key).map (Option.map s.table.base.recordAt) =
    some (m.map.lookup key)
  selectRecordColumns : ∀ params ordered : ColumnPredicates, params.Valid s.table.schema →
    ordered.entries.Perm params.entries → ordered.columnIds = s.table.schema.primaryCols →
    (params.columnIds = s.table.schema.primaryCols ∨
      s.table.secondaryIndex params.getPredicateColumnSymbol = none) →
    (s.table.selectRecordColumns params).map (Option.map s.table.base.recordAt) =
      some (m.map.lookup (ordered.getPredicateDataSymbol s.table.schema))
  selectRecordColumn : ∀ param : ColumnPredicate, param.toPredicates.Valid s.table.schema →
    s.table.schema.primaryCols = [param.columnId] →
    (s.table.selectRecordColumn param).map (Option.map s.table.base.recordAt) =
      some (m.map.lookup (param.toPredicates.getPredicateDataSymbol s.table.schema))
  getTableSize : s.table.getTableSize = m.map.keys.card
  iterate : ∃ ptrs, s.table.iterate = some ptrs ∧ ptrs.Nodup ∧
    ((ptrs.map (fun a => (⟨s.table.schema.getPrimaryKeySymbol (s.table.base.recordAt a),
      s.table.base.recordAt a⟩ : Σ _ : Bytes, Bytes)) : List _) : Multiset _) = m.map.entries

private theorem Refines.lookup_none (h : Refines schema s m) {key : Bytes}
    (hk : ∀ p ∈ s.live, s.primaryKey p ≠ key) : m.map.lookup key = none := by
  rw [Finmap.lookup_eq_none]
  intro hm
  obtain ⟨p, hp, he⟩ := h.only key hm
  exact hk p hp he

private theorem Refines.lookup_found (h : Refines schema s m) (hk : KeyReadable schema)
    {ordered : ColumnPredicates} (hv : params.Valid s.table.schema)
    (hperm : ordered.entries.Perm params.entries)
    (hcols : ordered.columnIds = s.table.schema.primaryCols) {r : Option Ptr}
    (hr : s.FoundOne params r) : r.map s.table.base.recordAt =
      m.map.lookup (ordered.getPredicateDataSymbol s.table.schema) := by
  rw [← h.schema_eq] at hk
  have hv' : ordered.Valid s.table.schema := fun e he => hv e (hperm.mem_iff.mp he)
  have hmatch : ∀ data, ordered.Matches s.table.schema data ↔ params.Matches s.table.schema data :=
    fun data => ⟨fun hm e he => hm e (hperm.mem_iff.mpr he),
      fun hm e he => hm e (hperm.mem_iff.mp he)⟩
  cases r with
  | some a =>
    obtain ⟨p, hp, hm, rfl⟩ := mem_matching.mp hr
    rw [← (h.good.primaryKey_eq_iff hk hv' hcols hp).mpr ((hmatch _).mpr hm), h.bytes p hp]
    rfl
  | none =>
    rw [h.lookup_none]
    · rfl
    · intro p hp he
      have hm := mem_matching.mpr
        ⟨p, hp, (hmatch _).mp ((h.good.primaryKey_eq_iff hk hv' hcols hp).mp he), rfl⟩
      rw [show s.matching params = [] from hr] at hm
      cases hm

private theorem Refines.entries (h : Refines schema s m) :
    (((s.live.map (fun p => (⟨s.primaryKey p, s.bytes p⟩ : Σ _ : Bytes, Bytes))) : List _) :
      Multiset _) = m.map.entries := by
  have hkeys : (s.live.map s.primaryKey).Nodup :=
    (List.nodup_map_iff_inj_on h.good.heap.nodup).mpr (fun p hp q hq he => h.distinct p hp q hq he)
  have hnodup : (s.live.map (fun p => (⟨s.primaryKey p, s.bytes p⟩ : Σ _ : Bytes, Bytes))).Nodup := by
    apply List.Nodup.of_map Sigma.fst
    simpa [Function.comp_def] using hkeys
  apply (Multiset.Nodup.ext (Multiset.coe_nodup.mpr hnodup) m.map.nodup_entries).mpr
  rintro ⟨key, value⟩
  rw [Multiset.mem_coe, List.mem_map, ← Finmap.lookup_eq_some_iff]
  constructor
  · rintro ⟨p, hp, he⟩
    cases he
    exact h.bytes p hp
  · intro hl
    obtain ⟨p, hp, rfl⟩ := h.only key (Finmap.mem_of_lookup_eq_some hl)
    rw [h.bytes p hp] at hl
    cases hl
    exact ⟨p, hp, rfl⟩

theorem Refines.represents (h : Refines schema s m) (hk : KeyReadable schema)
    (hb : s.table.base.blocks.length ≠ 0) : Represents s m where
  selectRecordKey key := by
    obtain ⟨index, hindex⟩ := Option.isSome_iff_exists.mp h.indexed
    rw [SchemaTable.selectRecordKey, hindex, Option.map_some, Option.map_some, Option.some_inj]
    cases hr : index.searchRecord key with
    | some a =>
      obtain ⟨p, hp, rfl, rfl⟩ := (h.exact index hindex key a).mp hr
      exact (h.bytes p hp).symm
    | none =>
      rw [h.lookup_none]
      · rfl
      · intro p hp he
        have hsome := (h.exact index hindex key _).mpr ⟨p, hp, he, rfl⟩
        rw [hr] at hsome
        cases hsome
  selectRecordColumns params ordered hv hperm hcols hpath := by
    have hread : KeyReadable s.table.schema := h.schema_eq ▸ hk
    by_cases hsym : params.columnIds = s.table.schema.primaryCols
    · obtain ⟨r, hr, hf⟩ := h.exact.found h.good h.indexed hread hv hsym
      rw [hr, Option.map_some, h.lookup_found hk hv hperm hcols hf]
    · obtain ⟨r, hr, hf⟩ := scanRecord_found h.good hb hv
      have hother : params.getPredicateColumnSymbol ≠ s.table.primarySymbol :=
        fun he => hsym ((h.good.sound.primarySymbol_iff h.indexed hv).mp he)
      rw [SchemaTable.selectRecordColumns, if_neg hother, hpath.resolve_left hsym]
      simp only [hr, Option.map_some]
      rw [h.lookup_found hk hv hperm hcols hf]
  selectRecordColumn param hv hcols := by
    have hread : KeyReadable s.table.schema := h.schema_eq ▸ hk
    obtain ⟨r, hr, hf⟩ := h.exact.found h.good h.indexed hread hv hcols.symm
    rw [SchemaTable.selectRecordColumn, hr, Option.map_some,
      h.lookup_found hk hv (List.Perm.refl _) hcols.symm hf]
  getTableSize := by
    rw [SchemaTable.getTableSize, h.good.heap.getTableSize, Finmap.keys, Finset.card_mk,
      Multiset.keys, Multiset.card_map, ← h.entries, Multiset.coe_card, List.length_map]
  iterate := by
    refine ⟨_, SchemaTable.iterate_eq h.good.heap hb, ?_, ?_⟩
    · exact h.good.heap.recordPtrs.nodup_iff.mpr
        (h.good.heap.nodup.map (Ptr.add_injective kRecordHeaderSize))
    · rw [← h.entries]
      apply Multiset.coe_eq_coe.mpr
      refine (h.good.heap.recordPtrs.map _).trans ?_
      rw [List.map_map]
      exact List.Perm.refl _

private theorem refines_new (hs : schema.Layout) (hp : schema.primaryColNum ≠ 0)
    {indexes : List (List ℕ)} (hi : ∀ cols ∈ indexes, schema.ValidColumns cols)
    (hfit : schema.getSchemaSize + kRecordHeaderSize ≤ kBlockSize) :
    Refines schema (Session.new schema indexes) MapState.empty where
  good := Good.new hs hi hfit
  schema_eq := rfl
  indexed := (Sound.new hs hi).primaryIndex.mpr hp
  distinct := distinctKeys_new schema indexes
  exact := primaryExact_new schema indexes
  keys := rfl
  bytes p hp := by cases hp
  only key hk := absurd hk Finmap.notMem_empty

/-- Every run of calls that the map machine accepts, starting with an insertion, succeeds on the
table, and in the end the table represents the map. -/
theorem refines_finiteMap {schema : Schema} (hs : schema.Built) (hp : schema.primaryColNum ≠ 0)
    (hsizes : ∀ c ∈ schema.columns, 1 ≤ c.columnSize)
    (hfit : schema.getSchemaSize + kRecordHeaderSize ≤ kBlockSize) {indexes : List (List ℕ)}
    (hi : ∀ cols ∈ indexes, schema.ValidColumns cols) {op : Op} {ops : List Op} {m : MapState}
    (hop : op.inserted.isSome)
    (hm : run (MapState.step schema) MapState.empty (op :: ops) = some m) :
    ∃ s, run Session.step (Session.new schema indexes) (op :: ops) = some s ∧ Represents s m := by
  have hk := keyReadable_of_sizes hs.layout hp hsizes
  obtain ⟨m₁, hm₁, hrest⟩ := Option.bind_eq_some_iff.mp hm
  obtain ⟨s₁, hs₁, hr₁, hb₁⟩ := (refines_new hs.layout hp hi hfit).step hk hm₁
  -- from the first insertion on there is a block, and the relation includes that
  have hstep : ∀ (s : Session) (m : MapState) (op : Op) (m' : MapState),
      Refines schema s m ∧ s.table.base.blocks.length ≠ 0 → m.step schema op = some m' →
      ∃ s', s.step op = some s' ∧ Refines schema s' m' ∧ s'.table.base.blocks.length ≠ 0 := by
    rintro s m op m' ⟨hr, hb⟩ hm
    obtain ⟨s', hs', hr', hb'⟩ := hr.step hk hm
    exact ⟨s', hs', hr', hb' (Or.inr hb)⟩
  obtain ⟨s, hrun, hr, hb⟩ := run_simulates hstep ⟨hr₁, hb₁ (Or.inl hop)⟩ hrest
  exact ⟨s, by rw [run, hs₁, Option.bind_some, hrun], hr.represents hk hb⟩

/-- An insertion, a second one, an update of the group and a deletion. -/
theorem refines_finiteMap_group : ∃ s, run Session.step (Session.new groupSchema [])
    [.insertRecord [1, 7], .insertRecord [2, 7], .updateRecordColumn 0 ⟨1, [8]⟩, .deleteRecord 1] =
      some s ∧ Represents s ⟨[[2]], Finmap.singleton [2] [2, 8]⟩ :=
  refines_finiteMap groupSchema_built (by decide) (by decide) (by decide) (by decide) rfl
    (by rfl)

end Session
end ImdbD.StorageEngine
