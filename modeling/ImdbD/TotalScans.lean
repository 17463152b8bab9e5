import ImdbD.SelectPaths

/-!
# Scans from any state of a table

Once a table has had a record it has a block, which deletions leave it. From then
on a loop over the iterator ends, stays inside the blocks and meets every live
record once, also when no record is left or when the last block is full. Before
that, `getIterator` reads the first element of an empty vector.
-/
namespace ImdbD.StorageEngine
open ByteMemory GuardedRun
namespace Session
variable {s s' : Session} {p : Ptr} {data : Bytes} {params : ColumnPredicates}

/-- The addresses of the live records. -/
def addresses (s : Session) : List Ptr := s.live.map (fun p => p.add kRecordHeaderSize)

/-- A loop over a fresh iterator runs its body over the live records, each once, until the body
returns; so do the scan branches of `selectRecord` and `selectRecords`. -/
structure ScansTotal (s : Session) : Prop where
  loop : ∃ ps, ps.Perm s.addresses ∧ ∀ (α : Type) (body : α → Ptr → α × Bool) (acc : α),
    s.table.base.getIterator.bind (TableIterator.whileNext s.table.base body acc) =
      some (TableIterator.foldUntil body acc ps)
  iterate : ∃ ps, s.table.iterate = some ps ∧ ps.Perm s.addresses
  scanRecord : ∀ params : ColumnPredicates, params.Valid s.table.schema →
    ∃ r, s.table.scanRecord params = some r ∧ s.FoundOne params r
  scanRecords : ∀ params : ColumnPredicates, params.Valid s.table.schema →
    ∃ r, s.table.scanRecords params = some r ∧ r.dataPtrs.Perm (s.matching params)

private theorem Good.scansTotal (h : Good s) (hb : s.table.base.blocks.length ≠ 0) : s.ScansTotal where
  loop := ⟨_, h.heap.recordPtrs, fun _ body acc =>
    TableIterator.whileNext_getIterator h.heap.grid hb body acc⟩
  iterate := ⟨_, SchemaTable.iterate_eq h.heap hb, h.heap.recordPtrs⟩
  scanRecord _ hp := scanRecord_found h hb hp
  scanRecords _ hp := scanRecords_found h hb hp

/-- A table that never had a record has no block to start in. -/
theorem new_not_scansTotal (schema : Schema) (indexes : List (List ℕ)) :
    ¬ (Session.new schema indexes).ScansTotal := by
  intro h
  obtain ⟨ps, hps, -⟩ := h.iterate
  cases hps

/-- Insertions and deletions keep the first block. -/
theorem InsertsDeletes.blocks (hs : Good s) {op : Op} (hv : InsertsDeletes s op) :
    ∃ s', s.step op = some s' ∧ Good s' ∧
      (op.inserted.isSome ∨ s.table.base.blocks.length ≠ 0 → s'.table.base.blocks.length ≠ 0) := by
  rcases hv.step hs with ⟨data, p, s', -, hstep, hi⟩ | ⟨i, p, s', rfl, hstep, hd⟩
  · exact ⟨s', hstep, hi.good, fun _ => hi.blocks⟩
  · refine ⟨s', hstep, hd.good, fun h => ?_⟩
    rw [hd.blocks]
    exact h.resolve_left (fun ho => nomatch ho)

private theorem Good.run_blocks (h : Good s) (hb : s.table.base.blocks.length ≠ 0) {ops : List Op}
    (hv : Meets Session.step InsertsDeletes s ops) : ∃ s',
      run Session.step s ops = some s' ∧ Good s' ∧ s'.table.base.blocks.length ≠ 0 := by
  induction ops generalizing s with
  | nil => exact ⟨s, rfl, h, hb⟩
  | cons op ops ih =>
    obtain ⟨t, hstep, hg, hkeep⟩ := hv.1.blocks h
    obtain ⟨s', hrun, hs'⟩ := ih hg (hkeep (Or.inr hb)) (hv.2 t hstep)
    exact ⟨s', by rw [run, hstep, Option.bind_some, hrun], hs'⟩

/-- After a run of insertions and deletions of live records, scans are total if and only if the run
has at least one step and records fit a block. -/
theorem scansTotal_iff {schema : Schema} (hs : schema.Built) {indexes : List (List ℕ)}
    (hi : ∀ cols ∈ indexes, schema.ValidColumns cols) {ops : List Op}
    (hv : Meets Session.step InsertsDeletes (Session.new schema indexes) ops) :
    (∃ s, run Session.step (Session.new schema indexes) ops = some s ∧ s.ScansTotal) ↔
      ops ≠ [] ∧ schema.getSchemaSize + kRecordHeaderSize ≤ kBlockSize := by
  cases ops with
  | nil =>
    refine ⟨?_, fun h => absurd rfl h.1⟩
    rintro ⟨s, hrun, hscan⟩
    cases hrun
    exact absurd hscan (new_not_scansTotal schema indexes)
  | cons op ops =>
    have ho := InsertsDeletes.first hv.1
    constructor
    · rintro ⟨s, hrun, -⟩
      refine ⟨List.cons_ne_nil _ _, ?_⟩
      by_contra hunfit
      rw [run, step_unfit (show ¬ (Session.new schema indexes).Fits from hunfit) ho] at hrun
      cases hrun
    · rintro ⟨-, hfit⟩
      obtain ⟨t, hstep, hg, hkeep⟩ := hv.1.blocks (Good.new hs.layout hi hfit)
      obtain ⟨s, hrun, hgood, hb⟩ := hg.run_blocks (hkeep (Or.inl ho)) (hv.2 t hstep)
      exact ⟨s, by rw [run, hstep, Option.bind_some, hrun], hgood.scansTotal hb⟩

/-- A run after which every record has been deleted again. -/
theorem scansTotal_iff_emptied :
    (∃ s, run Session.step (Session.new groupSchema [[1]])
        [.insertRecord [1, 7], .insertRecord [2, 7], .deleteRecord 1, .deleteRecord 0] = some s ∧
      s.ScansTotal) ↔
    ([.insertRecord [1, 7], .insertRecord [2, 7], .deleteRecord 1, .deleteRecord 0] : List Op) ≠
        [] ∧ groupSchema.getSchemaSize + kRecordHeaderSize ≤ kBlockSize :=
  scansTotal_iff groupSchema_built (by decide) (by decide)

/-- The scan of a table that has had no record. -/
theorem emptyRun_not_scansTotal :
    Meets Session.step InsertsDeletes (Session.new groupSchema [[1]]) [] ∧
      ¬ ∃ s, run Session.step (Session.new groupSchema [[1]]) [] = some s ∧ s.ScansTotal := by
  refine ⟨trivial, ?_⟩
  rintro ⟨s, hrun, hscan⟩
  cases hrun
  exact new_not_scansTotal _ _ hscan

end Session
end ImdbD.StorageEngine
