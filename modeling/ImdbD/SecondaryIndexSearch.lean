import ImdbD.MultimapOrder

/-!
# Secondary indexes under insertions and deletions

A deletion erases the whole group of the record's key from every multi-index.
The searches stay right along a run exactly when no deleted record shares an
indexed key with another live record.
-/
namespace ImdbD.StorageEngine
open ByteMemory GuardedRun
namespace Session

/-- Calls of a client that inserts records and deletes live ones. -/
def InsertsDeletes (s : Session) : Op → Prop
  | .insertRecord data => data.length = s.table.schema.getSchemaSize
  | .insertRecordOf recordSchema data =>
    recordSchema = s.table.schema ∧ data.length = s.table.schema.getSchemaSize
  | .deleteRecord i => i < s.live.length
  | _ => False

instance (s : Session) (op : Op) : Decidable (InsertsDeletes s op) :=
  match op with
  | .insertRecord _ => inferInstanceAs (Decidable (_ = _))
  | .insertRecordOf _ _ => inferInstanceAs (Decidable (_ ∧ _))
  | .deleteRecord _ => inferInstanceAs (Decidable (_ < _))
  | .updateRecordColumn _ _ => isFalse id
  | .updateRecordColumns _ _ => isFalse id
  | .updateRecordsColumn _ _ _ => isFalse id
  | .updateRecordsColumns _ _ _ => isFalse id

theorem InsertsDeletes.first {schema : Schema} {indexes : List (List ℕ)} {op : Op}
    (h : InsertsDeletes (Session.new schema indexes) op) : op.inserted.isSome := by
  cases op with
  | insertRecord | insertRecordOf => rfl
  | deleteRecord i => simp [InsertsDeletes, Session.new] at h
  | _ => exact h.elim

/-- The two kinds of step of such a client. -/
theorem InsertsDeletes.step {s : Session} (hs : Good s) {op : Op} (h : InsertsDeletes s op) :
    (∃ data p s', op.inserted = some data ∧ s.step op = some s' ∧ Inserted s data p s') ∨
      (∃ i p s', op = .deleteRecord i ∧ s.step op = some s' ∧ Deleted s i p s') := by
  cases op with
  | insertRecord data =>
    obtain ⟨p, s', hstep, hi⟩ := step_insertRecord hs h
    exact Or.inl ⟨data, p, s', rfl, hstep, hi⟩
  | insertRecordOf recordSchema data =>
    obtain ⟨rfl, hd⟩ := h
    obtain ⟨p, s', hstep, hi⟩ := step_insertRecord hs hd
    exact Or.inl ⟨data, p, s', rfl, (step_insertRecordOf s data).trans hstep, hi⟩
  | deleteRecord i =>
    obtain ⟨s', hstep, hd⟩ := step_deleteRecord hs (List.getElem?_eq_getElem h)
    exact Or.inr ⟨i, _, s', rfl, hstep, hd⟩
  | _ => exact h.elim

/-- Every search through a multi-index, and every `selectRecords` that goes through one, finds
exactly the live records that it should, each once. -/
structure SecondaryFound (s : Session) : Prop where
  searchRecords : s.SearchExact
  selectRecords : ∀ params : ColumnPredicates, params.Valid s.table.schema →
    (s.table.secondaryIndex params.getPredicateColumnSymbol).isSome →
    ∃ r, s.table.selectRecordsColumns params = some r ∧ r.dataPtrs.Perm (s.matching params)

theorem SearchExact.found {s : Session} (hx : s.SearchExact) (h : Good s) : s.SecondaryFound where
  searchRecords := hx
  selectRecords _ hp hindex := by
    obtain ⟨index, hi⟩ := Option.isSome_iff_exists.mp hindex
    exact hx.selectRecordsColumns h hp hi

/-- An inserted record fits a block; a deleted one is alone with its key in every multi-index. -/
def DeletesAlone (s : Session) (op : Op) : Prop :=
  (op.inserted.isSome → s.Fits) ∧ ∀ i p, op = .deleteRecord i → s.live[i]? = some p → s.KeysAlone p

private theorem secondary_step {s : Session} {op : Op} (hs : Good s ∧ s.SecondaryExact)
    (hv : InsertsDeletes s op) (hc : DeletesAlone s op) :
    ∃ s', s.step op = some s' ∧ s'.SecondaryFound ∧ Good s' ∧ s'.SecondaryExact := by
  obtain ⟨hgood, hx⟩ := hs
  rcases hv.step hgood with ⟨data, p, s', -, hstep, hi⟩ | ⟨i, p, s', rfl, hstep, hd⟩
  · have hx' := hi.secondaryExact hx
    exact ⟨s', hstep, hx'.searchExact.found hi.good, hi.good, hx'⟩
  · have hx' := hd.secondaryExact hgood hx (hc.2 i p rfl hd.at_i)
    exact ⟨s', hstep, hx'.searchExact.found hd.good, hd.good, hx'⟩

private theorem secondary_back {s s' : Session} {op : Op} (hs : Good s ∧ s.SecondaryExact)
    (hv : InsertsDeletes s op) (hstep : s.step op = some s') (hf : s'.SecondaryFound) :
    DeletesAlone s op := by
  refine ⟨fun _ => hs.1.heap.fits, ?_⟩
  rintro i p rfl hp
  rcases hv.step hs.1 with ⟨data, q, s₁, ho, -, -⟩ | ⟨j, q, s₁, he, hstep', hd⟩
  · cases ho
  · cases he
    rw [hstep] at hstep'
    cases hstep'
    rw [hd.at_i] at hp
    cases hp
    exact hd.keysAlone hs.1 hf.searchRecords

/-- Along every run of insertions and deletions, the secondary indexes answer correctly after every
step if and only if a record with its header fits a block and each deleted record was alone with its
keys when it was deleted. -/
theorem secondaryFound_iff {schema : Schema} (hs : schema.Built) {indexes : List (List ℕ)}
    (hi : ∀ cols ∈ indexes, schema.ValidColumns cols) {ops : List Op}
    (hv : Meets Session.step InsertsDeletes (Session.new schema indexes) ops) :
    Holds Session.step (fun _ _ s' => s'.SecondaryFound) (Session.new schema indexes) ops ↔
      Meets Session.step DeletesAlone (Session.new schema indexes) ops := by
  by_cases hfit : (Session.new schema indexes).Fits
  · exact holds_iff_meets (fun s op hinv => secondary_step hinv)
      (fun s op s' hinv => secondary_back hinv)
      ⟨Good.new hs.layout hi hfit, secondaryExact_new schema indexes⟩ hv
  · exact holds_iff_meets_unfit hfit (fun op => InsertsDeletes.first)
      (fun s op ho hc => hc.1 ho) hv

/-- Where the multi-indexes change the order of equal keys as they like along the run, their answers
are still right at its end. -/
theorem RunsReordered.secondaryFound {schema : Schema} (hs : schema.Built)
    {indexes : List (List ℕ)} (hi : ∀ cols ∈ indexes, schema.ValidColumns cols)
    (hfit : (Session.new schema indexes).Fits) {ops : List Op} {u : Session}
    (hv : Meets Session.step InsertsDeletes (Session.new schema indexes) ops)
    (hc : Meets Session.step DeletesAlone (Session.new schema indexes) ops)
    (h : RunsReordered (Session.new schema indexes) ops u) : u.SecondaryFound := by
  have hstep : ∀ s op, Good s ∧ s.SecondaryExact → InsertsDeletes s op ∧ DeletesAlone s op →
      ∃ s', s.step op = some s' ∧ Good s' ∧ s'.SecondaryExact := by
    intro s op hinv hop
    obtain ⟨s', hstep, -, hinv'⟩ := secondary_step hinv hop.1 hop.2
    exact ⟨s', hstep, hinv'⟩
  obtain ⟨s, hrun, hgood, hx⟩ := (hv.and hc).run_keeps hstep
    ⟨Good.new hs.layout hi hfit, secondaryExact_new schema indexes⟩
  obtain ⟨t, hrun', hsame⟩ := h.run (.refl _)
  cases hrun.symm.trans hrun'
  exact (hsame.secondaryExact hx).searchExact.found (hsame.good hgood)

/-- A one-byte key column and a one-byte group column. -/
def groupSchema : Schema :=
  ⟨[⟨"key", .int8, 1, 0, true⟩, ⟨"group", .int8, 1, 1, false⟩], 2, 2, 1, 1, [0], [1]⟩

theorem groupSchema_built : groupSchema.Built :=
  .insertColumn ⟨"group", .int8, 1, 0, false⟩
    (.insertColumn ⟨"key", .int8, 1, 0, true⟩ .empty rfl) rfl

/-- Two records of one group, of which the second is deleted again. -/
def deleteOfTwo : List Op := [.insertRecord [1, 7], .insertRecord [2, 7], .deleteRecord 0]

/-- After the deletion the record that is left is not found under its group. -/
theorem deleteOfTwo_not_found :
    Meets Session.step InsertsDeletes (Session.new groupSchema [[1]]) deleteOfTwo ∧
      ¬ Holds Session.step (fun _ _ s' => s'.SecondaryFound) (Session.new groupSchema [[1]])
        deleteOfTwo := by
  refine ⟨by decide, fun h => ?_⟩
  obtain ⟨-, s', -, hrun, hfound⟩ := Holds.last
    (show Holds _ _ _
      ([Op.insertRecord [1, 7], Op.insertRecord [2, 7]] ++ [Op.deleteRecord 0]) from h)
  have hcount : s'.table.secondaryIndexes.all (fun e => (e.2.searchRecords [7]).length ==
      (s'.live.filter (fun p => s'.secondaryKey e.1 p = [7])).length) = true := by
    rw [List.all_eq_true]
    intro e he
    simpa using (hfound.searchRecords e he [7]).length_eq
  have heval : (run Session.step (Session.new groupSchema [[1]]) deleteOfTwo).map
      (fun s => s.table.secondaryIndexes.all (fun e => (e.2.searchRecords [7]).length ==
        (s.live.filter (fun p => s.secondaryKey e.1 p = [7])).length)) = some false := by decide
  rw [show run Session.step (Session.new groupSchema [[1]]) deleteOfTwo = some s' from hrun,
    Option.map_some, hcount] at heval
  cases heval

/-- A run that meets the condition: the group is emptied one record at a time, with a record of
another group left. -/
theorem secondaryFound_iff_alone : Holds Session.step (fun _ _ s' => s'.SecondaryFound)
    (Session.new groupSchema [[1]])
    [.insertRecord [1, 7], .insertRecord [2, 8], .deleteRecord 0] ↔
      Meets Session.step DeletesAlone (Session.new groupSchema [[1]])
        [.insertRecord [1, 7], .insertRecord [2, 8], .deleteRecord 0] :=
  secondaryFound_iff groupSchema_built (by decide) (by decide)

end Session
end ImdbD.StorageEngine
