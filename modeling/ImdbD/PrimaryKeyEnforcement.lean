import ImdbD.SecondaryIndexSearch

/-!
# Insertions of a key that is already live

The base table takes every record and the unique index keeps the entry it has,
so a second record of one key is stored but never found. Along a run of
insertions and deletions the primary key is enforced exactly when no insertion
carries a live key.
-/
namespace ImdbD.StorageEngine
open ByteMemory GuardedRun
namespace Session
variable {s s' : Session} {p : Ptr} {data : Bytes}

/-- Some live record has the primary key of `data`. -/
def KeyLive (s : Session) (data : Bytes) : Prop :=
  ∃ p ∈ s.live, s.primaryKey p = s.table.schema.getPrimaryKeySymbol data

/-- What enforcing the primary key asks of one operation. -/
structure Enforced (s : Session) (op : Op) (s' : Session) : Prop where
  distinct : s'.DistinctKeys
  refused : ∀ data, op.inserted = some data → s.KeyLive data → s'.table = s.table
  found : ∀ p ∈ s'.live,
    s'.table.selectRecordKey (s'.primaryKey p) = some (some (p.add kRecordHeaderSize))

/-- An inserted record fits a block and its key is not live. -/
def InsertsFresh (s : Session) (op : Op) : Prop :=
  ∀ data, op.inserted = some data → s.Fits ∧ ¬ s.KeyLive data

/-- Each live record is found under its own key. -/
theorem PrimaryExact.selectRecordKey (hx : s.PrimaryExact) (hi : s.table.primaryIndex.isSome)
    (hp : p ∈ s.live) :
    s.table.selectRecordKey (s.primaryKey p) = some (some (p.add kRecordHeaderSize)) := by
  obtain ⟨index, hindex⟩ := Option.isSome_iff_exists.mp hi
  rw [SchemaTable.selectRecordKey, hindex, Option.map_some]
  exact congrArg some ((hx index hindex _ _).mpr ⟨p, hp, rfl, rfl⟩)

/-- An insertion always changes the table: it counts one record more. -/
theorem Inserted.table_ne (h : Inserted s data p s') (hs : Good s) : s'.table ≠ s.table := by
  intro he
  have hn := h.good.heap.getTableSize
  rw [he, hs.heap.getTableSize, h.live, List.length_cons] at hn
  omega

/-- The invariant of runs that insert fresh keys only. -/
private structure Unique (s : Session) : Prop where
  good : Good s
  distinct : s.DistinctKeys
  exact : s.PrimaryExact
  indexed : s.table.primaryIndex.isSome

private theorem enforced_step {op : Op} (hs : Unique s) (hv : InsertsDeletes s op)
    (hc : InsertsFresh s op) : ∃ s', s.step op = some s' ∧ Enforced s op s' ∧ Unique s' := by
  rcases hv.step hs.good with ⟨data, p, s', ho, hstep, hi⟩ | ⟨i, p, s', rfl, hstep, hd⟩
  · have hfresh := (hc data ho).2
    have hnew : ∀ q ∈ s.live, s.primaryKey q ≠ s.table.schema.getPrimaryKeySymbol data :=
      fun q hq he => hfresh ⟨q, hq, he⟩
    have hx := hi.primaryExact hs.exact hnew
    have hdist := hi.distinctKeys hs.distinct hnew
    have hindexed : s'.table.primaryIndex.isSome := hi.frame.primaryIndex ▸ hs.indexed
    refine ⟨s', hstep, ⟨hdist, ?_, fun p hp => hx.selectRecordKey hindexed hp⟩, hi.good, hdist, hx, hindexed⟩
    intro data' ho' hlive
    rw [ho] at ho'
    cases ho'
    exact absurd hlive hfresh
  · have hx := hd.primaryExact hs.good hs.distinct hs.exact
    have hdist := hd.distinctKeys hs.distinct
    have hindexed : s'.table.primaryIndex.isSome := hd.frame.primaryIndex ▸ hs.indexed
    exact ⟨s', hstep, ⟨hdist, fun _ ho => (nomatch ho), fun p hp => hx.selectRecordKey hindexed hp⟩, hd.good,
      hdist, hx, hindexed⟩

private theorem enforced_back {op : Op} (hs : Unique s) (hv : InsertsDeletes s op)
    (hstep : s.step op = some s') (hf : Enforced s op s') : InsertsFresh s op := by
  intro data ho
  refine ⟨hs.good.heap.fits, fun hlive => ?_⟩
  rcases hv.step hs.good with ⟨data', p, s₁, -, hstep', hi⟩ | ⟨i, p, s₁, rfl, -, -⟩
  · rw [hstep] at hstep'
    cases hstep'
    exact hi.table_ne hs.good (hf.refused data ho hlive)
  · cases ho

/-- Along every run of insertions and deletions of a table with primary columns, the primary key is
enforced at every step if and only if no insertion carries a key that is live. -/
theorem enforced_iff {schema : Schema} (hs : schema.Built) (hp : schema.primaryColNum ≠ 0)
    {indexes : List (List ℕ)} (hi : ∀ cols ∈ indexes, schema.ValidColumns cols) {ops : List Op}
    (hv : Meets Session.step InsertsDeletes (Session.new schema indexes) ops) :
    Holds Session.step Enforced (Session.new schema indexes) ops ↔
      Meets Session.step InsertsFresh (Session.new schema indexes) ops := by
  by_cases hfit : (Session.new schema indexes).Fits
  · have hgood := Good.new hs.layout hi hfit
    exact holds_iff_meets (fun s op hinv => enforced_step hinv)
      (fun s op s' hinv => enforced_back hinv)
      ⟨hgood, distinctKeys_new schema indexes, primaryExact_new schema indexes,
        hgood.sound.primaryIndex.mpr hp⟩ hv
  · exact holds_iff_meets_unfit hfit (fun op => InsertsDeletes.first)
      (fun s op ho hc => (hc _ (Option.eq_some_of_isSome ho)).1) hv

theorem enforced_iff_two_keys : Holds Session.step Enforced (Session.new groupSchema [[1]])
    [.insertRecord [1, 7], .insertRecord [2, 7], .deleteRecord 0] ↔
      Meets Session.step InsertsFresh (Session.new groupSchema [[1]])
        [.insertRecord [1, 7], .insertRecord [2, 7], .deleteRecord 0] :=
  enforced_iff groupSchema_built (by decide) (by decide) (by decide)

/-- A second record of key 1 is stored: the table then counts two records. -/
theorem insert_twice_not_enforced :
    Meets Session.step InsertsDeletes (Session.new groupSchema [])
        [.insertRecord [1, 7], .insertRecord [1, 8]] ∧
      ¬ Holds Session.step Enforced (Session.new groupSchema [])
        [.insertRecord [1, 7], .insertRecord [1, 8]] := by
  refine ⟨by decide, fun h => ?_⟩
  obtain ⟨s, s', hrun, hrun', hf⟩ := Holds.last
    (show Holds _ _ _ ([Op.insertRecord [1, 7]] ++ [Op.insertRecord [1, 8]]) from h)
  have hlive : (run Session.step (Session.new groupSchema []) [.insertRecord [1, 7]]).map
      (fun s => s.live.map (fun p => (s.primaryKey p,
        s.table.schema.getPrimaryKeySymbol [1, 8]))) = some [([1], [1])] := by decide
  have hsize : (run Session.step (Session.new groupSchema []) [.insertRecord [1, 7]]).map
      (fun s => s.table.getTableSize) = some 1 := by decide
  have hsize' : (run Session.step (Session.new groupSchema [])
      ([.insertRecord [1, 7]] ++ [.insertRecord [1, 8]])).map
        (fun s => s.table.getTableSize) = some 2 := by decide
  rw [hrun, Option.map_some, Option.some_inj] at hlive hsize
  rw [hrun', Option.map_some, Option.some_inj] at hsize'
  obtain ⟨p, hp, he⟩ := List.exists_of_mem_map (hlive ▸ List.mem_singleton_self ([1], [1]) :)
  obtain ⟨hkey, hdata⟩ := Prod.mk.inj he
  have htable := hf.refused [1, 8] rfl ⟨p, hp, hkey.trans hdata.symm⟩
  rw [htable, hsize] at hsize'
  cases hsize'

end Session
end ImdbD.StorageEngine
