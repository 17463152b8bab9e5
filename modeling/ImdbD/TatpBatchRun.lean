import ImdbD.TatpBatchJobs
import ImdbD.TatpAbstractMaps
import ImdbD.JobOrder

/-!
# A TATP batch, one thread after the other

The lookups find what the serial processor finds later, since no transaction
changes the number of a subscriber. The jobs, sorted by thread, do what they do
in the order of the queue, since jobs of different threads commute.
-/
namespace ImdbD.Benchmark.TATP.TatpBatchProcessor
open ByteMemory StorageEngine AtomicProgram RecordStore
open KeyedStore (Store)

variable {K : Constants} {s₀ s s' : Tables} {batch before after : List EventTuple}
  {tuple : EventTuple} {b : ℕ} {memory : ℕ → Memory} {notes : Notes}

/-- The rows of SUBSCRIBER lie under their keys, and the secondary index has their numbers. -/
structure Indexed (s : Tables) : Prop where
  key : ∀ k r, s.row .subscriber k = some r → r.primaryKey = some k
  number : ∀ g k, k ∈ s.groups .subscriber g ↔
    ∃ r, s.row .subscriber k = some r ∧ r.getColumn 1 = g

/-- The subscriber numbers of a tuple. -/
def subNbrOf : EventTuple → Option CString
  | .deleteCallForwarding param => some param.subNbr
  | .insertCallForwarding param => some param.subNbr
  | .updateLocation param => some param.subNbr
  | .getAccessData _ | .getNewDestination _ | .getSubscriberData _ | .updateSubscriberData _
  | .endExecution => none

/-- The number of the tuple, if it has one, belongs to a subscriber. -/
def Known (s : Tables) (tuple : EventTuple) : Prop :=
  ∀ subNbr ∈ subNbrOf tuple, ∃ sId, Carries s sId subNbr

/-- A lookup succeeds; a new location needs the row of the subscriber as well. -/
def Found (s : Tables) (lookup : Lookup) (subNbr : CString) (sId : Int32) : Prop :=
  subscriberId s subNbr = some sId ∧
    (lookup = .ul → (s.row .subscriber (subscriberKey sId)).isSome)

/-- The number that a tuple has looked up in one of the vectors. -/
def subNbrFor : Lookup → EventTuple → Option CString
  | .dcf, .deleteCallForwarding param => some param.subNbr
  | .icf, .insertCallForwarding param => some param.subNbr
  | .ul, .updateLocation param => some param.subNbr
  | _, _ => none

/-- What a tuple looks up is found. -/
def Passes (s : Tables) (tuple : EventTuple) : Prop :=
  ∀ lookup, ∀ subNbr ∈ subNbrFor lookup tuple, ∃ sId, Found s lookup subNbr sId

/-- The key of a row is the number in its first column. -/
theorem Indexed.key_eq (h : Indexed s) {k : Bytes} {r : Record TatpSchema.getSubscriberSchema}
    (hr : s.row .subscriber k = some r) : r.getColumn 0 = k := by
  have hkey := h.key k r hr
  rw [Record.primaryKey_eq _ (by decide) (by decide)] at hkey
  have hone := Option.some.inj hkey
  change [0].flatMap r.getColumn = k at hone
  simpa using hone

theorem Indexed.subscriberKey_eq (h : Indexed s) {k : Bytes}
    {r : Record TatpSchema.getSubscriberSchema} (hr : s.row .subscriber k = some r) :
    subscriberKey (readInt32 (r.getColumn 0)) = k := by
  rw [subscriberKey, int32Bytes_readInt32 (r.length_getColumn (by decide)), h.key_eq hr]

theorem Indexed.found (h : Indexed s) {subNbr : CString} {sId : Int32}
    (hcarries : Carries s sId subNbr) (lookup : Lookup) : ∃ sId', Found s lookup subNbr sId' := by
  obtain ⟨r, hr, hcolumn⟩ := hcarries
  have hmem : subscriberKey sId ∈ s.groups .subscriber (subNbr.read 15) :=
    (h.number _ _).mpr ⟨r, hr, hcolumn⟩
  cases hgroup : s.groups .subscriber (subNbr.read 15) with
  | nil =>
    rw [hgroup] at hmem
    cases hmem
  | cons k ks =>
    obtain ⟨r', hr', -⟩ := (h.number (subNbr.read 15) k).mp (by rw [hgroup]; exact List.mem_cons_self)
    refine ⟨readInt32 (r'.getColumn 0), ?_, ?_⟩
    · rw [subscriberId, hgroup]
      exact congrArg (Option.map _) hr'
    · intro _
      rw [h.subscriberKey_eq hr', hr']
      rfl

/-- A lookup finds the same after any transactions. -/
theorem Found.kept {lookup : Lookup} {subNbr : CString} {sId : Int32} (h : Found s lookup subNbr sId)
    (hkept : Kept s s') : Found s' lookup subNbr sId := by
  refine ⟨(hkept.subscriberId subNbr).trans h.1, fun hlookup => ?_⟩
  have hne : ∀ off, TableId.subscriber ≠ .callForwarding off := fun _ => nofun
  exact hkept.isSome_row hne ▸ h.2 hlookup

theorem Passes.kept (h : Passes s tuple) (hkept : Kept s s') : Passes s' tuple :=
  fun lookup subNbr hsub => (h lookup subNbr hsub).imp (fun _ hfound => hfound.kept hkept)

/-- What is found later was there before. -/
theorem Passes.of_kept (h : Passes s' tuple) (hkept : Kept s s') : Passes s tuple := by
  intro lookup subNbr hsub
  obtain ⟨sId, hsId, hsome⟩ := h lookup subNbr hsub
  refine ⟨sId, (hkept.subscriberId subNbr).symm.trans hsId, fun hlookup => ?_⟩
  have hne : ∀ off, TableId.subscriber ≠ .callForwarding off := fun _ => nofun
  exact hkept.isSome_row hne ▸ hsome hlookup

theorem Indexed.passes (h : Indexed s) (hknown : Known s tuple) : Passes s tuple := by
  intro lookup subNbr hsub
  have hof : subNbr ∈ subNbrOf tuple := by
    cases tuple <;> cases lookup <;> first | exact hsub | cases hsub
  obtain ⟨sId, hcarries⟩ := hknown subNbr hof
  exact h.found hcarries lookup

/-- The calls of a tuple of which it is noted what they find, and what there is to be found. -/
def findings (K : Constants) (s : Tables) (b : ℕ) (pos : Positions) :
    EventTuple → List (Σ call : Call, call.reading.Finding)
  | .getSubscriberData param =>
    [⟨⟨b, .subscriberData, pos.gsdPos, param.sId⟩, findSubscriber s param.sId⟩]
  | .deleteCallForwarding param =>
    (subscriberId s param.subNbr).toList.map (fun sId =>
      ⟨⟨b, .deletedForwarding, pos.dcfPos, sId⟩,
        findCallForwarding K s sId param.sfType param.startTime⟩)
  | .insertCallForwarding param =>
    (subscriberId s param.subNbr).toList.flatMap (fun sId =>
      [⟨⟨b, .specialFacility, pos.icfPos, sId⟩, findSpecialFacility K s sId⟩,
        ⟨⟨b, .insertedForwarding, pos.icfPos, sId⟩,
          findCallForwarding K s sId param.sfType param.startTime⟩])
  | .updateLocation _ | .updateSubscriberData _ | .getAccessData _ | .getNewDestination _
  | .endExecution => []

/-- Note a finding. -/
def note (notes : Notes) (finding : Σ call : Call, call.reading.Finding) : Notes :=
  Function.update notes finding.1 (some finding.2)

/-- One job after the other. -/
abbrev runJob (K : Constants) (b : ℕ) (memory : ℕ → Memory) (batch : List EventTuple) (sIds : SIds)
    (w : Work) (job : Job) : Option Work :=
  jobStep (fun job : Job => perform K b memory batch sIds job.1.1 job.2) w job

theorem run_onTables {p : Program Tables Unit} {sIds : SIds} (h : p.run s = some ((), s')) :
    (onTables p).run ((s, sIds), notes) = some ((), ((s', sIds), notes)) :=
  Program.run_onFst_of (Program.run_onFst_of h sIds) notes

theorem run_noted {call : Call} {look : Tables → call.reading.Finding} {p : Program Tables Unit}
    {sIds : SIds} (h : p.run s = some ((), s')) :
    (noted call look p).run ((s, sIds), notes) =
      some ((), ((s', sIds), note notes ⟨call, look s⟩)) := by
  rw [noted, Program.run_noting, Program.run_onFst_of h sIds]
  rfl

section Answers
variable {w w' : Work} {pos : ℕ} {sId : Int32} {params : List (ℕ × Bytes)}
  {rest : Option Bytes → Program Tables Unit}

/-- A procedure that starts with a select is noted in the state in which the select answers. -/
theorem noted_select {call : Call} {look : Tables → call.reading.Finding} {id : TableId}
    (h : (noted call look ((manager layout).selectRecord id params >>= rest)).run w = some ((), w')) :
    ∃ answer, w.1.1.search id params = some answer ∧
      (rest answer).run w.1.1 = some ((), w'.1.1) ∧ w'.2 = note w.2 ⟨call, look w.1.1⟩ := by
  rw [noted, Program.onFst_bind] at h
  obtain ⟨answer, t, haction, hrest, hnote⟩ := Program.run_noting_atomic_bind h
  obtain ⟨⟨answer', s₁⟩, hselect, he⟩ := Option.map_eq_some_iff.mp haction
  cases he
  obtain ⟨answer', hsearch, he⟩ := Option.map_eq_some_iff.mp hselect
  cases he
  exact ⟨_, hsearch, (Program.run_onFst_eq_some.mp hrest).1, hnote⟩

/-- Of a subscriber the row is noted that the select of the procedure answers. -/
theorem noted_getSubscriberData
    (h : (noted ⟨b, .subscriberData, pos, sId⟩ (fun s => findSubscriber s sId)
      (getSubscriberData (manager layout) sId)).run w = some ((), w')) :
    ∃ answer, w.1.1.search .subscriber [(0, int32Bytes sId)] = some answer ∧
      w'.2 = note w.2 ⟨⟨b, .subscriberData, pos, sId⟩, answer.bind (w.1.1.row .subscriber)⟩ := by
  obtain ⟨answer, hsearch, -, hnote⟩ := noted_select h
  refine ⟨answer, hsearch, ?_⟩
  have hrow : answer.bind (w.1.1.row .subscriber) = findSubscriber w.1.1 sId :=
    bind_row_of_search rfl (predicateKey_subscriber sId) hsearch
  rw [hrow]
  exact hnote

/-- Of the special facilities the group is noted of which the select answers the first. -/
theorem noted_getSpecialFacilitySFType
    (h : (noted ⟨b, .specialFacility, pos, sId⟩ (fun s => findSpecialFacility K s sId)
      (getSpecialFacilitySFType (manager layout) K sId)).run w = some ((), w')) :
    w.1.1.search (.specialFacility (K.offset sId)) [(0, int32Bytes sId)] =
        some (findSpecialFacility K w.1.1 sId).1.head? ∧
      w'.2 = note w.2 ⟨⟨b, .specialFacility, pos, sId⟩, findSpecialFacility K w.1.1 sId⟩ := by
  have hcols : [0] ≠ TatpSchema.getSpecialFacilitySchema.schema.primaryCols := by decide
  obtain ⟨_, -, -, hnote⟩ := noted_select h
  exact ⟨search_group hcols rfl (predicateKey_specialFacility_sId sId), hnote⟩

section CallForwarding
variable {sfType startTime : Int8}

/-- The select of a row of CALL_FORWARDING. -/
private theorem row_of_forwardingSearch {answer : Option Bytes}
    (h : s.search (.callForwarding (K.offset sId)) [(0, int32Bytes sId), (1, int8Bytes sfType),
      (2, int8Bytes startTime)] = some answer) :
    answer.bind (s.row (.callForwarding (K.offset sId))) = findCallForwarding K s sId sfType startTime :=
  bind_row_of_search rfl
    (predicateKey_callForwarding sId sfType startTime) h

/-- Before a deletion the row is noted that its select answers, and which is deleted then. -/
theorem noted_deleteCallForwardingRecord
    (h : (noted ⟨b, .deletedForwarding, pos, sId⟩
      (fun s => findCallForwarding K s sId sfType startTime)
      (deleteCallForwardingRecord (manager layout) K sId sfType startTime)).run w = some ((), w')) :
    ∃ answer, w.1.1.search (.callForwarding (K.offset sId)) [(0, int32Bytes sId),
        (1, int8Bytes sfType), (2, int8Bytes startTime)] = some answer ∧
      w'.2 = note w.2 ⟨⟨b, .deletedForwarding, pos, sId⟩,
        answer.bind (w.1.1.row (.callForwarding (K.offset sId)))⟩ := by
  obtain ⟨answer, hsearch, -, hnote⟩ := noted_select h
  refine ⟨answer, hsearch, ?_⟩
  rw [row_of_forwardingSearch hsearch]
  exact hnote

/-- Before an insertion the row is noted that its select answers, without which it inserts. -/
theorem noted_insertCallForwardingRecord {memory : Memory} {endTime : Int8} {numberx : CString}
    (h : (noted ⟨b, .insertedForwarding, pos, sId⟩
      (fun s => findCallForwarding K s sId sfType startTime)
      (insertCallForwardingRecord (manager layout) K memory sId sfType startTime endTime
        numberx)).run w = some ((), w')) :
    ∃ answer, w.1.1.search (.callForwarding (K.offset sId)) [(0, int32Bytes sId),
        (1, int8Bytes sfType), (2, int8Bytes startTime)] = some answer ∧
      w'.2 = note w.2 ⟨⟨b, .insertedForwarding, pos, sId⟩,
        answer.bind (w.1.1.row (.callForwarding (K.offset sId)))⟩ := by
  obtain ⟨answer, hsearch, -, hnote⟩ := noted_select h
  refine ⟨answer, hsearch, ?_⟩
  rw [row_of_forwardingSearch hsearch]
  exact hnote

end CallForwarding
end Answers

section Entries
variable {sIds : SIds} {i : ℕ} {sId : Int32}

private theorem run_deleteEntry {param : DeleteCallForwardingParam}
    (hparam : (dcfParams batch)[i]? = some param) (hsId : (sIds .dcf)[i]? = some sId)
    (h : (deleteCallForwardingRecord (manager layout) K sId param.sfType param.startTime).run s =
      some ((), s')) :
    (dcfIcfEntry K b memory batch sIds (0, i)).run ((s, sIds), notes) = some ((), ((s', sIds),
      note notes ⟨⟨b, .deletedForwarding, i, sId⟩,
        findCallForwarding K s sId param.sfType param.startTime⟩)) := by
  simp only [dcfIcfEntry, if_true, Program.run_bind, Program.run_fetch, hparam, hsId,
    Option.map_some, Option.bind_some]
  exact run_noted h

private theorem run_insertEntry {param : InsertCallForwardingParam}
    (hparam : (icfParams batch)[i]? = some param) (hsId : (sIds .icf)[i]? = some sId)
    (h : (insertCallForwardingRecord (manager layout) K (memory i) sId param.sfType param.startTime
      param.endTime param.numberx).run s = some ((), s')) :
    (dcfIcfEntry K b memory batch sIds (1, i)).run ((s, sIds), notes) = some ((), ((s', sIds),
      note notes ⟨⟨b, .insertedForwarding, i, sId⟩,
        findCallForwarding K s sId param.sfType param.startTime⟩)) := by
  simp only [dcfIcfEntry, one_ne_zero, if_false, Program.run_bind, Program.run_fetch, hparam, hsId,
    Option.map_some, Option.bind_some]
  exact run_noted h

private theorem run_subscriberDataEntry {param : GetSubscriberDataParam}
    (hparam : (gsdParams batch)[i]? = some param) :
    (gsdUlUsdEntry b batch sIds (0, i)).run ((s, sIds), notes) = some ((), ((s, sIds),
      note notes ⟨⟨b, .subscriberData, i, param.sId⟩, findSubscriber s param.sId⟩)) := by
  simp only [gsdUlUsdEntry, if_true, Program.run_bind, Program.run_fetch, hparam, Option.map_some,
    Option.bind_some]
  exact run_noted (run_getSubscriberData s)

private theorem run_locationEntry {param : UpdateLocationParam} (hparam : (ulParams batch)[i]? = some param)
    (hsId : (sIds .ul)[i]? = some sId)
    (h : (updateSubscriberVLRLocation (manager layout) sId param.vlrLocation).run s = some ((), s')) :
    (gsdUlUsdEntry b batch sIds (1, i)).run ((s, sIds), notes) =
      some ((), ((s', sIds), notes)) := by
  simp only [gsdUlUsdEntry, one_ne_zero, if_false, if_true, Program.run_bind, Program.run_fetch,
    hparam, hsId, Option.map_some, Option.bind_some]
  exact run_onTables h

private theorem run_bit1Entry {param : UpdateSubscriberDataParam}
    (hparam : (usdParams batch)[i]? = some param)
    (h : (updateSubscriberBit1 (manager layout) param.sId param.bit1).run s = some ((), s')) :
    (gsdUlUsdEntry b batch sIds (2, i)).run ((s, sIds), notes) =
      some ((), ((s', sIds), notes)) := by
  simp only [gsdUlUsdEntry, OfNat.ofNat_ne_zero, OfNat.ofNat_ne_one, if_false, Program.run_bind,
    Program.run_fetch, hparam, Option.map_some, Option.bind_some]
  exact run_onTables h

private theorem run_facilityEntry (hsId : (sIds .icf)[i]? = some sId) :
    (icfUsdEntry K b batch sIds (0, i)).run ((s, sIds), notes) = some ((), ((s, sIds),
      note notes ⟨⟨b, .specialFacility, i, sId⟩, findSpecialFacility K s sId⟩)) := by
  simp only [icfUsdEntry, if_true, Program.run_bind, Program.run_fetch, hsId, Option.map_some,
    Option.bind_some]
  exact run_noted (run_getSpecialFacilitySFType s)

private theorem run_dataAEntry {param : UpdateSubscriberDataParam}
    (hparam : (usdParams batch)[i]? = some param)
    (h : (updateSpecialFacilityDataA (manager layout) K param.sId param.sfType param.dataA).run s =
      some ((), s')) :
    (icfUsdEntry K b batch sIds (1, i)).run ((s, sIds), notes) = some ((), ((s', sIds), notes)) := by
  simp only [icfUsdEntry, one_ne_zero, if_false, Program.run_bind, Program.run_fetch, hparam,
    Option.map_some, Option.bind_some]
  exact run_onTables h

end Entries

/-- The vectors hold the subscribers that the numbers of the batch lead to. -/
def LookedUp (s : Tables) (batch : List EventTuple) (sIds : SIds) : Prop :=
  ∀ (lookup : Lookup) (i : ℕ) (subNbr : CString), (subNbrs batch lookup)[i]? = some subNbr →
    ∃ sId, (sIds lookup)[i]? = some sId ∧ Found s lookup subNbr sId

theorem subNbrs_eq (batch : List EventTuple) (lookup : Lookup) :
    subNbrs batch lookup = batch.filterMap (subNbrFor lookup) := by
  cases lookup <;> simp only [subNbrs, dcfParams, icfParams, ulParams, List.map_filterMap] <;>
    congr 1 <;> funext tuple <;> cases tuple <;> rfl

/-- The position of a tuple among those of its kind leads to its subscriber. -/
theorem LookedUp.at {sIds : SIds} {subNbr : CString} (lookup : Lookup)
    (h : LookedUp s₀ (before ++ tuple :: after) sIds) (hkept : Kept s₀ s)
    (htuple : subNbrFor lookup tuple = some subNbr) : ∃ sId,
      (sIds lookup)[(subNbrs before lookup).length]? = some sId ∧ Found s lookup subNbr sId := by
  have hat : (subNbrs (before ++ tuple :: after) lookup)[(subNbrs before lookup).length]? =
      some subNbr := by
    rw [subNbrs_eq, subNbrs_eq]
    exact Lists.getElem?_filterMap_length before after htuple
  obtain ⟨sId, hsId, hfound⟩ := h lookup _ _ hat
  exact ⟨sId, hsId, hfound.kept hkept⟩

/-- The serial processor on one tuple, and the jobs of the tuple in the same order. -/
structure Matches (K : Constants) (b : ℕ) (memory : ℕ → Memory) (batch : List EventTuple)
    (sIds : SIds) (pos : Positions) (tuple : EventTuple) (s s' : Tables) : Prop where
  serial : ∀ memory', (TatpSerialProcessor.process (manager layout) K memory' tuple).run s =
    some ((), s')
  kept : Kept s s'
  routed : Routed K s → Routed K s'
  jobs : ∃ jobs, tupleJobs K sIds pos tuple = some jobs ∧ ∀ notes,
    GuardedRun.run (runJob K b memory batch sIds) ((s, sIds), notes) jobs =
      some ((s', sIds), (findings K s b pos tuple).foldl note notes)

section Tuples
variable {sIds : SIds}

private theorem matches_deleteCallForwarding {param : DeleteCallForwardingParam} (hkept : Kept s₀ s)
    (hids : LookedUp s₀ (before ++ .deleteCallForwarding param :: after) sIds) :
    ∃ s', Matches K b memory (before ++ .deleteCallForwarding param :: after) sIds (.of before)
      (.deleteCallForwarding param) s s' := by
  have hat : (dcfParams (before ++ .deleteCallForwarding param :: after))[(dcfParams before).length]? =
    some param := Lists.getElem?_filterMap_length before after rfl
  obtain ⟨sId, hsId, hlookup, -⟩ := hids.at .dcf hkept rfl
  rw [subNbrs, List.length_map] at hsId
  refine ⟨_, fun _ => run_processDeleteCallForwarding hlookup, (performs_delete s).kept,
    (performs_delete s).routed, _, congrArg (Option.map _) hsId, fun notes => ?_⟩
  simp only [GuardedRun.run, jobStep, perform, Positions.of, findings, hlookup,
    run_deleteEntry hat hsId (run_deleteCallForwardingRecord s)]
  rfl

private theorem matches_getSubscriberData (param : GetSubscriberDataParam) :
    Matches K b memory (before ++ .getSubscriberData param :: after) sIds (.of before)
      (.getSubscriberData param) s s := by
  have hat : (gsdParams (before ++ .getSubscriberData param :: after))[(gsdParams before).length]? =
    some param := Lists.getElem?_filterMap_length before after rfl
  refine ⟨fun _ => run_getSubscriberData s, .refl s, fun h => h, _, rfl, fun notes => ?_⟩
  simp only [GuardedRun.run, jobStep, perform, Positions.of, findings, run_subscriberDataEntry hat]
  rfl

private theorem matches_insertCallForwarding {param : InsertCallForwardingParam} (hkept : Kept s₀ s)
    (hids : LookedUp s₀ (before ++ .insertCallForwarding param :: after) sIds) :
    ∃ s', Matches K b memory (before ++ .insertCallForwarding param :: after) sIds (.of before)
      (.insertCallForwarding param) s s' := by
  have hat : (icfParams (before ++ .insertCallForwarding param :: after))[(icfParams before).length]? =
    some param := Lists.getElem?_filterMap_length before after rfl
  obtain ⟨sId, hsId, hlookup, -⟩ := hids.at .icf hkept rfl
  rw [subNbrs, List.length_map] at hsId
  refine ⟨_, run_processInsertCallForwarding hlookup, (performs_insert s _).kept,
    (performs_insert s _).routed, _, congrArg (Option.map _) hsId, fun notes => ?_⟩
  simp only [GuardedRun.run, jobStep, perform, Positions.of, findings, hlookup,
    run_facilityEntry hsId,
    run_insertEntry hat hsId (run_insertCallForwardingRecord s (memory _) param.numberx),
    Option.map_some, Option.bind_some]
  rfl

private theorem matches_updateLocation {param : UpdateLocationParam} (hkept : Kept s₀ s)
    (hids : LookedUp s₀ (before ++ .updateLocation param :: after) sIds) :
    ∃ s', Matches K b memory (before ++ .updateLocation param :: after) sIds (.of before)
      (.updateLocation param) s s' := by
  have hat : (ulParams (before ++ .updateLocation param :: after))[(ulParams before).length]? =
    some param := Lists.getElem?_filterMap_length before after rfl
  obtain ⟨sId, hsId, hlookup, hsome⟩ := hids.at .ul hkept rfl
  rw [subNbrs, List.length_map] at hsId
  have hupdate : (updateSubscriberVLRLocation (manager layout) sId param.vlrLocation).run s = _ :=
    run_updateSubscriberVLRLocation s param.vlrLocation
  rw [if_pos (hsome rfl)] at hupdate
  have hserial := run_processUpdateLocation hlookup
  rw [if_pos (hsome rfl)] at hserial
  refine ⟨_, fun _ => hserial, (performs_vlrLocation (K := K) s _).kept,
    (performs_vlrLocation s param.vlrLocation).routed, _, congrArg (Option.map _) hsId,
    fun notes => ?_⟩
  simp only [GuardedRun.run, jobStep, perform, Positions.of, findings,
    run_locationEntry hat hsId hupdate]
  rfl

private theorem matches_updateSubscriberData (param : UpdateSubscriberDataParam) :
    ∃ s', Matches K b memory (before ++ .updateSubscriberData param :: after) sIds (.of before)
      (.updateSubscriberData param) s s' := by
  have hat : (usdParams (before ++ .updateSubscriberData param :: after))[(usdParams before).length]? =
    some param := Lists.getElem?_filterMap_length before after rfl
  refine ⟨_, fun _ => run_processUpdateSubscriberData s param,
    (performs_bit1 (K := K) s param.bit1).kept.trans (performs_dataA _ param.dataA).kept,
    fun h => (performs_dataA _ param.dataA).routed ((performs_bit1 s param.bit1).routed h),
    _, rfl, fun notes => ?_⟩
  simp only [GuardedRun.run, jobStep, perform, Positions.of, findings,
    run_bit1Entry hat (run_updateSubscriberBit1 s param.bit1),
    run_dataAEntry hat (run_updateSpecialFacilityDataA _ param.dataA), Option.map_some,
    Option.bind_some]
  rfl

/-- Every tuple does in its jobs what the serial processor does with it. -/
theorem matches_tuple (hkept : Kept s₀ s) (hids : LookedUp s₀ (before ++ tuple :: after) sIds) :
    ∃ s', Matches K b memory (before ++ tuple :: after) sIds (.of before) tuple s s' := by
  cases tuple with
  | deleteCallForwarding param => exact matches_deleteCallForwarding hkept hids
  | getAccessData param =>
    exact ⟨s, fun _ => run_getAccessInfo s param.aiType, .refl s, fun h => h, [], rfl, fun _ => rfl⟩
  | getNewDestination param => exact ⟨s, fun _ => rfl, .refl s, fun h => h, [], rfl, fun _ => rfl⟩
  | getSubscriberData param => exact ⟨s, matches_getSubscriberData param⟩
  | insertCallForwarding param => exact matches_insertCallForwarding hkept hids
  | updateLocation param => exact matches_updateLocation hkept hids
  | updateSubscriberData param => exact matches_updateSubscriberData param
  | endExecution => exact ⟨s, fun _ => rfl, .refl s, fun h => h, [], rfl, fun _ => rfl⟩

end Tuples

/-- How many calls of a kind the tuples so far have made. -/
def Positions.count (pos : Positions) : Reading → ℕ
  | .subscriberData => pos.gsdPos
  | .specialFacility | .insertedForwarding => pos.icfPos
  | .deletedForwarding => pos.dcfPos

private theorem Positions.count_le_next (pos : Positions) (tuple : EventTuple) (reading : Reading) :
    pos.count reading ≤ (pos.next tuple).count reading := by
  cases tuple <;> cases reading <;> simp [count, next]

theorem mem_findings {pos : Positions} {finding : Σ call : Call, call.reading.Finding}
    (h : finding ∈ findings K s b pos tuple) : finding.1.batch = b ∧
      finding.1.pos = pos.count finding.1.reading ∧
      finding.1.pos < (pos.next tuple).count finding.1.reading := by
  cases tuple with
  | deleteCallForwarding param =>
    obtain ⟨sId, -, rfl⟩ := List.mem_map.mp h
    exact ⟨rfl, rfl, Nat.lt_succ_self _⟩
  | getSubscriberData param =>
    obtain rfl := List.mem_singleton.mp h
    exact ⟨rfl, rfl, Nat.lt_succ_self _⟩
  | insertCallForwarding param =>
    obtain ⟨sId, -, h⟩ := List.mem_flatMap.mp h
    simp only [List.mem_cons, List.not_mem_nil, or_false] at h
    obtain rfl | rfl := h
    · exact ⟨rfl, rfl, Nat.lt_succ_self _⟩
    · exact ⟨rfl, rfl, Nat.lt_succ_self _⟩
  | updateLocation _ | updateSubscriberData _ | getAccessData _ | getNewDestination _
  | endExecution => cases h

private theorem nodup_findings (K : Constants) (s : Tables) (b : ℕ) (pos : Positions) (tuple : EventTuple) :
    ((findings K s b pos tuple).map Sigma.fst).Nodup := by
  cases tuple with
  | deleteCallForwarding param => cases h : subscriberId s param.subNbr <;> simp [findings, h]
  | insertCallForwarding param => cases h : subscriberId s param.subNbr <;> simp [findings, h]
  | _ => simp [findings]

section Notes
variable {fs : List (Σ call : Call, call.reading.Finding)} {call : Call}

private theorem foldl_note_of_not_mem (h : call ∉ fs.map Sigma.fst) :
    fs.foldl note notes call = notes call := by
  induction fs generalizing notes with
  | nil => rfl
  | cons f fs ih =>
    rw [List.map_cons, List.mem_cons, not_or] at h
    rw [List.foldl_cons, ih h.2, note, Function.update_of_ne h.1]

private theorem foldl_note_of_mem (hfs : (fs.map Sigma.fst).Nodup) {f : Σ call : Call, call.reading.Finding}
    (h : f ∈ fs) : fs.foldl note notes f.1 = some f.2 := by
  induction fs generalizing notes with
  | nil => cases h
  | cons g fs ih =>
    obtain ⟨hnot, hfs⟩ := List.nodup_cons.mp hfs
    rw [List.foldl_cons]
    rcases List.mem_cons.mp h with rfl | h
    · rw [foldl_note_of_not_mem hnot, note, Function.update_self]
    · exact ih hfs h

end Notes

/-- The serial processor on one tuple. -/
def serialStep (K : Constants) (s : Tables) (tuple : EventTuple) : Option Tables :=
  ((TatpSerialProcessor.process (manager layout) K (fun _ => 0) tuple).run s).map Prod.snd

/-- The notes on a part of a batch: each call of its tuples has found what there was after the
tuples before it. -/
structure Noted (K : Constants) (b : ℕ) (before tuples : List EventTuple) (s : Tables)
    (notes notes' : Notes) : Prop where
  frame : ∀ call, (call.batch ≠ b ∨ call.pos < (Positions.of before).count call.reading) →
    notes' call = notes call
  seen : ∀ passed tuple rest u, tuples = passed ++ tuple :: rest →
    GuardedRun.run (serialStep K) s passed = some u →
    ∀ finding ∈ findings K u b (.of (before ++ passed)) tuple, notes' finding.1 = some finding.2

theorem Noted.nil : Noted K b before [] s notes notes :=
  ⟨fun _ _ => rfl, fun passed _ _ _ h => by simp at h⟩

theorem Noted.cons {tuples : List EventTuple} {notes' : Notes}
    (hstep : serialStep K s tuple = some s')
    (h : Noted K b (before ++ [tuple]) tuples s'
      ((findings K s b (.of before) tuple).foldl note notes) notes') :
    Noted K b before (tuple :: tuples) s notes notes' := by
  have hnext : ∀ reading, (Positions.of before).count reading ≤
      (Positions.of (before ++ [tuple])).count reading := fun reading =>
    Positions.next_of before tuple ▸ (Positions.of before).count_le_next tuple reading
  refine ⟨fun call hcall => ?_, fun passed tuple' rest u he hu finding hf => ?_⟩
  · rw [h.frame call (hcall.imp_right (fun hlt => hlt.trans_le (hnext _)))]
    refine foldl_note_of_not_mem (fun hmem => ?_)
    obtain ⟨f, hf, rfl⟩ := List.mem_map.mp hmem
    obtain ⟨hb, hpos, -⟩ := mem_findings hf
    rcases hcall with hne | hlt
    · exact hne hb
    · omega
  · cases passed with
    | nil =>
      cases hu
      obtain ⟨rfl, rfl⟩ := List.cons.inj he
      rw [List.append_nil] at hf
      obtain ⟨-, -, hlt⟩ := mem_findings hf
      rw [h.frame finding.1 (Or.inr (Positions.next_of before tuple ▸ hlt))]
      exact foldl_note_of_mem (nodup_findings ..) hf
    | cons first passed =>
      obtain ⟨rfl, rfl⟩ := List.cons.inj he
      rw [GuardedRun.run, hstep, Option.bind_some] at hu
      exact h.seen passed tuple' rest u rfl hu finding (by simpa using hf)

/-- The jobs of a part of a batch do what the serial processor does with its tuples. -/
theorem run_jobs {sIds : SIds} (before tuples : List EventTuple) (memory : ℕ → Memory)
    (hkept : Kept s₀ s) (hids : LookedUp s₀ (before ++ tuples) sIds) : ∃ s' jobs,
      GuardedRun.run (serialStep K) s tuples = some s' ∧ Kept s s' ∧
      batchJobs K sIds tuples (.of before) = some jobs ∧ ∀ notes, ∃ notes',
        GuardedRun.run (runJob K b memory (before ++ tuples) sIds) ((s, sIds), notes) jobs =
          some ((s', sIds), notes') ∧ Noted K b before tuples s notes notes' := by
  induction tuples generalizing before s with
  | nil => exact ⟨s, [], rfl, .refl s, rfl, fun notes => ⟨notes, rfl, .nil⟩⟩
  | cons tuple tuples ih =>
    obtain ⟨s₁, hmatches⟩ : ∃ s₁, Matches K b memory (before ++ tuple :: tuples) sIds (.of before)
      tuple s s₁ := matches_tuple hkept hids
    obtain ⟨jobs, hjobs, hrun⟩ := hmatches.jobs
    have hids' : LookedUp s₀ (before ++ [tuple] ++ tuples) sIds := by simpa using hids
    obtain ⟨s', rest, hserial, hkept', hrest, hruns⟩ := ih _ (hkept.trans hmatches.kept) hids'
    have hstep : serialStep K s tuple = some s₁ := by rw [serialStep, hmatches.serial]; rfl
    refine ⟨s', jobs ++ rest, ?_, hmatches.kept.trans hkept', ?_, fun notes => ?_⟩
    · rw [GuardedRun.run, hstep, Option.bind_some, hserial]
    · rw [batchJobs, hjobs, Positions.next_of, hrest]
      rfl
    · obtain ⟨notes', hrun', hnoted⟩ := hruns ((findings K s b (.of before) tuple).foldl note notes)
      rw [List.append_assoc, List.singleton_append] at hrun'
      refine ⟨notes', ?_, hnoted.cons hstep⟩
      rw [GuardedRun.run_append, hrun, Option.bind_some, hrun']

end ImdbD.Benchmark.TATP.TatpBatchProcessor
