import ImdbD.TatpBatchFootprint

/-!
# The jobs of a TATP batch

After the lookups every tuple leaves up to two jobs, each for one thread. The
buckets of a batch hold its jobs, sorted by thread and in the order of the tuples.
-/
namespace ImdbD.Benchmark.TATP.TatpBatchProcessor
open ByteMemory StorageEngine AtomicProgram RecordStore

/-- The thread and the entry of its bucket. -/
abbrev Job := (Role × ℕ) × Entry

/-- What a thread does with an entry. -/
def perform (K : Constants) (b : ℕ) (memory : ℕ → Memory) (batch : List EventTuple) (sIds : SIds) :
    Role → Entry → Program Work Unit
  | .dcfIcf => dcfIcfEntry K b memory batch sIds
  | .gsdUlUsd => gsdUlUsdEntry b batch sIds
  | .icfUsd => icfUsdEntry K b batch sIds
  | .main | .sid _ | .gad => fun _ => return ()

/-- The subscriber that an entry is about. -/
def subscriberOf (batch : List EventTuple) (sIds : SIds) : Role → Entry → Option Int32
  | .dcfIcf, entry => if entry.1 = 0 then (sIds .dcf)[entry.2]? else (sIds .icf)[entry.2]?
  | .gsdUlUsd, entry =>
    if entry.1 = 0 then (gsdParams batch)[entry.2]?.map GetSubscriberDataParam.sId
    else if entry.1 = 1 then (sIds .ul)[entry.2]?
    else (usdParams batch)[entry.2]?.map UpdateSubscriberDataParam.sId
  | .icfUsd, entry =>
    if entry.1 = 0 then (sIds .icf)[entry.2]?
    else (usdParams batch)[entry.2]?.map UpdateSubscriberDataParam.sId
  | .main, _ | .sid _, _ | .gad, _ => none

/-- The jobs of one tuple in the order of the serial processor. -/
def tupleJobs (K : Constants) (sIds : SIds) (pos : Positions) : EventTuple → Option (List Job)
  | .deleteCallForwarding _ => (sIds .dcf)[pos.dcfPos]?.map (fun sId =>
    [((.dcfIcf, bucket K sId), (0, pos.dcfPos))])
  | .getSubscriberData param => some [((.gsdUlUsd, bucket K param.sId), (0, pos.gsdPos))]
  | .insertCallForwarding _ => (sIds .icf)[pos.icfPos]?.map (fun sId =>
    [((.icfUsd, bucket K sId), (0, pos.icfPos)), ((.dcfIcf, bucket K sId), (1, pos.icfPos))])
  | .updateLocation _ => (sIds .ul)[pos.ulPos]?.map (fun sId =>
    [((.gsdUlUsd, bucket K sId), (1, pos.ulPos))])
  | .updateSubscriberData param => some
    [((.gsdUlUsd, bucket K param.sId), (2, pos.usdPos)),
      ((.icfUsd, bucket K param.sId), (1, pos.usdPos))]
  | .getAccessData _ | .getNewDestination _ | .endExecution => some []

namespace Positions

/-- How many tuples of each kind there are. -/
def of (batch : List EventTuple) : Positions :=
  ⟨(dcfParams batch).length, (gsdParams batch).length, (icfParams batch).length,
    (ulParams batch).length, (usdParams batch).length⟩

def next (pos : Positions) : EventTuple → Positions
  | .deleteCallForwarding _ => { pos with dcfPos := pos.dcfPos + 1 }
  | .getSubscriberData _ => { pos with gsdPos := pos.gsdPos + 1 }
  | .insertCallForwarding _ => { pos with icfPos := pos.icfPos + 1 }
  | .updateLocation _ => { pos with ulPos := pos.ulPos + 1 }
  | .updateSubscriberData _ => { pos with usdPos := pos.usdPos + 1 }
  | .getAccessData _ | .getNewDestination _ | .endExecution => pos

theorem next_of (before : List EventTuple) (tuple : EventTuple) :
    (of before).next tuple = of (before ++ [tuple]) := by
  cases tuple <;>
    simp [of, next, dcfParams, gsdParams, icfParams, ulParams, usdParams, List.filterMap_append]

end Positions

namespace Buckets

def of (bkts : Buckets) : Role → ℕ → List Entry
  | .dcfIcf => bkts.dcfIcfBkt
  | .gsdUlUsd => bkts.gsdUlUsdBkt
  | .icfUsd => bkts.icfUsdBkt
  | .main | .sid _ | .gad => fun _ => []

def add (bkts : Buckets) (job : Job) : Buckets :=
  match job.1.1 with
  | .dcfIcf => { bkts with dcfIcfBkt := emplaceBack bkts.dcfIcfBkt job.1.2 job.2 }
  | .gsdUlUsd => { bkts with gsdUlUsdBkt := emplaceBack bkts.gsdUlUsdBkt job.1.2 job.2 }
  | .icfUsd => { bkts with icfUsdBkt := emplaceBack bkts.icfUsdBkt job.1.2 job.2 }
  | .main | .sid _ | .gad => bkts

private theorem emplaceBack_apply (bkt : ℕ → List Entry) (t t' : ℕ) (entry : Entry) :
    emplaceBack bkt t entry t' = bkt t' ++ if t = t' then [entry] else [] := by
  rw [emplaceBack]
  by_cases h : t = t'
  · subst h
    rw [Function.update_self, if_pos rfl]
  · rw [Function.update_of_ne (Ne.symm h), if_neg h, List.append_nil]

private theorem of_add (bkts : Buckets) (job : Job) {r : Role} (hr : Second r) (t : ℕ) :
    (bkts.add job).of r t = bkts.of r t ++ if job.1 = (r, t) then [job.2] else [] := by
  obtain ⟨⟨role, t'⟩, entry⟩ := job
  cases hr <;> cases role <;> simp [of, add, emplaceBack_apply]

/-- A bucket holds the entries of its jobs in their order. -/
theorem of_foldl (jobs : List Job) (bkts : Buckets) {r : Role} (hr : Second r) (t : ℕ) :
    (jobs.foldl add bkts).of r t =
      bkts.of r t ++ (jobs.filter (fun job => job.1 = (r, t))).map Prod.snd := by
  induction jobs generalizing bkts with
  | nil => simp
  | cons job jobs ih =>
    rw [List.foldl_cons, ih, of_add bkts job hr]
    by_cases h : job.1 = (r, t) <;> simp [h]

end Buckets

/-- The jobs of a batch from some positions on. -/
def batchJobs (K : Constants) (sIds : SIds) : List EventTuple → Positions → Option (List Job)
  | [], _ => some []
  | tuple :: batch, pos => do
    let jobs ← tupleJobs K sIds pos tuple
    let rest ← batchJobs K sIds batch (pos.next tuple)
    return jobs ++ rest

variable {K : Constants} {sIds : SIds}

/-- The loop over the batch adds the jobs to their buckets. -/
theorem fillBuckets_eq (batch : List EventTuple) (pos : Positions) (bkts : Buckets) :
    fillBuckets K sIds batch pos bkts =
      (batchJobs K sIds batch pos).map (fun jobs => jobs.foldl Buckets.add bkts) := by
  induction batch generalizing pos bkts with
  | nil => rfl
  | cons tuple batch ih =>
    have hstep : fillBuckets K sIds (tuple :: batch) pos bkts =
        (tupleJobs K sIds pos tuple).bind (fun jobs =>
          fillBuckets K sIds batch (pos.next tuple) (jobs.foldl Buckets.add bkts)) := by
      cases tuple <;> simp only [fillBuckets, tupleJobs, Option.bind_map, Option.bind_some] <;> rfl
    simp only [hstep, ih, batchJobs, Option.bind_eq_bind, Option.map_bind]
    congr 1
    funext jobs
    cases batchJobs K sIds batch (pos.next tuple) with
    | none => rfl
    | some rest => exact congrArg some (List.foldl_append ..).symm

/-- Every job goes to the bucket of its subscriber. -/
theorem tupleJobs_sorted {before after : List EventTuple} {tuple : EventTuple} {jobs : List Job}
    (h : tupleJobs K sIds (.of before) tuple = some jobs) {job : Job} (hjob : job ∈ jobs)
    {sId : Int32} (hsId : subscriberOf (before ++ tuple :: after) sIds job.1.1 job.2 = some sId) :
    bucket K sId = job.1.2 := by
  cases tuple with
  | deleteCallForwarding param =>
    obtain ⟨sId', hget, rfl⟩ := Option.map_eq_some_iff.mp h
    obtain rfl := List.mem_singleton.mp hjob
    obtain rfl : sId' = sId := Option.some.inj (hget.symm.trans hsId)
    rfl
  | getSubscriberData param =>
    cases h
    obtain rfl := List.mem_singleton.mp hjob
    have hat : (gsdParams (before ++ .getSubscriberData param :: after))[(gsdParams before).length]? =
      some param := Lists.getElem?_filterMap_length before after rfl
    obtain ⟨param', hget, rfl⟩ := Option.map_eq_some_iff.mp hsId
    obtain rfl : param = param' := Option.some.inj (hat.symm.trans hget)
    rfl
  | insertCallForwarding param =>
    obtain ⟨sId', hget, rfl⟩ := Option.map_eq_some_iff.mp h
    obtain rfl | hjob := List.mem_cons.mp hjob
    · obtain rfl : sId' = sId := Option.some.inj (hget.symm.trans hsId)
      rfl
    · obtain rfl := List.mem_singleton.mp hjob
      obtain rfl : sId' = sId := Option.some.inj (hget.symm.trans hsId)
      rfl
  | updateLocation param =>
    obtain ⟨sId', hget, rfl⟩ := Option.map_eq_some_iff.mp h
    obtain rfl := List.mem_singleton.mp hjob
    obtain rfl : sId' = sId := Option.some.inj (hget.symm.trans hsId)
    rfl
  | updateSubscriberData param =>
    cases h
    have hat : (usdParams (before ++ .updateSubscriberData param :: after))[(usdParams before).length]? =
      some param := Lists.getElem?_filterMap_length before after rfl
    obtain rfl | hjob := List.mem_cons.mp hjob
    · obtain ⟨param', hget, rfl⟩ := Option.map_eq_some_iff.mp hsId
      obtain rfl : param = param' := Option.some.inj (hat.symm.trans hget)
      rfl
    · obtain rfl := List.mem_singleton.mp hjob
      obtain ⟨param', hget, rfl⟩ := Option.map_eq_some_iff.mp hsId
      obtain rfl : param = param' := Option.some.inj (hat.symm.trans hget)
      rfl
  | getAccessData param =>
    cases h
    cases hjob
  | getNewDestination param =>
    cases h
    cases hjob
  | endExecution =>
    cases h
    cases hjob

theorem batchJobs_sorted {before batch : List EventTuple} {jobs : List Job}
    (h : batchJobs K sIds batch (.of before) = some jobs) {job : Job} (hjob : job ∈ jobs)
    {sId : Int32} (hsId : subscriberOf (before ++ batch) sIds job.1.1 job.2 = some sId) :
    bucket K sId = job.1.2 := by
  induction batch generalizing before jobs with
  | nil =>
    cases h
    cases hjob
  | cons tuple batch ih =>
    obtain ⟨first, hfirst, h⟩ := Option.bind_eq_some_iff.mp h
    obtain ⟨rest, hrest, he⟩ := Option.bind_eq_some_iff.mp h
    cases he
    rcases List.mem_append.mp hjob with hjob | hjob
    · exact tupleJobs_sorted hfirst hjob hsId
    · rw [Positions.next_of] at hrest
      exact ih hrest hjob (by simpa using hsId)

section Within
variable {b : ℕ} {memory : ℕ → Memory} {batch : List EventTuple} {entry : Entry} {t : ℕ}

private theorem findCallForwarding_eq {s s' : Tables} {sId : Int32} {sfType startTime : Int8}
    (hagree : ∀ l ∈ (tableFoot K (.dcfIcf, bucket K sId)).touches, (places layout).Agree l s s') :
    findCallForwarding K s sId sfType startTime = findCallForwarding K s' sId sfType startTime :=
  row_of_agree (hagree _ (Or.inr (.callForwarding (K.offset sId) rfl rfl)))

private theorem findSpecialFacility_eq {s s' : Tables} {sId : Int32}
    (hagree : ∀ l ∈ (tableFoot K (.icfUsd, bucket K sId)).touches, (places layout).Agree l s s') :
    findSpecialFacility K s sId = findSpecialFacility K s' sId :=
  Prod.ext (hagree _ (Or.inl (.specialFacilities (K.offset sId) (int32Bytes sId))))
    (funext fun _ => row_of_agree (hagree _ (Or.inr (.specialFacility (K.offset sId) rfl rfl))))

/-- An entry stays with the rows of its subscriber. -/
theorem perform_within {r : Role} (hr : Second r)
    (h : ∀ sId, subscriberOf batch sIds r entry = some sId → bucket K sId = t) :
    (perform K b memory batch sIds r entry).Within workPlaces (foot K (r, t)) := by
  cases hr with
  | dcfIcf =>
    simp only [subscriberOf] at h
    simp only [perform, dcfIcfEntry]
    split
    · rename_i hkind
      rw [if_pos hkind] at h
      refine .bind (.fetch _) (fun param => .fetch_bind (fun sId hsId => ?_))
      obtain rfl := h sId hsId
      exact noted_within (deleteCallForwardingRecord_within (.callForwarding _ rfl rfl))
        (fun _ _ => findCallForwarding_eq) (.note _ rfl rfl)
    · rename_i hkind
      rw [if_neg hkind] at h
      refine .bind (.fetch _) (fun param => .fetch_bind (fun sId hsId => ?_))
      obtain rfl := h sId hsId
      exact noted_within (insertCallForwardingRecord_within (.callForwarding _ rfl rfl))
        (fun _ _ => findCallForwarding_eq) (.note _ rfl rfl)
  | gsdUlUsd =>
    simp only [subscriberOf] at h
    simp only [perform, gsdUlUsdEntry]
    split
    · rename_i hkind
      rw [if_pos hkind] at h
      refine .fetch_bind (fun param hparam => ?_)
      obtain rfl := h param.sId (by rw [hparam]; rfl)
      exact noted_within (getSubscriberData_within (Or.inr (.subscriber rfl rfl)))
        (fun _ _ hagree => row_of_agree (hagree _ (Or.inr (.subscriber rfl rfl)))) (.note _ rfl rfl)
    · rename_i hkind
      rw [if_neg hkind] at h
      split
      · rename_i hkind'
        rw [if_pos hkind'] at h
        refine .bind (.fetch _) (fun param => .fetch_bind (fun sId hsId => ?_))
        exact onTables_within (updateSubscriberVLRLocation_within (.subscriber (h sId hsId) rfl))
      · rename_i hkind'
        rw [if_neg hkind'] at h
        refine .fetch_bind (fun param hparam => onTables_within (updateSubscriberBit1_within ?_))
        exact .subscriber (h param.sId (by rw [hparam]; rfl)) rfl
  | icfUsd =>
    simp only [subscriberOf] at h
    simp only [perform, icfUsdEntry]
    split
    · rename_i hkind
      rw [if_pos hkind] at h
      refine .fetch_bind (fun sId hsId => ?_)
      obtain rfl := h sId hsId
      exact noted_within (getSpecialFacilitySFType_within (Or.inl (.specialFacilities _ _)))
        (fun _ _ => findSpecialFacility_eq) (.note _ rfl rfl)
    · rename_i hkind
      rw [if_neg hkind] at h
      refine .fetch_bind (fun param hparam => onTables_within (updateSpecialFacilityDataA_within ?_))
      exact .specialFacility _ (h param.sId (by rw [hparam]; rfl)) rfl

/-- The threads that work on the buckets. -/
theorem bucketThread_within (b : ℕ) (memory : ℕ → Memory) {bkts : Buckets} {r : Role}
    (hr : Second r) (t : ℕ)
    (hfill : fillBuckets K sIds batch ⟨0, 0, 0, 0, 0⟩ ⟨fun _ => [], fun _ => [], fun _ => []⟩ =
      some bkts) :
    (Program.each (perform K b memory batch sIds r) (bkts.of r t)).Within workPlaces
      (foot K (r, t)) := by
  rw [fillBuckets_eq, Option.map_eq_some_iff] at hfill
  obtain ⟨jobs, hjobs, rfl⟩ := hfill
  refine .each (fun entry hentry => perform_within hr (fun sId hsId => ?_))
  have hempty : Buckets.of ⟨fun _ => [], fun _ => [], fun _ => []⟩ r t = [] := by cases hr <;> rfl
  rw [Buckets.of_foldl jobs _ hr, hempty, List.nil_append] at hentry
  obtain ⟨⟨id, entry'⟩, hmem, rfl⟩ := List.mem_map.mp hentry
  obtain ⟨hmem, hid⟩ := List.mem_filter.mp hmem
  obtain rfl : id = (r, t) := of_decide_eq_true hid
  have hjobs' : batchJobs K sIds batch (.of []) = some jobs := hjobs
  exact batchJobs_sorted hjobs' hmem hsId

end Within

/-- Every role has `kParallelism` threads. -/
abbrev size (K : Constants) : Role → ℕ := fun _ => K.kParallelism

private theorem readSIds_within : Action.Within workPlaces (foot K (.main, 0))
    (fun w : Work => some (w.1.2, w)) := by
  refine .look (g := fun w : Work => some w.1.2) (fun hagree => ?_)
  exact congrArg some ((Places.vectors _).ext (fun l => hagree (.inl (.inr l)) (Or.inl (.sId l.1 l.2))))

theorem safe_processBatch {b : ℕ} {memory : ℕ → Memory} {batch : List EventTuple}
    {rest : Script Work (Role × ℕ)} (h : rest.Safe workPlaces (foot K) (crews (size K) [])) :
    (processBatch K b memory batch rest).Safe workPlaces (foot K) (crews (size K) []) := by
  have hgad : ∀ r, Beside (foot K) .gad r := fun r => (beside_gad K r).symm
  have hmain : ∀ r ∈ [Role.gad], r ≠ Role.main ∧ Beside (foot K) r .main := by
    intro r hr
    rw [List.mem_singleton.mp hr]
    exact ⟨nofun, hgad .main⟩
  refine safe_act (resize_within batch) nofun (fun _ => ?_)
  -- the lookups, beside the reads of ACCESS_INFO
  refine safe_spawnAll rfl (fun t ht => sidThread_within batch .dcf ht)
    (by simp [beside_sid]) nofun ?_
  refine safe_spawnAll rfl (fun t ht => sidThread_within batch .icf ht)
    (by simp [beside_sid]) (by simp) ?_
  refine safe_spawnAll rfl (fun t ht => sidThread_within batch .ul ht)
    (by simp [beside_sid]) (by simp) ?_
  refine safe_spawnAll rfl (fun t _ => gadThread_within batch t)
    (fun r _ => beside_gad K r) (by simp) ?_
  refine safe_joinAll [.gad, .sid .ul, .sid .icf] rfl (by simp) ?_
  refine safe_joinAll [.gad, .sid .ul] rfl (by simp) ?_
  refine safe_joinAll [.gad] rfl (by simp) ?_
  refine safe_act readSIds_within hmain (fun sIds => safe_fetch hmain (fun bkts hfill => ?_))
  -- the buckets
  refine safe_spawnAll rfl (fun t _ => bucketThread_within b memory .dcfIcf t hfill)
    (by simp [hgad, beside_second K .dcfIcf .dcfIcf]) (by simp) ?_
  refine safe_spawnAll rfl (fun t _ => bucketThread_within b memory .gsdUlUsd t hfill)
    (by simp [hgad, beside_second K .gsdUlUsd .gsdUlUsd, beside_second K .dcfIcf .gsdUlUsd])
    (by simp) ?_
  refine safe_spawnAll rfl (fun t _ => bucketThread_within b memory .icfUsd t hfill)
    (by simp [hgad, beside_second K .icfUsd .icfUsd, beside_second K .dcfIcf .icfUsd,
      beside_second K .gsdUlUsd .icfUsd]) (by simp) ?_
  refine safe_joinAll [.icfUsd, .gsdUlUsd, .gad] rfl (by simp) ?_
  refine safe_joinAll [.icfUsd, .gad] rfl (by simp) ?_
  refine safe_joinAll [.gad] rfl (by simp) ?_
  exact safe_joinAll [] rfl (by simp) h

theorem safe_start (memories : ℕ → ℕ → Memory) (b : ℕ) (batches : List (List EventTuple)) :
    (start K memories b batches).Safe workPlaces (foot K) [] := by
  induction batches generalizing b with
  | nil => trivial
  | cons batch batches ih => exact safe_processBatch (ih (b + 1))

end ImdbD.Benchmark.TATP.TatpBatchProcessor
