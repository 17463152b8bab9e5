import ImdbD.TpccBatchRun

/-!
# The crews of a TPC-C batch do its jobs

The buckets of a crew hold one entry for each of its jobs, in the same order. So
the batch run thread by thread is what the main thread starts and waits for.
-/
namespace ImdbD.Benchmark.TPCC.TpccBatchProcessor
open AtomicProgram KeyedStore GuardedRun

variable {K : Constants} {P : ScaleParams} {v : Vectors} {batch before : List EventTuple}
  {jobs : List Job} {role : Role} {w w' z : Work} {α : Type}

/-- The jobs of a crew in the order of the queue. -/
def crewJobs (role : Role) (jobs : List Job) : List Job := jobs.filter (fun job => job.role = role)

private theorem threadJobs_eq (t : ℕ) : threadJobs K P jobs (role, t) =
    (crewJobs role jobs).filter (fun job => job.bucket K P = t) := by
  rw [threadJobs, crewJobs, List.filter_filter]
  refine List.filter_congr (fun job _ => ?_)
  simp [Job.thread, Prod.mk.injEq, and_comm]

/-- A job and the entry of a bucket that leads to it. -/
structure Enters (K : Constants) (P : ScaleParams) (batch : List EventTuple)
    (entryProgram : α → Program Work Unit) (job : Job) (entry : ℕ × α) : Prop where
  bucket : job.bucket K P = entry.1
  performs : perform K batch job ≤ entryProgram entry.2

variable {entryProgram : α → Program Work Unit} {entries : List (ℕ × α)}

private theorem run_crew {n : ℕ}
    (hentries : List.Forall₂ (Enters K P batch entryProgram) (crewJobs role jobs) entries)
    (h : run (jobStep (perform K batch)) w
      ((List.range n).flatMap (fun t => threadJobs K P jobs (role, t))) = some z) :
    (Program.each (fun t => Program.each entryProgram (bucket entries t)) (List.range n)).run w =
      some ((), z) := by
  have hthread : ∀ t, Program.each (perform K batch) (threadJobs K P jobs (role, t)) ≤
      Program.each entryProgram (bucket entries t) := by
    intro t
    refine Program.each_le ?_
    rw [threadJobs_eq, bucket, List.forall₂_map_right_iff]
    refine (List.rel_filter ?_ hentries).imp (fun job entry hentry => hentry.performs)
    intro job entry hentry
    simp [hentry.bucket]
  have hall : Program.each (fun t => Program.each (perform K batch) (threadJobs K P jobs (role, t)))
      (List.range n) ≤ Program.each (fun t => Program.each entryProgram (bucket entries t))
        (List.range n) :=
    Program.each_le (List.forall₂_same.mpr (fun t _ => hthread t))
  refine hall w _ ?_
  rw [← Program.each_flatMap, run_each, h]
  rfl

theorem crewJobs_append (jobs jobs' : List Job) :
    crewJobs role (jobs ++ jobs') = crewJobs role jobs ++ crewJobs role jobs' :=
  List.filter_append ..

/-- A loop over a batch fills the buckets of a crew with its jobs. -/
theorem emplaced_crew {emplace : Positions → EventTuple → Option (List (ℕ × α))}
    (htuple : ∀ before tuple after, batch = before ++ tuple :: after → ∃ es,
      emplace (.of before) tuple = some es ∧
      List.Forall₂ (Enters K P batch entryProgram) (crewJobs role (tupleJobs v (.of before) tuple))
        es) : ∃ entries, emplaced emplace (.of []) batch = some entries ∧
      List.Forall₂ (Enters K P batch entryProgram) (crewJobs role (batchJobs v (.of []) batch))
        entries := by
  have hrest : ∀ rest before, batch = before ++ rest → ∃ entries,
      emplaced emplace (.of before) rest = some entries ∧
      List.Forall₂ (Enters K P batch entryProgram) (crewJobs role (batchJobs v (.of before) rest))
        entries := by
    intro rest
    induction rest with
    | nil => exact fun before _ => ⟨[], rfl, .nil⟩
    | cons tuple rest ih =>
      intro before hbatch
      obtain ⟨es, hes, hfirst⟩ := htuple before tuple rest hbatch
      obtain ⟨entries, hentries, hlater⟩ := ih (before ++ [tuple]) (by simpa using hbatch)
      rw [← Positions.next_of] at hentries hlater
      refine ⟨es ++ entries, by simp [emplaced, hes, hentries], ?_⟩
      rw [batchJobs, crewJobs_append]
      exact List.rel_append hfirst hlater
  exact hrest batch [] rfl

section NewOrders
variable {param : NewOrderParam} {pos i : ℕ} {o : ℤ}

/-- Where a bucket has an entry with the position of a new order. -/
theorem fetch_newOrder (hparam : (newOrderParams batch)[pos]? = some param)
    (p : NewOrderParam → Program Work Unit) :
    (Program.fetch (newOrderParams batch)[pos]? >>= p) = p param := by
  rw [hparam]
  rfl

private theorem neworder12_le (hparam : (newOrderParams batch)[pos]? = some param) :
    perform K batch (.neworder12 pos param o) ≤ no12Entry K batch pos := by
  rw [no12Entry, fetch_newOrder hparam]
  exact Program.bind_le Program.le_rfl (fun _ => Program.bind_le Program.le_rfl (fun _ =>
    Program.expecting_le Program.le_rfl))

private theorem neworder6_le (hparam : (newOrderParams batch)[pos]? = some param) :
    perform K batch (.neworder6 pos param o) ≤ no6Entry K batch pos := by
  rw [no6Entry, fetch_newOrder hparam, perform]
  refine Program.expecting_le (Program.look_bind_le (fun w lines w' hrun => ?_) (fun lines =>
    Program.assert_bind_le Program.le_rfl))
  rw [onTables, Program.run_onFst, Program.run_onFst, run_selectRecords] at hrun
  cases hrun
  rfl

private theorem neworder4_le (hparam : (newOrderParams batch)[pos]? = some param) :
    perform K batch (.neworder4 pos param i) ≤ no4Entry batch (pos, i) := by
  rw [no4Entry, fetch_newOrder hparam]
  exact Program.le_rfl

private theorem neworder5_le (hparam : (newOrderParams batch)[pos]? = some param) :
    perform K batch (.neworder5 pos param i) ≤ no5Entry batch (pos, i) := by
  rw [no5Entry, fetch_newOrder hparam]
  exact Program.le_rfl

private theorem neworder3_le (hparam : (newOrderParams batch)[pos]? = some param) :
    perform K batch (.neworder3 pos param) ≤ neworderConflictEntry K batch (pos, -1) := by
  rw [neworderConflictEntry, if_pos rfl, fetch_newOrder hparam]
  exact Program.le_rfl

/-- The crews that walk over the items of the new orders. -/
theorem items_emplaced {entryProgram : ℕ × ℕ → Program Work Unit}
    (job : ℕ → NewOrderParam → ℕ → Job)
    (hjobs : ∀ pos param o, crewJobs role (newOrderJobs pos param o) =
      (List.range param.iIds.length).map (job pos param))
    (hdelivery : ∀ pos param found, crewJobs role (deliveryJobs pos param found) = [])
    (hpayment : ∀ param, crewJobs role (paymentJobs param) = [])
    (hbucket : ∀ pos param i, (job pos param i).bucket K P =
      itemBucket K P ((param.iIds[i]?).getD 0) ((param.iWIds[i]?).getD 0))
    (hle : ∀ pos param i, (newOrderParams batch)[pos]? = some param →
      perform K batch (job pos param i) ≤ entryProgram (pos, i))
    (hlen : ∀ param, .newOrder param ∈ batch → param.iWIds.length = param.iIds.length) :
    ∃ entries, emplaced (newOrderParamsIIdBkt K P) (.of []) batch = some entries ∧
      List.Forall₂ (Enters K P batch entryProgram) (crewJobs role (batchJobs v (.of []) batch))
        entries := by
  refine emplaced_crew (fun before tuple after hbatch => ?_)
  cases tuple with
  | newOrder param =>
    have hparam : (newOrderParams batch)[(newOrderParams before).length]? = some param :=
      hbatch ▸ newOrderParams_at before after param
    refine ⟨(List.range param.iIds.length).map (fun i => (itemBucket K P ((param.iIds[i]?).getD 0)
      ((param.iWIds[i]?).getD 0), ((newOrderParams before).length, i))), Lists.mapM_eq_some.mpr ?_, ?_⟩
    · refine List.forall₂_map_right_iff.mpr (List.forall₂_same.mpr (fun i hi => ?_))
      have hi' : i < param.iIds.length := List.mem_range.mp hi
      have hw : i < param.iWIds.length := by
        rw [hlen param (by simp [hbatch])]
        exact hi'
      simp [Positions.of, hi', hw]
    · rw [tupleJobs, hjobs, List.forall₂_map_left_iff, List.forall₂_map_right_iff]
      exact List.forall₂_same.mpr (fun i _ => ⟨hbucket .., hle _ param i hparam⟩)
  | delivery param => exact ⟨[], rfl, by rw [tupleJobs, hdelivery]; exact .nil⟩
  | payment param => exact ⟨[], rfl, by rw [tupleJobs, hpayment]; exact .nil⟩
  | endExecution => exact ⟨[], rfl, .nil⟩

theorem no4_emplaced
    (hlen : ∀ param, .newOrder param ∈ batch → param.iWIds.length = param.iIds.length) :
    ∃ entries, emplaced (newOrderParamsIIdBkt K P) (.of []) batch = some entries ∧
      List.Forall₂ (Enters K P batch (no4Entry batch)) (crewJobs .no4 (batchJobs v (.of []) batch))
        entries := by
  refine items_emplaced .neworder4 (fun pos param o => ?_) (fun pos param found => ?_)
    (fun param => rfl) (fun _ _ _ => rfl) (fun _ _ _ => neworder4_le) hlen
  · simp [crewJobs, newOrderJobs, Function.comp_def, Job.role, List.filter_map]
  · simp [crewJobs, deliveryJobs, Function.comp_def, Job.role, List.filter_map]

theorem no5_emplaced
    (hlen : ∀ param, .newOrder param ∈ batch → param.iWIds.length = param.iIds.length) :
    ∃ entries, emplaced (newOrderParamsIIdBkt K P) (.of []) batch = some entries ∧
      List.Forall₂ (Enters K P batch (no5Entry batch)) (crewJobs .no5 (batchJobs v (.of []) batch))
        entries := by
  refine items_emplaced .neworder5 (fun pos param o => ?_) (fun pos param found => ?_)
    (fun param => rfl) (fun _ _ _ => rfl) (fun _ _ _ => neworder5_le) hlen
  · simp [crewJobs, newOrderJobs, Function.comp_def, Job.role, List.filter_map]
  · simp [crewJobs, deliveryJobs, Function.comp_def, Job.role, List.filter_map]

private theorem orders_emplaced {entryProgram : ℕ → Program Work Unit} (job : ℕ → NewOrderParam → ℤ → Job)
    (hjobs : ∀ pos param o, crewJobs role (newOrderJobs pos param o) = [job pos param o])
    (hdelivery : ∀ pos param found, crewJobs role (deliveryJobs pos param found) = [])
    (hpayment : ∀ param, crewJobs role (paymentJobs param) = [])
    (hbucket : ∀ pos param o, (job pos param o).bucket K P = districtBucket K param.wId param.dId)
    (hle : ∀ pos param o, (newOrderParams batch)[pos]? = some param →
      perform K batch (job pos param o) ≤ entryProgram pos) :
    ∃ entries, emplaced (newOrderParamsBkt K) (.of []) batch = some entries ∧
      List.Forall₂ (Enters K P batch entryProgram) (crewJobs role (batchJobs v (.of []) batch))
        entries := by
  refine emplaced_crew (fun before tuple after hbatch => ?_)
  cases tuple with
  | newOrder param =>
    have hparam : (newOrderParams batch)[(newOrderParams before).length]? = some param :=
      hbatch ▸ newOrderParams_at before after param
    refine ⟨_, rfl, ?_⟩
    rw [tupleJobs, hjobs]
    exact .cons ⟨hbucket .., hle _ param _ hparam⟩ .nil
  | delivery param => exact ⟨[], rfl, by rw [tupleJobs, hdelivery]; exact .nil⟩
  | payment param => exact ⟨[], rfl, by rw [tupleJobs, hpayment]; exact .nil⟩
  | endExecution => exact ⟨[], rfl, .nil⟩

theorem no12_emplaced (K : Constants) (P : ScaleParams) (v : Vectors) (batch : List EventTuple) :
    ∃ entries, emplaced (newOrderParamsBkt K) (.of []) batch = some entries ∧
      List.Forall₂ (Enters K P batch (no12Entry K batch))
        (crewJobs .no12 (batchJobs v (.of []) batch)) entries := by
  refine orders_emplaced .neworder12 (fun pos param o => ?_) (fun pos param found => ?_)
    (fun param => rfl) (fun _ _ _ => rfl) (fun _ _ _ => neworder12_le)
  · simp [crewJobs, newOrderJobs, Function.comp_def, Job.role, List.filter_map]
  · simp [crewJobs, deliveryJobs, Function.comp_def, Job.role, List.filter_map]

theorem no6_emplaced (K : Constants) (P : ScaleParams) (v : Vectors) (batch : List EventTuple) :
    ∃ entries, emplaced (newOrderParamsBkt K) (.of []) batch = some entries ∧
      List.Forall₂ (Enters K P batch (no6Entry K batch))
        (crewJobs .no6 (batchJobs v (.of []) batch)) entries := by
  refine orders_emplaced .neworder6 (fun pos param o => ?_) (fun pos param found => ?_)
    (fun param => rfl) (fun _ _ _ => rfl) (fun _ _ _ => neworder6_le)
  · simp [crewJobs, newOrderJobs, Function.comp_def, Job.role, List.filter_map]
  · simp [crewJobs, deliveryJobs, Function.comp_def, Job.role, List.filter_map]

end NewOrders

section Deliveries
variable {param : DeliveryParam} {pos : ℕ} {d o : ℤ}

theorem fetch_delivery (hparam : (deliveryParams batch)[pos]? = some param)
    (p : DeliveryParam → Program Work Unit) :
    (Program.fetch (deliveryParams batch)[pos]? >>= p) = p param := by
  rw [hparam]
  rfl

private theorem delivery1_le (hparam : (deliveryParams batch)[pos]? = some param) (hd : 0 ≤ d) :
    perform K batch (.delivery1 pos param d) ≤ neworderConflictEntry K batch (pos, d) := by
  have hne : d ≠ -1 := by omega
  rw [neworderConflictEntry, if_neg hne, fetch_delivery hparam]
  exact Program.le_rfl

private theorem delivery2_le (hparam : (deliveryParams batch)[pos]? = some param) :
    perform K batch (.delivery2 pos param d o) ≤ del2Entry K batch (pos, d) := by
  rw [del2Entry, fetch_delivery hparam]
  exact Program.expecting_le Program.le_rfl

private theorem delivery3_le (hparam : (deliveryParams batch)[pos]? = some param) :
    perform K batch (.delivery3 pos param d o) ≤ del3Entry K batch (pos, d) := by
  rw [del3Entry, fetch_delivery hparam]
  exact Program.expecting_le Program.le_rfl

private theorem delivery4_le (hparam : (deliveryParams batch)[pos]? = some param) (hd : 0 ≤ d) :
    perform K batch (.delivery4 pos param d) ≤ conflict2Entry batch (pos, d) := by
  have hne : d ≠ -1 := by omega
  rw [conflict2Entry, if_neg hne, fetch_delivery hparam]
  exact Program.le_rfl

theorem neworderConflict_emplaced (K : Constants) (P : ScaleParams) (v : Vectors)
    (batch : List EventTuple) :
    ∃ entries, emplaced (dNMixedBkt K) (.of []) batch = some entries ∧
      List.Forall₂ (Enters K P batch (neworderConflictEntry K batch))
        (crewJobs .neworderConflict (batchJobs v (.of []) batch)) entries := by
  refine emplaced_crew (fun before tuple after hbatch => ?_)
  cases tuple with
  | newOrder param =>
    have hparam : (newOrderParams batch)[(newOrderParams before).length]? = some param :=
      hbatch ▸ newOrderParams_at before after param
    refine ⟨_, rfl, ?_⟩
    have hjobs : ∀ o,
        crewJobs .neworderConflict (newOrderJobs (newOrderParams before).length param o) =
          [.neworder3 (newOrderParams before).length param] := fun o => by
      simp [crewJobs, newOrderJobs, Function.comp_def, Job.role, List.filter_map]
    rw [tupleJobs, Positions.of, hjobs]
    exact .cons ⟨rfl, neworder3_le hparam⟩ .nil
  | delivery param =>
    have hparam : (deliveryParams batch)[(deliveryParams before).length]? = some param :=
      hbatch ▸ deliveryParams_at before after param
    refine ⟨_, rfl, ?_⟩
    have hjobs : ∀ found, crewJobs .neworderConflict
        (deliveryJobs (deliveryParams before).length param found) =
          (upTo DISTRICTS_PER_WAREHOUSE).map (.delivery1 (deliveryParams before).length param) :=
      fun found => by
        simp [crewJobs, deliveryJobs, Function.comp_def, Job.role, List.filter_map]
    rw [tupleJobs, Positions.of, hjobs, List.forall₂_map_left_iff, List.forall₂_map_right_iff]
    refine List.forall₂_same.mpr (fun d hd => ⟨rfl, delivery1_le hparam ?_⟩)
    have := (mem_upTo.mp hd).1
    omega
  | payment param => exact ⟨[], rfl, .nil⟩
  | endExecution => exact ⟨[], rfl, .nil⟩

/-- The districts in which a delivery has found an order, as the second loop sees them. -/
theorem deliveryParamsBkt_eq
    (hsize : ∀ pos < (deliveryParams batch).length, (v (.noOIdsVector pos)).length = 11)
    {positions : Positions} (hparam : (deliveryParams batch)[positions.deliveryPos]? = some param) :
    deliveryParamsBkt K (noOIdsVector batch v) positions (.delivery param) =
      some ((foundIn (v (.noOIdsVector positions.deliveryPos))).map (fun e =>
        (districtBucket K param.wId e.1, (positions.deliveryPos, e.1)))) := by
  have hlt := (List.getElem?_eq_some_iff.mp hparam).1
  have hvector : (noOIdsVector batch v)[positions.deliveryPos]? =
      some (v (.noOIdsVector positions.deliveryPos)) := by
    rw [noOIdsVector, List.getElem?_map, List.getElem?_range hlt]
    rfl
  have hfound : (upTo DISTRICTS_PER_WAREHOUSE).mapM (fun noDId => do
      let noOId ← (v (.noOIdsVector positions.deliveryPos))[noDId.toNat]?
      return if noOId ≠ -1 then
        some (districtBucket K param.wId noDId, (positions.deliveryPos, noDId)) else none) =
      some ((upTo DISTRICTS_PER_WAREHOUSE).map (fun noDId =>
        if ((v (.noOIdsVector positions.deliveryPos))[noDId.toNat]?).getD (-1) ≠ -1 then
          some (districtBucket K param.wId noDId, (positions.deliveryPos, noDId)) else none)) := by
    refine Lists.mapM_eq_some.mpr (List.forall₂_map_right_iff.mpr (List.forall₂_same.mpr (fun d hd => ?_)))
    have hd' : d.toNat < (v (.noOIdsVector positions.deliveryPos)).length := by
      have := mem_upTo.mp hd
      rw [hsize _ hlt]
      simp only [DISTRICTS_PER_WAREHOUSE] at this
      omega
    rw [List.getElem?_eq_getElem hd']
    rfl
  rw [deliveryParamsBkt, hvector, Option.bind_eq_bind, Option.bind_some, hfound]
  refine congrArg some ?_
  rw [foundIn, ← List.reduceOption_map, List.map_map]
  refine congrArg List.reduceOption (List.map_congr_left (fun d _ => ?_))
  by_cases hne : ((v (.noOIdsVector positions.deliveryPos))[d.toNat]?).getD (-1) ≠ -1
  · simp [hne]
  · simp [hne]

private theorem found_emplaced {entryProgram : ℕ × ℤ → Program Work Unit}
    (job : ℕ → DeliveryParam → ℤ → ℤ → Job)
    (hsize : ∀ pos < (deliveryParams batch).length, (v (.noOIdsVector pos)).length = 11)
    (hjobs : ∀ pos param found, crewJobs role (deliveryJobs pos param found) =
      found.map (fun e => job pos param e.1 e.2))
    (hnewOrder : ∀ pos param o, crewJobs role (newOrderJobs pos param o) = [])
    (hpayment : ∀ param, crewJobs role (paymentJobs param) = [])
    (hbucket : ∀ pos param d o, (job pos param d o).bucket K P = districtBucket K param.wId d)
    (hle : ∀ pos param d o, (deliveryParams batch)[pos]? = some param →
      perform K batch (job pos param d o) ≤ entryProgram (pos, d)) :
    ∃ entries, emplaced (deliveryParamsBkt K (noOIdsVector batch v)) (.of []) batch = some entries ∧
      List.Forall₂ (Enters K P batch entryProgram) (crewJobs role (batchJobs v (.of []) batch))
        entries := by
  refine emplaced_crew (fun before tuple after hbatch => ?_)
  cases tuple with
  | newOrder param => exact ⟨[], rfl, by rw [tupleJobs, hnewOrder]; exact .nil⟩
  | delivery param =>
    have hparam : (deliveryParams batch)[(deliveryParams before).length]? = some param :=
      hbatch ▸ deliveryParams_at before after param
    refine ⟨_, deliveryParamsBkt_eq hsize hparam, ?_⟩
    rw [tupleJobs, hjobs, List.forall₂_map_left_iff, List.forall₂_map_right_iff]
    exact List.forall₂_same.mpr (fun e _ => ⟨hbucket .., hle _ param _ _ hparam⟩)
  | payment param => exact ⟨[], rfl, by rw [tupleJobs, hpayment]; exact .nil⟩
  | endExecution => exact ⟨[], rfl, .nil⟩

theorem del3_emplaced
    (hsize : ∀ pos < (deliveryParams batch).length, (v (.noOIdsVector pos)).length = 11) :
    ∃ entries, emplaced (deliveryParamsBkt K (noOIdsVector batch v)) (.of []) batch = some entries ∧
      List.Forall₂ (Enters K P batch (del3Entry K batch))
        (crewJobs .del3 (batchJobs v (.of []) batch)) entries := by
  refine found_emplaced .delivery3 hsize (fun pos param found => ?_) (fun pos param o => ?_)
    (fun param => rfl) (fun _ _ _ _ => rfl) (fun _ _ _ _ => delivery3_le)
  · simp [crewJobs, deliveryJobs, Function.comp_def, Job.role, List.filter_map]
  · simp [crewJobs, newOrderJobs, Function.comp_def, Job.role, List.filter_map]

theorem del2_emplaced
    (hsize : ∀ pos < (deliveryParams batch).length, (v (.noOIdsVector pos)).length = 11) :
    ∃ entries, emplaced (deliveryParamsBkt K (noOIdsVector batch v)) (.of []) batch = some entries ∧
      List.Forall₂ (Enters K P batch (del2Entry K batch))
        (crewJobs .del2 (batchJobs v (.of []) batch)) entries := by
  refine found_emplaced .delivery2 hsize (fun pos param found => ?_) (fun pos param o => ?_)
    (fun param => rfl) (fun _ _ _ _ => rfl) (fun _ _ _ _ => delivery2_le)
  · simp [crewJobs, deliveryJobs, Function.comp_def, Job.role, List.filter_map]
  · simp [crewJobs, newOrderJobs, Function.comp_def, Job.role, List.filter_map]

private theorem payment4_le {param : PaymentParam} (hparam : (paymentParams batch)[pos]? = some param) :
    perform K batch (.payment4 param) ≤ conflict2Entry batch (pos, -1) := by
  rw [conflict2Entry, if_pos rfl, hparam]
  exact Program.le_rfl

theorem conflict2_emplaced
    (hsize : ∀ pos < (deliveryParams batch).length, (v (.noOIdsVector pos)).length = 11) :
    ∃ entries, emplaced (dPMixedBkt K (noOIdsVector batch v)) (.of []) batch = some entries ∧
      List.Forall₂ (Enters K P batch (conflict2Entry batch))
        (crewJobs .conflict2 (batchJobs v (.of []) batch)) entries := by
  refine emplaced_crew (fun before tuple after hbatch => ?_)
  cases tuple with
  | newOrder param =>
    refine ⟨[], rfl, ?_⟩
    have hjobs : ∀ pos o, crewJobs .conflict2 (newOrderJobs pos param o) = [] := fun pos o => by
      simp [crewJobs, newOrderJobs, Function.comp_def, Job.role, List.filter_map]
    rw [tupleJobs, hjobs]
    exact .nil
  | delivery param =>
    have hparam : (deliveryParams batch)[(deliveryParams before).length]? = some param :=
      hbatch ▸ deliveryParams_at before after param
    refine ⟨_, deliveryParamsBkt_eq hsize hparam, ?_⟩
    have hjobs : ∀ found, crewJobs .conflict2
        (deliveryJobs (deliveryParams before).length param found) =
          found.map (fun e => .delivery4 (deliveryParams before).length param e.1) := fun found => by
      simp [crewJobs, deliveryJobs, Function.comp_def, Job.role, List.filter_map]
    rw [tupleJobs, Positions.of, hjobs, List.forall₂_map_left_iff, List.forall₂_map_right_iff]
    refine List.forall₂_same.mpr (fun e he => ⟨rfl, delivery4_le hparam ?_⟩)
    have := (mem_upTo.mp (mem_foundIn he)).1
    omega
  | payment param =>
    have hparam : (paymentParams batch)[(paymentParams before).length]? = some param :=
      hbatch ▸ paymentParams_at before after param
    exact ⟨_, rfl, .cons ⟨rfl, payment4_le hparam⟩ .nil⟩
  | endExecution => exact ⟨[], rfl, .nil⟩

end Deliveries
/-- The crews that have one job for every payment. -/
theorem payments_crew (job : PaymentParam → Job)
    (hnewOrder : ∀ pos param o, crewJobs role (newOrderJobs pos param o) = [])
    (hdelivery : ∀ pos param found, crewJobs role (deliveryJobs pos param found) = [])
    (hpayment : ∀ param, crewJobs role (paymentJobs param) = [job param]) (pos : Positions)
    (batch : List EventTuple) :
    crewJobs role (batchJobs v pos batch) = (paymentParams batch).map job := by
  induction batch generalizing pos with
  | nil => rfl
  | cons tuple batch ih =>
    rw [batchJobs, crewJobs_append, ih]
    cases tuple with
    | newOrder param => rw [tupleJobs, hnewOrder]; rfl
    | delivery param => rw [tupleJobs, hdelivery]; rfl
    | payment param => rw [tupleJobs, hpayment]; rfl
    | endExecution => rfl

theorem paymentTxn1_crew (pos : Positions) (batch : List EventTuple) :
    crewJobs .paymentTxn1 (batchJobs v pos batch) = (paymentParams batch).map .payment1 := by
  refine payments_crew .payment1 (fun pos param o => ?_) (fun pos param found => ?_)
    (fun param => rfl) pos batch
  · simp [crewJobs, newOrderJobs, Function.comp_def, Job.role, List.filter_map]
  · simp [crewJobs, deliveryJobs, Function.comp_def, Job.role, List.filter_map]

theorem paymentTxn2_crew (pos : Positions) (batch : List EventTuple) :
    crewJobs .paymentTxn2 (batchJobs v pos batch) = (paymentParams batch).map .payment2 := by
  refine payments_crew .payment2 (fun pos param o => ?_) (fun pos param found => ?_)
    (fun param => rfl) pos batch
  · simp [crewJobs, newOrderJobs, Function.comp_def, Job.role, List.filter_map]
  · simp [crewJobs, deliveryJobs, Function.comp_def, Job.role, List.filter_map]

theorem paymentTxn3_crew (pos : Positions) (batch : List EventTuple) :
    crewJobs .paymentTxn3 (batchJobs v pos batch) = (paymentParams batch).map .payment3 := by
  refine payments_crew .payment3 (fun pos param o => ?_) (fun pos param found => ?_)
    (fun param => rfl) pos batch
  · simp [crewJobs, newOrderJobs, Function.comp_def, Job.role, List.filter_map]
  · simp [crewJobs, deliveryJobs, Function.comp_def, Job.role, List.filter_map]

/-- What the threads of a crew do, one after the other. -/
def CrewRuns (K : Constants) (P : ScaleParams) (v : Vectors) (batch : List EventTuple) (role : Role)
    (w w' : Work) : Prop :=
  run (jobStep (perform K batch)) w ((List.range (role.size K)).flatMap
    (fun t => threadJobs K P (allJobs v batch) (role, t))) = some w'

/-- What some crews do, one after the other. -/
def CrewsRun (K : Constants) (P : ScaleParams) (v : Vectors) (batch : List EventTuple) :
    List Role → Work → Work → Prop
  | [], w, z => w = z
  | role :: roles, w, z =>
    ∃ w', CrewRuns K P v batch role w w' ∧ CrewsRun K P v batch roles w' z

theorem run_crews {roles : List Role}
    (h : run (jobStep (perform K batch)) w
      ((crews (Role.size K) roles).flatMap (threadJobs K P (allJobs v batch))) = some z) :
    CrewsRun K P v batch roles w z := by
  induction roles generalizing w with
  | nil => exact Option.some.inj h
  | cons role roles ih =>
    rw [crews_cons, List.flatMap_append, run_append] at h
    obtain ⟨w', hfirst, hrest⟩ := Option.bind_eq_some_iff.mp h
    refine ⟨w', ?_, ih hrest⟩
    rwa [crews, List.flatMap_singleton, List.flatMap_map] at hfirst

private theorem crewJobs_allJobs (h : role ∈ tupleRoles) :
    crewJobs role (allJobs v batch) = crewJobs role (batchJobs v (.of []) batch) := by
  have hresize : role ≠ .resize := fun he => by subst he; revert h; decide
  have hrecreate : role ≠ .recreate := fun he => by subst he; revert h; decide
  have hfound : role ≠ .found := fun he => by subst he; revert h; decide
  rw [allJobs, crewJobs_append, crewJobs_append]
  simp [crewJobs, Job.role, hresize.symm, hrecreate.symm, hfound.symm]

/-- A crew does what its buckets say. -/
theorem CrewRuns.fromBuckets {n : ℕ} (h : CrewRuns K P v batch role w w') (hrole : role ∈ tupleRoles)
    (hsize : role.size K = n) (hentries : List.Forall₂ (Enters K P batch entryProgram)
      (crewJobs role (batchJobs v (.of []) batch)) entries) :
    (Program.each (fun t => Program.each entryProgram (bucket entries t))
      (List.range n)).run w = some ((), w') := by
  subst hsize
  rw [← crewJobs_allJobs hrole] at hentries
  exact run_crew hentries h

theorem CrewRuns.alone (h : CrewRuns K P v batch role w w') (hsize : role.size K = 1) :
    run (jobStep (perform K batch)) w (crewJobs role (allJobs v batch)) = some w' := by
  have hall : threadJobs K P (allJobs v batch) (role, 0) = crewJobs role (allJobs v batch) := by
    rw [threadJobs_eq, List.filter_eq_self]
    intro job hjob
    have hlt := bucket_lt (K := K) (P := P) job
    have hrole : job.role = role := of_decide_eq_true (List.mem_filter.mp hjob).2
    rw [hrole, hsize] at hlt
    exact decide_eq_true (Nat.lt_one_iff.mp hlt)
  rw [CrewRuns, hsize, List.range_one, List.flatMap_singleton, hall] at h
  exact h

/-- The thread that has one job for every payment. -/
theorem CrewRuns.payments {job : PaymentParam → Job} (h : CrewRuns K P v batch role w w')
    (hrole : role ∈ tupleRoles) (hsize : role.size K = 1)
    (hjobs : crewJobs role (batchJobs v (.of []) batch) = (paymentParams batch).map job) :
    (Program.each (fun _ => Program.each (fun param => perform K batch (job param))
      (paymentParams batch)) (List.range 1)).run w = some ((), w') := by
  have hrun := h.alone hsize
  rw [crewJobs_allJobs hrole, hjobs] at hrun
  have heach := run_each (perform K batch) ((paymentParams batch).map job) w
  rw [hrun, Program.each_map] at heach
  rw [List.range_one, Program.run_each_cons, heach]
  rfl

theorem CrewRuns.act {job : Job} (h : CrewRuns K P v batch role w w') (hsize : role.size K = 1)
    (hjobs : crewJobs role (allJobs v batch) = [job]) :
    (perform K batch job).run w = some ((), w') := by
  have hrun := h.alone hsize
  rw [hjobs] at hrun
  obtain ⟨u, hu, he⟩ := Option.bind_eq_some_iff.mp hrun
  cases he
  exact jobStep_eq_some.mp hu

theorem act_jobs (hrole : role ∉ tupleRoles) :
    crewJobs role (allJobs v batch) =
      crewJobs role [.resize, .recreate, .found (noOIdsVector batch v)] := by
  have hnone : crewJobs role (batchJobs v (.of []) batch) = [] := by
    refine List.filter_eq_nil_iff.mpr (fun job hjob he => hrole ?_)
    exact of_decide_eq_true he ▸ (mem_batchJobs hjob).2.2
  rw [allJobs, crewJobs_append, crewJobs_append, hnone, List.append_nil, ← crewJobs_append]
  rfl

theorem CrewRuns.resize (h : CrewRuns K P v batch .resize w w') :
    w' = (w.1, resized batch w.2) := by
  have hrun := h.act rfl ((act_jobs (by decide)).trans rfl)
  cases hrun
  rfl

theorem CrewRuns.recreate (h : CrewRuns K P v batch .recreate w w') :
    w' = (w.1, recreated batch w.2) := by
  have hrun := h.act rfl ((act_jobs (by decide)).trans rfl)
  cases hrun
  rfl

theorem CrewRuns.found (h : CrewRuns K P v batch .found w w') :
    w' = w ∧ noOIdsVector batch w.2 = noOIdsVector batch v := by
  have hrun := h.act rfl ((act_jobs (by decide)).trans rfl)
  rw [perform] at hrun
  obtain ⟨u, hread, hthen⟩ := Program.run_expecting_eq_some hrun
  cases hthen
  obtain ⟨he, hw⟩ := Prod.mk.inj (Option.some.inj hread)
  exact ⟨hw.symm, he⟩

end ImdbD.Benchmark.TPCC.TpccBatchProcessor
