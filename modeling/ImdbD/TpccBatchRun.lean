import ImdbD.TpccBatchTuples

/-!
# A batch of TPC-C in the order of the queue

Tuple by tuple the jobs of a batch follow the serial processor. What the main
thread does to the vectors comes first, what it reads of them last.
-/
namespace ImdbD.Benchmark.TPCC.TpccBatchProcessor
open AtomicProgram KeyedStore GuardedRun

variable {K : Constants} {P : ScaleParams} {t : State} {v v' v'' : Vectors}
  {batch before after : List EventTuple} {tuple : EventTuple}

/-- The vectors when the main thread has got them all ready. -/
def prepared (batch : List EventTuple) : Vectors := recreated batch (resized batch (created batch))

/-- The vectors when the tuples so far have had their jobs done. -/
structure Progress (batch before : List EventTuple) (v : Vectors) : Prop where
  sized : ∀ vec, (v vec).length = (prepared batch vec).length
  fresh : ∀ i, (Positions.of before).deliveryPos ≤ i →
    v (.noOIdsVector i) = prepared batch (.noOIdsVector i)

/-- The numbers that the tuples before some positions have got stay. -/
structure Told (pos : Positions) (v v' : Vectors) : Prop where
  number : ∀ i < pos.newOrderPos, (v' .dNextOIdVector)[i]? = (v .dNextOIdVector)[i]?
  noOIds : ∀ i < pos.deliveryPos, v' (.noOIdsVector i) = v (.noOIdsVector i)

theorem Told.trans {pos : Positions} (h : Told pos v v') (h' : Told pos v' v'') : Told pos v v'' :=
  ⟨fun i hi => (h'.number i hi).trans (h.number i hi),
    fun i hi => (h'.noOIds i hi).trans (h.noOIds i hi)⟩

private theorem Positions.le_next (pos : Positions) (tuple : EventTuple) :
    pos.newOrderPos ≤ (pos.next tuple).newOrderPos ∧
      pos.deliveryPos ≤ (pos.next tuple).deliveryPos := by
  cases tuple <;> simp [next]

theorem Told.of_next {pos : Positions} (h : Told (pos.next tuple) v v') : Told pos v v' := by
  obtain ⟨hnew, hdel⟩ := pos.le_next tuple
  exact ⟨fun i hi => h.number i (lt_of_lt_of_le hi hnew),
    fun i hi => h.noOIds i (lt_of_lt_of_le hi hdel)⟩

private theorem Told.tupleJobs_eq {pos : Positions} (h : Told (pos.next tuple) v v') :
    tupleJobs v' pos tuple = tupleJobs v pos tuple := by
  cases tuple with
  | newOrder param => rw [tupleJobs, tupleJobs, h.number _ (Nat.lt_succ_self _)]
  | delivery param => rw [tupleJobs, tupleJobs, h.noOIds _ (Nat.lt_succ_self _)]
  | payment _ | endExecution => rfl

section Sizes
variable {pos : ℕ}

private theorem length_dNextOIdVector (h : Progress batch before v) {param : NewOrderParam}
    (hparam : (newOrderParams batch)[pos]? = some param) : pos < (v .dNextOIdVector).length := by
  have hlen : (v .dNextOIdVector).length = (newOrderParams batch).length :=
    (h.sized _).trans List.length_replicate
  rw [hlen]
  exact (List.getElem?_eq_some_iff.mp hparam).1

private theorem length_sDistsVector (h : Progress batch before v) {param : NewOrderParam}
    (hparam : (newOrderParams batch)[pos]? = some param) :
    (v (.sDistsVector pos)).length = param.iIds.length := by
  rw [h.sized]
  simp [prepared, recreated, resized, created, hparam]

private theorem length_olAmountsVector (h : Progress batch before v) {param : NewOrderParam}
    (hparam : (newOrderParams batch)[pos]? = some param) :
    (v (.olAmountsVector pos)).length = param.iIds.length := by
  rw [h.sized]
  simp [prepared, recreated, resized, created, hparam]

theorem prepared_delivery {param : DeliveryParam}
    (hparam : (deliveryParams batch)[pos]? = some param) :
    prepared batch (.noOIdsVector pos) = perDistrict (-1) ∧
    prepared batch (.sumsVector pos) = perDistrict (-1) ∧
    prepared batch (.cIdsVector pos) = perDistrict (-1) := by
  have hlt := (List.getElem?_eq_some_iff.mp hparam).1
  simp [prepared, recreated, resized, created, hlt]

theorem length_perDistrict {α : Type} (a : α) : (perDistrict a).length = 11 := by
  simp [perDistrict, DISTRICTS_PER_WAREHOUSE]

end Sizes

/-- The vector of a delivery tells the orders that it has found. -/
theorem foundIn_fill {s : Tables} {w : ℤ} (hne : ∀ e ∈ foundOrders K s w, e.2 ≠ -1) :
    foundIn (fill districtAt Prod.snd (foundOrders K s w) (perDistrict (-1))) = foundOrders K s w := by
  rw [foundIn]
  conv_rhs => rw [foundOrders]
  refine congrArg List.reduceOption (List.map_congr_left (fun d hd => ?_))
  cases hnext : nextOrder K s w d with
  | none =>
    have hother : ∀ e ∈ foundOrders K s w, districtAt e ≠ d.toNat := by
      intro e he heq
      obtain ⟨hd', ho⟩ := mem_foundOrders.mp he
      have h₁ := (mem_upTo.mp hd').1
      have h₂ := (mem_upTo.mp hd).1
      have hde : e.1 = d := by
        rw [districtAt] at heq
        omega
      rw [hde, hnext] at ho
      cases ho
    rw [getElem?_fill_of_not_mem hother]
    have hget : ((perDistrict (-1 : ℤ))[d.toNat]?).getD (-1) = -1 := by
      rw [perDistrict, List.getElem?_replicate]
      split <;> rfl
    simp [hget]
  | some o =>
    have he : (d, o) ∈ foundOrders K s w := mem_foundOrders.mpr ⟨hd, hnext⟩
    have hget : (fill districtAt Prod.snd (foundOrders K s w) (perDistrict (-1)))[d.toNat]? = some o :=
      getElem?_fill (a := (d, o)) (nodup_districtAt K s w) he
        (by rw [length_perDistrict]; exact districtAt_lt he)
    simp [hget, hne (d, o) he]

private theorem foundOrders_ne {s : Tables} (h : Ledger K P s) {w : ℤ} (hw : (s.row .warehouse w).isSome) :
    ∀ e ∈ foundOrders K s w, e.2 ≠ -1 := by
  intro e he
  obtain ⟨hd, ho⟩ := mem_foundOrders.mp he
  obtain ⟨hd₁, hd₂⟩ := mem_upTo.mp hd
  obtain ⟨hw₁, hw₂⟩ := (h.warehouse w).mp hw
  obtain ⟨next, first, hbook⟩ := h.book e.1 w ⟨hd₁, hd₂, hw₁, hw₂⟩
  rw [hbook.nextOrder_eq] at ho
  have hfirst := hbook.first_pos
  split at ho
  · obtain rfl := Option.some.inj ho
    omega
  · cases ho

/-- The serial processor on one tuple, and the jobs of the tuple. -/
structure Matches (K : Constants) (P : ScaleParams) (batch before : List EventTuple) (txn : Txn)
    (t : State) (v : Vectors) (t' : State) (v' : Vectors) : Prop where
  serial : TpccSerialProcessor.step K t txn = some t'
  ledger : Ledger K P t'.1
  progress : Progress batch (before ++ [txn.1]) v'
  told : Told (.of before) v v'
  jobs : (Program.each (perform K batch) (tupleJobs v' (.of before) txn.1)).run (t, v) =
    some ((), (t', v'))

section NewOrder
variable {param : NewOrderParam} {s : Tables} {pos : ℕ} {o : ℤ}

private theorem length_newOrderVectors (hdists : (v (.sDistsVector pos)).length = param.iIds.length)
    (hamounts : (v (.olAmountsVector pos)).length = param.iIds.length) (vec : Vec) :
    (newOrderVectors param s pos o v vec).length = (v vec).length := by
  by_cases ha : vec = .olAmountsVector pos
  · subst ha
    rw [newOrderVectors, Function.update_self, List.length_map, param.length_items, hamounts]
  by_cases hd : vec = .sDistsVector pos
  · subst hd
    rw [newOrderVectors, Function.update_of_ne ha, Function.update_self, List.length_map,
      param.length_items, hdists]
  by_cases hn : vec = .dNextOIdVector
  · subst hn
    rw [newOrderVectors, Function.update_of_ne ha, Function.update_of_ne hd, Function.update_self,
      List.length_set]
  · rw [newOrderVectors, Function.update_of_ne ha, Function.update_of_ne hd, Function.update_of_ne hn]

private theorem newOrderVectors_noOIds (i : ℕ) :
    newOrderVectors param s pos o v (.noOIdsVector i) = v (.noOIdsVector i) := by
  rw [newOrderVectors, Function.update_of_ne (by simp), Function.update_of_ne (by simp),
    Function.update_of_ne (by simp)]

private theorem newOrderVectors_number :
    newOrderVectors param s pos o v .dNextOIdVector = (v .dNextOIdVector).set pos o := by
  rw [newOrderVectors, Function.update_of_ne (by simp), Function.update_of_ne (by simp),
    Function.update_self]

end NewOrder

theorem Progress.newOrder {param : NewOrderParam} {s : Tables} {o : ℤ}
    (hp : Progress (before ++ .newOrder param :: after) before v) :
    Progress (before ++ .newOrder param :: after) (before ++ [.newOrder param])
      (newOrderVectors param s (newOrderParams before).length o v) := by
  have hparam := newOrderParams_at before after param
  refine ⟨fun vec => ?_, fun i hi => ?_⟩
  · rw [length_newOrderVectors (length_sDistsVector hp hparam) (length_olAmountsVector hp hparam),
      hp.sized]
  · rw [← Positions.next_of] at hi
    rw [newOrderVectors_noOIds, hp.fresh i hi]

theorem matches_newOrder {param : NewOrderParam} {order : IterationOrder} (h : Ledger K P t.1)
    (hv : param.Valid t.1) (hp : Progress (before ++ .newOrder param :: after) before v) :
    ∃ t' v', Matches K P (before ++ .newOrder param :: after) before (.newOrder param, order) t v
      t' v' := by
  obtain ⟨s, rand⟩ := t
  obtain ⟨next, first, hbook, hledger⟩ := h.newOrder hv
  have hparam := newOrderParams_at before after param
  have hpos := length_dNextOIdVector hp hparam
  have hserial : Program.Ensures True (TpccSerialProcessor.processNewOrder K param) (s, rand) _ :=
    processNewOrder_spec (hbook.orderable hv)
  obtain ⟨_, ⟨s', _⟩, hrun, hrand, hstage⟩ := hserial.exists_run trivial
  obtain rfl := hrand.symm
  have hjobs : Program.Ensures True (Program.each (perform K (before ++ .newOrder param :: after)) _)
      ((s, rand), v) _ :=
    newOrderJobs_spec (hbook.orderable hv) (hbook.groups_next hv) hpos
      (length_sDistsVector hp hparam) (length_olAmountsVector hp hparam)
  obtain ⟨_, _, hrun', s'', rfl, hstage'⟩ := hjobs.exists_run trivial
  obtain rfl := hstage.unique hstage'
  refine ⟨(s', rand), newOrderVectors param s (newOrderParams before).length next v,
    congrArg (Option.map Prod.snd) hrun, hledger s' hstage, hp.newOrder, ⟨fun i hi => ?_,
    fun i _ => newOrderVectors_noOIds i⟩, ?_⟩
  · rw [newOrderVectors_number]
    exact List.getElem?_set_ne (ne_of_gt hi)
  · simp only [tupleJobs, Positions.of, newOrderVectors_number, List.getElem?_set_self hpos,
      Option.getD_some]
    exact hrun'

section Delivery
variable {param : DeliveryParam} {s : Tables} {pos : ℕ}

private theorem length_deliveryVectors (vec : Vec) :
    (deliveryVectors K param s pos v vec).length = (v vec).length := by
  by_cases hc : vec = .cIdsVector pos
  · subst hc
    rw [deliveryVectors, Function.update_self, length_fill]
  by_cases hs : vec = .sumsVector pos
  · subst hs
    rw [deliveryVectors, Function.update_of_ne hc, Function.update_self, length_fill]
  by_cases hn : vec = .noOIdsVector pos
  · subst hn
    rw [deliveryVectors, Function.update_of_ne hc, Function.update_of_ne hs, Function.update_self,
      length_fill]
  · rw [deliveryVectors, Function.update_of_ne hc, Function.update_of_ne hs, Function.update_of_ne hn]

private theorem deliveryVectors_number :
    deliveryVectors K param s pos v .dNextOIdVector = v .dNextOIdVector := by
  rw [deliveryVectors, Function.update_of_ne (by simp), Function.update_of_ne (by simp),
    Function.update_of_ne (by simp)]

private theorem deliveryVectors_noOIds : deliveryVectors K param s pos v (.noOIdsVector pos) =
    fill districtAt Prod.snd (foundOrders K s param.wId) (v (.noOIdsVector pos)) := by
  rw [deliveryVectors, Function.update_of_ne (by simp), Function.update_of_ne (by simp),
    Function.update_self]

private theorem deliveryVectors_other {i : ℕ} (h : i ≠ pos) :
    deliveryVectors K param s pos v (.noOIdsVector i) = v (.noOIdsVector i) := by
  rw [deliveryVectors, Function.update_of_ne (by simp), Function.update_of_ne (by simp),
    Function.update_of_ne (by simpa using h)]

end Delivery

theorem Progress.delivery {param : DeliveryParam} {s : Tables}
    (hp : Progress (before ++ .delivery param :: after) before v) :
    Progress (before ++ .delivery param :: after) (before ++ [.delivery param])
      (deliveryVectors K param s (deliveryParams before).length v) := by
  refine ⟨fun vec => ?_, fun i hi => ?_⟩
  · rw [length_deliveryVectors, hp.sized]
  · rw [← Positions.next_of] at hi
    have hlt : (deliveryParams before).length < i := hi
    rw [deliveryVectors_other (ne_of_gt hlt), hp.fresh i (le_of_lt hlt)]

theorem matches_delivery {param : DeliveryParam} {order : IterationOrder} (h : Ledger K P t.1)
    (hv : (t.1.row .warehouse param.wId).isSome)
    (hp : Progress (before ++ .delivery param :: after) before v) :
    ∃ t' v', Matches K P (before ++ .delivery param :: after) before (.delivery param, order) t v
      t' v' := by
  obtain ⟨s, rand⟩ := t
  obtain ⟨hnoOIds, hsums, hcIds⟩ := prepared_delivery (deliveryParams_at before after param)
  have hfresh : v (.noOIdsVector (deliveryParams before).length) = perDistrict (-1) :=
    (hp.fresh _ (le_refl _)).trans hnoOIds
  have hs := h.deliverable hv
  have hserial : Program.Ensures True (TpccSerialProcessor.processDelivery K order param) (s, rand) _ :=
    processDelivery_spec order hs
  obtain ⟨_, ⟨s', _⟩, hrun, hrand, hstage⟩ := hserial.exists_run trivial
  obtain rfl := hrand.symm
  have hjobs : Program.Ensures True (Program.each (perform K (before ++ .delivery param :: after)) _)
      ((s, rand), v) _ :=
    deliveryJobs_spec hs
      (by rw [hfresh, length_perDistrict]) (by rw [hp.sized, hsums, length_perDistrict])
      (by rw [hp.sized, hcIds, length_perDistrict])
  obtain ⟨_, _, hrun', s'', rfl, hstage'⟩ := hjobs.exists_run trivial
  obtain rfl := hstage.unique hstage'
  refine ⟨(s', rand), deliveryVectors K param s (deliveryParams before).length v,
    congrArg (Option.map Prod.snd) hrun, h.delivery hstage, hp.delivery,
    ⟨fun i _ => by rw [deliveryVectors_number], fun i hi => deliveryVectors_other (ne_of_lt hi)⟩, ?_⟩
  simp only [tupleJobs, Positions.of, deliveryVectors_noOIds, hfresh,
    foundIn_fill (foundOrders_ne h hv)]
  exact hrun'

theorem Progress.same (hp : Progress batch before v) (tuple : EventTuple) :
    Progress batch (before ++ [tuple]) v := by
  refine ⟨hp.sized, fun i hi => hp.fresh i ?_⟩
  rw [← Positions.next_of] at hi
  exact ((Positions.of before).le_next tuple).2.trans hi

/-- Every tuple does in its jobs what the serial processor does with it. -/
theorem matches_txn {txn : Txn} (h : Ledger K P t.1) (hv : txn.1.Valid t.1 ∨ txn.1 = .endExecution)
    (hp : Progress (before ++ txn.1 :: after) before v) :
    ∃ t' v', Matches K P (before ++ txn.1 :: after) before txn t v t' v' := by
  obtain ⟨tuple, order⟩ := txn
  cases tuple with
  | newOrder param => exact matches_newOrder h (hv.resolve_right nofun) hp
  | delivery param => exact matches_delivery h (hv.resolve_right nofun) hp
  | payment param =>
    have hvalid : EventTuple.Valid t.1 (.payment param) := hv.resolve_right nofun
    obtain ⟨t', hstep, -, hledger⟩ :
        ∃ t', TpccSerialProcessor.step K t (.payment param, order) = some t' ∧ _ ∧ Ledger K P t'.1 :=
      h.succeeds hvalid
    obtain ⟨⟨_, _⟩, hrun, rfl⟩ := Option.map_eq_some_iff.mp hstep
    exact ⟨_, v, hstep, hledger, hp.same _, ⟨fun _ _ => rfl, fun _ _ => rfl⟩, run_paymentJobs hrun⟩
  | endExecution => exact ⟨t, v, rfl, h, hp.same _, ⟨fun _ _ => rfl, fun _ _ => rfl⟩, rfl⟩

/-- The tuples of some transactions. -/
abbrev tuplesOf (txns : List Txn) : List EventTuple := txns.map Prod.fst

/-- The transactions of a batch; the last batch has the end of the execution as well. -/
def Admitted (P : ScaleParams) (txns : List Txn) : Prop :=
  ∀ txn ∈ txns, txn.1.InScale P ∨ txn.1 = .endExecution

/-- The jobs of a part of a batch do what the serial processor does with its tuples. -/
theorem run_jobs (before : List EventTuple) (txns : List Txn) (h : Ledger K P t.1)
    (hv : Admitted P txns) (hp : Progress (before ++ tuplesOf txns) before v) :
    ∃ t' v', run (TpccSerialProcessor.step K) t txns = some t' ∧ Ledger K P t'.1 ∧
      Progress (before ++ tuplesOf txns) (before ++ tuplesOf txns) v' ∧ Told (.of before) v v' ∧
      (Program.each (perform K (before ++ tuplesOf txns))
        (batchJobs v' (.of before) (tuplesOf txns))).run (t, v) = some ((), (t', v')) := by
  induction txns generalizing before t v with
  | nil =>
    have hnil : before ++ tuplesOf [] = before := List.append_nil before
    exact ⟨t, v, rfl, h, by rwa [hnil] at hp ⊢, ⟨fun _ _ => rfl, fun _ _ => rfl⟩, rfl⟩
  | cons txn txns ih =>
    obtain ⟨hfirst, hrest⟩ := List.forall_mem_cons.mp hv
    obtain ⟨t₁, v₁, hmatches⟩ : ∃ t₁ v₁, Matches K P (before ++ tuplesOf (txn :: txns)) before txn t v
      t₁ v₁ := matches_txn h (hfirst.imp_left h.valid_iff.mpr) hp
    have hsplit : before ++ tuplesOf (txn :: txns) = before ++ [txn.1] ++ tuplesOf txns := by simp
    have hprogress := hmatches.progress
    rw [hsplit] at hprogress
    obtain ⟨t', v', hserial, hledger, hdone, htold, hjobs⟩ := ih _ hmatches.ledger hrest hprogress
    rw [← Positions.next_of] at htold hjobs
    rw [← hsplit] at hdone
    refine ⟨t', v', ?_, hledger, hdone, hmatches.told.trans htold.of_next, ?_⟩
    · rw [run, hmatches.serial, Option.bind_some, hserial]
    · have hfirst' := hmatches.jobs
      rw [← htold.tupleJobs_eq] at hfirst'
      rw [← hsplit] at hjobs
      have hcons : batchJobs v' (.of before) (tuplesOf (txn :: txns)) =
        tupleJobs v' (.of before) txn.1 ++
          batchJobs v' ((Positions.of before).next txn.1) (tuplesOf txns) := rfl
      rw [hcons, Program.each_append, Program.run_bind, hfirst', Option.bind_some]
      exact hjobs

/-- All jobs of a batch in the order of the queue. -/
theorem run_allJobs (txns : List Txn) (h : Ledger K P t.1) (hv : Admitted P txns) :
    ∃ t' v', run (TpccSerialProcessor.step K) t txns = some t' ∧ Ledger K P t'.1 ∧
      (∀ vec, (v' vec).length = (prepared (tuplesOf txns) vec).length) ∧
      run (jobStep (perform K (tuplesOf txns))) (t, created (tuplesOf txns))
        (allJobs v' (tuplesOf txns)) = some (t', v') := by
  obtain ⟨t', v', hserial, hledger, hdone, -, hjobs⟩ := run_jobs (K := K) (t := t)
    (v := prepared (tuplesOf txns)) [] txns h hv ⟨fun _ => rfl, fun _ _ => rfl⟩
  refine ⟨t', v', hserial, hledger, hdone.sized, ?_⟩
  have hprepare : (Program.each (perform K (tuplesOf txns)) [.resize, .recreate]).run
      (t, created (tuplesOf txns)) = some ((), (t, prepared (tuplesOf txns))) := rfl
  have hread : (Program.atomic (readNoOIds (tuplesOf txns))).run (t', v') =
    some (noOIdsVector (tuplesOf txns) v', (t', v')) := rfl
  have hfound : (perform K (tuplesOf txns) (.found (noOIdsVector (tuplesOf txns) v'))).run (t', v') =
      some ((), (t', v')) := by
    rw [perform, Program.run_expecting hread]
    rfl
  have hrun : (Program.each (perform K (tuplesOf txns)) (allJobs v' (tuplesOf txns))).run
      (t, created (tuplesOf txns)) = some ((), (t', v')) := by
    rw [allJobs, Program.each_append, Program.each_append, Program.bind_assoc, Program.run_bind,
      hprepare, Option.bind_some, Program.run_bind]
    rw [List.nil_append] at hjobs
    rw [hjobs, Option.bind_some, Program.run_each_cons, hfound]
    rfl
  rw [run_each] at hrun
  obtain ⟨w, hw, he⟩ := Option.map_eq_some_iff.mp hrun
  cases he
  exact hw

end ImdbD.Benchmark.TPCC.TpccBatchProcessor
