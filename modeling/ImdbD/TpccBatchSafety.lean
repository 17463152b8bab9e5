import ImdbD.TpccBatchThreads

/-!
# The threads of a TPC-C batch do not disturb each other

Every entry of a bucket leads to the parameters of its tuple, and to nothing that
belongs to another bucket; so each thread stays within its footprint.
-/
namespace ImdbD.Benchmark.TPCC.TpccBatchProcessor
open AtomicProgram KeyedStore

variable {K : Constants} {P : ScaleParams} {batch before : List EventTuple} {pos i t : ℕ} {d : ℤ}

namespace Positions

/-- How many tuples of each kind there are. -/
def of (batch : List EventTuple) : Positions :=
  ⟨(deliveryParams batch).length, (newOrderParams batch).length, (paymentParams batch).length⟩

theorem next_of (before : List EventTuple) (tuple : EventTuple) :
    (of before).next tuple = of (before ++ [tuple]) := by
  cases tuple <;>
    simp [of, next, deliveryParams, newOrderParams, paymentParams, List.filterMap_append]

end Positions

theorem newOrderParams_at (before after : List EventTuple) (param : NewOrderParam) :
    (newOrderParams (before ++ .newOrder param :: after))[(newOrderParams before).length]? =
      some param := Lists.getElem?_filterMap_length before after rfl

theorem deliveryParams_at (before after : List EventTuple) (param : DeliveryParam) :
    (deliveryParams (before ++ .delivery param :: after))[(deliveryParams before).length]? =
      some param := Lists.getElem?_filterMap_length before after rfl

theorem paymentParams_at (before after : List EventTuple) (param : PaymentParam) :
    (paymentParams (before ++ .payment param :: after))[(paymentParams before).length]? =
      some param := Lists.getElem?_filterMap_length before after rfl

section Entries
variable {α : Type} {emplace : Positions → EventTuple → Option (List (ℕ × α))}
  {entries : List (ℕ × α)} {entry : ℕ × α}

/-- Every entry comes from a tuple at its position. -/
theorem mem_emplaced (h : emplaced emplace (.of before) batch = some entries)
    (hentry : entry ∈ entries) :
    ∃ passed tuple rest es, before ++ batch = passed ++ tuple :: rest ∧
      emplace (.of passed) tuple = some es ∧ entry ∈ es := by
  induction batch generalizing before entries with
  | nil =>
    cases h
    cases hentry
  | cons tuple batch ih =>
    obtain ⟨es, hes, h⟩ := Option.bind_eq_some_iff.mp h
    obtain ⟨rest, hrest, he⟩ := Option.bind_eq_some_iff.mp h
    cases he
    rcases List.mem_append.mp hentry with hentry | hentry
    · exact ⟨before, tuple, batch, es, rfl, hes, hentry⟩
    · rw [Positions.next_of] at hrest
      obtain ⟨passed, tuple', rest', es', he, hes', hmem⟩ := ih hrest hentry
      exact ⟨passed, tuple', rest', es', by rw [← he]; simp, hes', hmem⟩

theorem mem_bucket {e : α} : e ∈ bucket entries t ↔ (t, e) ∈ entries := by
  simp only [bucket, List.mem_map, List.mem_filter, decide_eq_true_eq]
  constructor
  · rintro ⟨⟨t', e'⟩, ⟨hmem, rfl⟩, rfl⟩
    exact hmem
  · intro hmem
    exact ⟨(t, e), ⟨hmem, rfl⟩, rfl⟩

end Entries

private theorem mem_newOrderParamsBkt {entries : List (ℕ × ℕ)}
    (h : emplaced (newOrderParamsBkt K) (.of []) batch = some entries)
    (hmem : pos ∈ bucket entries t) : ∃ param, (newOrderParams batch)[pos]? = some param ∧
      districtBucket K param.wId param.dId = t := by
  obtain ⟨passed, tuple, rest, es, he, hes, hmem⟩ := mem_emplaced h (mem_bucket.mp hmem)
  rw [List.nil_append] at he
  subst he
  cases tuple <;> cases hes
  case newOrder param =>
    obtain ⟨rfl, rfl⟩ := Prod.mk.inj (List.mem_singleton.mp hmem)
    exact ⟨param, newOrderParams_at passed rest param, rfl⟩
  all_goals cases hmem

private theorem mem_newOrderParamsIIdBkt {entries : List (ℕ × (ℕ × ℕ))}
    (h : emplaced (newOrderParamsIIdBkt K P) (.of []) batch = some entries)
    (hmem : (pos, i) ∈ bucket entries t) : ∃ param, (newOrderParams batch)[pos]? = some param ∧
      itemBucket K P ((param.iIds[i]?).getD 0) ((param.iWIds[i]?).getD 0) = t := by
  obtain ⟨passed, tuple, rest, es, he, hes, hmem⟩ := mem_emplaced h (mem_bucket.mp hmem)
  rw [List.nil_append] at he
  subst he
  cases tuple with
  | newOrder param =>
    obtain ⟨j, -, hj⟩ := Lists.exists_of_mem_mapM hes hmem
    obtain ⟨iWId, hw, hj⟩ := Option.bind_eq_some_iff.mp hj
    obtain ⟨iId, hi, hj⟩ := Option.bind_eq_some_iff.mp hj
    cases hj
    exact ⟨param, newOrderParams_at passed rest param, by rw [hw, hi]; rfl⟩
  | delivery _ | payment _ | endExecution =>
    cases hes
    cases hmem

theorem mem_dNMixedBkt {entries : List (ℕ × (ℕ × ℤ))}
    (h : emplaced (dNMixedBkt K) (.of []) batch = some entries) (hmem : (pos, d) ∈ bucket entries t) :
    (d = -1 ∧ ∃ param, (newOrderParams batch)[pos]? = some param ∧
      districtBucket K param.wId param.dId = t) ∨
    (0 ≤ d ∧ ∃ param, (deliveryParams batch)[pos]? = some param ∧
      districtBucket K param.wId d = t) := by
  obtain ⟨passed, tuple, rest, es, he, hes, hmem⟩ := mem_emplaced h (mem_bucket.mp hmem)
  rw [List.nil_append] at he
  subst he
  cases tuple with
  | newOrder param =>
    cases hes
    have hpair := List.mem_singleton.mp hmem
    simp only [Prod.mk.injEq] at hpair
    obtain ⟨rfl, rfl, rfl⟩ := hpair
    exact .inl ⟨rfl, param, newOrderParams_at passed rest param, rfl⟩
  | delivery param =>
    cases hes
    obtain ⟨noDId, hd, hpair⟩ := List.mem_map.mp hmem
    simp only [Prod.mk.injEq] at hpair
    obtain ⟨rfl, rfl, rfl⟩ := hpair
    have hpos := (mem_upTo.mp hd).1
    exact .inr ⟨by omega, param, deliveryParams_at passed rest param, rfl⟩
  | payment _ | endExecution =>
    cases hes
    cases hmem

theorem mem_deliveryParams {noOIds : List (List ℤ)} {before after : List EventTuple}
    {param : DeliveryParam} {es : List (ℕ × (ℕ × ℤ))}
    (h : deliveryParamsBkt K noOIds (.of before) (.delivery param) = some es)
    (hmem : (t, (pos, d)) ∈ es) : 0 ≤ d ∧ ∃ param',
      (deliveryParams (before ++ .delivery param :: after))[pos]? = some param' ∧
      districtBucket K param'.wId d = t := by
  obtain ⟨ids, -, h⟩ := Option.bind_eq_some_iff.mp h
  obtain ⟨found, hfound, h⟩ := Option.bind_eq_some_iff.mp h
  cases h
  obtain ⟨noDId, hd, hf⟩ := Lists.exists_of_mem_mapM hfound (List.reduceOption_mem_iff.mp hmem)
  obtain ⟨noOId, -, hf⟩ := Option.bind_eq_some_iff.mp hf
  have hpair : some (t, (pos, d)) =
      some (districtBucket K param.wId noDId, ((deliveryParams before).length, noDId)) := by
    by_cases hne : noOId ≠ -1
    · exact (Option.some.inj hf).symm.trans (if_pos hne)
    · exact nomatch (Option.some.inj hf).symm.trans (if_neg hne)
  simp only [Option.some.injEq, Prod.mk.injEq] at hpair
  obtain ⟨rfl, rfl, rfl⟩ := hpair
  have hpos := (mem_upTo.mp hd).1
  exact ⟨by omega, param, deliveryParams_at before after param, rfl⟩

private theorem mem_deliveryParamsBkt {noOIds : List (List ℤ)} {entries : List (ℕ × (ℕ × ℤ))}
    (h : emplaced (deliveryParamsBkt K noOIds) (.of []) batch = some entries)
    (hmem : (pos, d) ∈ bucket entries t) : 0 ≤ d ∧ ∃ param,
      (deliveryParams batch)[pos]? = some param ∧ districtBucket K param.wId d = t := by
  obtain ⟨passed, tuple, rest, es, he, hes, hmem⟩ := mem_emplaced h (mem_bucket.mp hmem)
  rw [List.nil_append] at he
  subst he
  cases tuple with
  | delivery param => exact mem_deliveryParams hes hmem
  | newOrder _ | payment _ | endExecution =>
    cases hes
    cases hmem

private theorem mem_dPMixedBkt {noOIds : List (List ℤ)} {entries : List (ℕ × (ℕ × ℤ))}
    (h : emplaced (dPMixedBkt K noOIds) (.of []) batch = some entries)
    (hmem : (pos, d) ∈ bucket entries t) :
    (d = -1 ∧ ∃ param, (paymentParams batch)[pos]? = some param ∧
      districtBucket K param.wId param.dId = t) ∨
    (0 ≤ d ∧ ∃ param, (deliveryParams batch)[pos]? = some param ∧
      districtBucket K param.wId d = t) := by
  obtain ⟨passed, tuple, rest, es, he, hes, hmem⟩ := mem_emplaced h (mem_bucket.mp hmem)
  rw [List.nil_append] at he
  subst he
  cases tuple with
  | delivery param => exact .inr (mem_deliveryParams hes hmem)
  | payment param =>
    cases hes
    have hpair := List.mem_singleton.mp hmem
    simp only [Prod.mk.injEq] at hpair
    obtain ⟨rfl, rfl, rfl⟩ := hpair
    exact .inl ⟨rfl, param, paymentParams_at passed rest param, rfl⟩
  | newOrder _ | endExecution =>
    cases hes
    cases hmem

section Within
variable {thread : Role × ℕ}

/-- A part of a thread stays within its footprint when it does so as a part of one of its jobs. -/
theorem within_thread {p : Program Work Unit} (job : Job) (hjob : job.Fits batch)
    (hthread : job.thread K P = thread) (h : p.Within workPlaces (jobFoot job)) :
    p.Within workPlaces (threadFoot K P batch thread) :=
  h.mono (jobFoot_le hjob hthread)

theorem elementAt_thread {vec : Vec} {job : Job} (hjob : job.Fits batch)
    (hthread : job.thread K P = thread) (h : .inr (vec, i) ∈ (jobFoot job).touches) :
    (elementAt vec i).Within workPlaces (threadFoot K P batch thread) :=
  (elementAt_within h).mono (jobFoot_le hjob hthread)

private theorem no4Thread_within {entries : List (ℕ × (ℕ × ℕ))}
    (h : emplaced (newOrderParamsIIdBkt K P) (.of []) batch = some entries) (t : ℕ) :
    (Program.each (no4Entry batch) (bucket entries t)).Within workPlaces
      (threadFoot K P batch (.no4, t)) := by
  refine .each (fun entry hentry => .fetch_bind (fun param hparam => ?_))
  obtain ⟨param', hparam', rfl⟩ := mem_newOrderParamsIIdBkt h hentry
  obtain rfl : param = param' := Option.some.inj (hparam.symm.trans hparam')
  exact within_thread (.neworder4 entry.1 param entry.2) hparam rfl neworder4_within

private theorem no5Thread_within {entries : List (ℕ × (ℕ × ℕ))}
    (h : emplaced (newOrderParamsIIdBkt K P) (.of []) batch = some entries) (t : ℕ) :
    (Program.each (no5Entry batch) (bucket entries t)).Within workPlaces
      (threadFoot K P batch (.no5, t)) := by
  refine .each (fun entry hentry => .fetch_bind (fun param hparam => ?_))
  obtain ⟨param', hparam', rfl⟩ := mem_newOrderParamsIIdBkt h hentry
  obtain rfl : param = param' := Option.some.inj (hparam.symm.trans hparam')
  exact within_thread (.neworder5 entry.1 param entry.2) hparam rfl neworder5_within

private theorem no12Thread_within {entries : List (ℕ × ℕ)}
    (h : emplaced (newOrderParamsBkt K) (.of []) batch = some entries) (t : ℕ) :
    (Program.each (no12Entry K batch) (bucket entries t)).Within workPlaces
      (threadFoot K P batch (.no12, t)) := by
  refine .each (fun pos hpos => .fetch_bind (fun param hparam => ?_))
  obtain ⟨param', hparam', rfl⟩ := mem_newOrderParamsBkt h hpos
  obtain rfl : param = param' := Option.some.inj (hparam.symm.trans hparam')
  have hjob : ∀ o, (Job.neworder12 pos param o).Fits batch := fun _ => hparam
  refine .bind (neworder1_within.mono (jobFoot_le (hjob 0) rfl)) (fun _ => ?_)
  refine .bind (within_thread _ (hjob 0) rfl (assign_within .dNextOId)) (fun _ => ?_)
  refine .bind (elementAt_thread (hjob 0) rfl (Or.inr .dNextOId)) (fun o => ?_)
  exact within_thread _ (hjob o) rfl neworder2_within

theorem neworderConflictThread_within {entries : List (ℕ × (ℕ × ℤ))}
    (h : emplaced (dNMixedBkt K) (.of []) batch = some entries) (t : ℕ) :
    (Program.each (neworderConflictEntry K batch) (bucket entries t)).Within workPlaces
      (threadFoot K P batch (.neworderConflict, t)) := by
  refine .each (fun entry hentry => ?_)
  rw [neworderConflictEntry]
  rcases mem_dNMixedBkt h hentry with ⟨hd, param', hparam', rfl⟩ | ⟨hd, param', hparam', rfl⟩
  · rw [if_pos hd]
    refine .fetch_bind (fun param hparam => ?_)
    obtain rfl : param = param' := Option.some.inj (hparam.symm.trans hparam')
    exact within_thread (.neworder3 entry.1 param) hparam rfl neworder3_within
  · rw [if_neg (by omega)]
    refine .fetch_bind (fun param hparam => ?_)
    obtain rfl : param = param' := Option.some.inj (hparam.symm.trans hparam')
    exact within_thread (.delivery1 entry.1 param entry.2) ⟨hparam, hd⟩ rfl delivery1_within

private theorem deliveryThread_within {noOIds : List (List ℤ)} {entries : List (ℕ × (ℕ × ℤ))} {role : Role}
    (h : emplaced (deliveryParamsBkt K noOIds) (.of []) batch = some entries) (t : ℕ)
    (perform : ℕ → DeliveryParam → ℤ → ℤ → Program Work Unit)
    (job : ℕ → DeliveryParam → ℤ → ℤ → Job)
    (hfits : ∀ pos param d o, (deliveryParams batch)[pos]? = some param → 0 ≤ d →
      (job pos param d o).Fits batch)
    (hthread : ∀ pos param d o,
      (job pos param d o).thread K P = (role, districtBucket K param.wId d))
    (hreads : ∀ pos param d o,
      .inr (.noOIdsVector pos, d.toNat) ∈ (jobFoot (job pos param d o)).touches)
    (hwithin : ∀ pos param d o,
      (perform pos param d o).Within workPlaces (jobFoot (job pos param d o))) :
    (Program.each (fun entry : ℕ × ℤ => do
      let param ← Program.fetch (deliveryParams batch)[entry.1]?
      let noOId ← elementAt (.noOIdsVector entry.1) entry.2.toNat
      perform entry.1 param entry.2 noOId) (bucket entries t)).Within workPlaces
        (threadFoot K P batch (role, t)) := by
  refine .each (fun entry hentry => .fetch_bind (fun param hparam => ?_))
  obtain ⟨hd, param', hparam', rfl⟩ := mem_deliveryParamsBkt h hentry
  obtain rfl : param = param' := Option.some.inj (hparam.symm.trans hparam')
  have hjob := fun o => hfits entry.1 param entry.2 o hparam hd
  have hid := hthread entry.1 param entry.2
  refine .bind (elementAt_thread (hjob 0) (hid 0) (hreads ..)) (fun o => ?_)
  exact within_thread _ (hjob o) (hid o) (hwithin ..)

private theorem del3Thread_within {noOIds : List (List ℤ)} {entries : List (ℕ × (ℕ × ℤ))}
    (h : emplaced (deliveryParamsBkt K noOIds) (.of []) batch = some entries) (t : ℕ) :
    (Program.each (del3Entry K batch) (bucket entries t)).Within workPlaces
      (threadFoot K P batch (.del3, t)) :=
  deliveryThread_within h t (delivery3 K) .delivery3 (fun _ _ _ _ hparam hd => ⟨hparam, hd⟩)
    (fun _ _ _ _ => rfl) (fun _ _ _ _ => Or.inl .noOId3) (fun _ _ _ _ => delivery3_within)

private theorem del2Thread_within {noOIds : List (List ℤ)} {entries : List (ℕ × (ℕ × ℤ))}
    (h : emplaced (deliveryParamsBkt K noOIds) (.of []) batch = some entries) (t : ℕ) :
    (Program.each (del2Entry K batch) (bucket entries t)).Within workPlaces
      (threadFoot K P batch (.del2, t)) :=
  deliveryThread_within h t (delivery2 K) .delivery2 (fun _ _ _ _ hparam hd => ⟨hparam, hd⟩)
    (fun _ _ _ _ => rfl) (fun _ _ _ _ => Or.inl .noOId2) (fun _ _ _ _ => delivery2_within)

private theorem no6Thread_within {entries : List (ℕ × ℕ)}
    (h : emplaced (newOrderParamsBkt K) (.of []) batch = some entries) (t : ℕ) :
    (Program.each (no6Entry K batch) (bucket entries t)).Within workPlaces
      (threadFoot K P batch (.no6, t)) := by
  refine .each (fun pos hpos => .fetch_bind (fun param hparam => ?_))
  obtain ⟨param', hparam', rfl⟩ := mem_newOrderParamsBkt h hpos
  obtain rfl : param = param' := Option.some.inj (hparam.symm.trans hparam')
  have hjob : ∀ o, (Job.neworder6 pos param o).Fits batch := fun _ => hparam
  refine .bind (elementAt_thread (hjob 0) rfl (Or.inl .dNextOId6)) (fun o => ?_)
  exact within_thread _ (hjob o) rfl neworder6_within

theorem conflict2Thread_within {noOIds : List (List ℤ)} {entries : List (ℕ × (ℕ × ℤ))}
    (h : emplaced (dPMixedBkt K noOIds) (.of []) batch = some entries) (t : ℕ) :
    (Program.each (conflict2Entry batch) (bucket entries t)).Within workPlaces
      (threadFoot K P batch (.conflict2, t)) := by
  refine .each (fun entry hentry => ?_)
  rw [conflict2Entry]
  rcases mem_dPMixedBkt h hentry with ⟨hd, param', hparam', rfl⟩ | ⟨hd, param', hparam', rfl⟩
  · rw [if_pos hd]
    refine .fetch_bind (fun param hparam => ?_)
    obtain rfl : param = param' := Option.some.inj (hparam.symm.trans hparam')
    exact within_thread (.payment4 param) trivial rfl payment4_within
  · rw [if_neg (by omega)]
    refine .fetch_bind (fun param hparam => ?_)
    obtain rfl : param = param' := Option.some.inj (hparam.symm.trans hparam')
    exact within_thread (.delivery4 entry.1 param entry.2) ⟨hparam, hd⟩ rfl delivery4_within

private theorem paymentTxn1Thread_within : (paymentTxn1Thread batch).Within workPlaces
    (threadFoot K P batch (.paymentTxn1, 0)) :=
  .each (fun param _ => within_thread (.payment1 param) trivial rfl payment1_within)

private theorem paymentTxn2Thread_within : (paymentTxn2Thread batch).Within workPlaces
    (threadFoot K P batch (.paymentTxn2, 0)) :=
  .each (fun param _ => within_thread (.payment2 param) trivial rfl payment2_within)

private theorem paymentTxn3Thread_within : (paymentTxn3Thread batch).Within workPlaces
    (threadFoot K P batch (.paymentTxn3, 0)) :=
  .each (fun param _ => within_thread (.payment3 param) trivial rfl payment3_within)

end Within

/-- How many threads there are of a crew. -/
def Role.size (K : Constants) : Role → ℕ
  | no4 | no12 | no5 | neworderConflict | del3 | no6 | del2 | conflict2 => K.kParallelism
  | main | create | resize | paymentTxn1 | paymentTxn2 | paymentTxn3 | recreate | found => 1

def size (K : Constants) (id : ℕ × Role) : ℕ := id.2.size K

/-- The threads of some crews of a batch. -/
abbrev threads (K : Constants) (b : ℕ) (roles : List Role) : List ThreadId :=
  crews (size K) (roles.map (Prod.mk b))

section Main
variable {batches : ℕ → List EventTuple} {b n : ℕ} {role : Role} {roles : List Role}
  {rest : Script Work ThreadId}

private theorem crews_beside (roles : List Role) (h : ∀ r ∈ roles, r.Together role) :
    ∀ r ∈ roles.map (Prod.mk b), Beside (foot K P batches) r (b, role) := by
  intro r hr
  obtain ⟨r', hr', rfl⟩ := List.mem_map.mp hr
  exact beside_together batches b (h r' hr')

private theorem not_mem_roles (h : role ∉ roles) : (b, role) ∉ roles.map (Prod.mk b) := by
  intro hmem
  obtain ⟨r, hr, he⟩ := List.mem_map.mp hmem
  obtain ⟨-, rfl⟩ := Prod.mk.inj he
  exact h hr

theorem safe_spawn {body : ℕ → Program Work Unit} (hsize : size K (b, role) = n)
    (hwithin : ∀ t < n, (body t).Within workPlaces (threadFoot K P (batches b) (role, t)))
    (htogether : ∀ r ∈ role :: roles, r.Together role) (hnew : role ∉ roles)
    (hrest : rest.Safe workPlaces (foot K P batches) (threads K b (role :: roles))) :
    (spawnAll (b, role) n body rest).Safe workPlaces (foot K P batches) (threads K b roles) :=
  safe_spawnAll hsize hwithin (crews_beside (role :: roles) htogether)
    (not_mem_roles hnew) hrest

theorem safe_join (roles' : List Role) (hsize : size K (b, role) = n)
    (hroles : ∀ r ∈ roles, r ≠ role → r ∈ roles')
    (hrest : rest.Safe workPlaces (foot K P batches) (threads K b roles')) :
    (joinAll (b, role) n rest).Safe workPlaces (foot K P batches) (threads K b roles) := by
  refine safe_joinAll (roles'.map (Prod.mk b)) hsize (fun r hr hne => ?_) hrest
  obtain ⟨r', hr', rfl⟩ := List.mem_map.mp hr
  exact List.mem_map_of_mem (hroles r' hr' (fun he => hne (he ▸ rfl)))

private theorem beside_main (hnew : role ∉ roles) (htogether : ∀ r ∈ roles, r.Together role) :
    ∀ r ∈ roles.map (Prod.mk b), r ≠ (b, role) ∧ Beside (foot K P batches) r (b, role) :=
  fun r hr => ⟨fun he => not_mem_roles hnew (he ▸ hr), crews_beside _ htogether r hr⟩

theorem safe_own {β : Type} {action : Action Work β} {next : β → Script Work ThreadId} (job : Job)
    (hjob : job.Fits (batches b)) (hthread : job.thread K P = (role, 0))
    (hwithin : action.Within workPlaces (jobFoot job))
    (hnew : role ∉ roles) (htogether : ∀ r ∈ roles, r.Together role)
    (hnext : ∀ a, (next a).Safe workPlaces (foot K P batches) (threads K b roles)) :
    (Script.act ((b, role), 0) action next).Safe workPlaces (foot K P batches) (threads K b roles) :=
  safe_act (hwithin.mono (jobFoot_le hjob hthread)) (beside_main hnew htogether) hnext

theorem safe_look {β : Type} {a : Option β} {next : β → Script Work ThreadId}
    (hnew : .main ∉ roles) (htogether : ∀ r ∈ roles, r.Together .main)
    (hnext : ∀ x, a = some x → (next x).Safe workPlaces (foot K P batches) (threads K b roles)) :
    (Script.fetch ((b, .main), 0) a next).Safe workPlaces (foot K P batches) (threads K b roles) :=
  safe_fetch (beside_main hnew htogether) hnext

theorem safe_processBatch (hrest : rest.Safe workPlaces (foot K P batches) []) :
    (processBatch K P b (batches b) rest).Safe workPlaces (foot K P batches) [] := by
  change (processBatch K P b (batches b) rest).Safe workPlaces (foot K P batches) (threads K b [])
  refine safe_own .create trivial rfl created_within (by decide) (by decide) (fun _ => ?_)
  refine safe_look (by decide) (by decide) (fun newOrderParamsBkt hno => ?_)
  refine safe_look (by decide) (by decide) (fun iIdBkt hitem => ?_)
  refine safe_look (by decide) (by decide) (fun dNMixedBkt hmixed => ?_)
  refine safe_spawn rfl (fun t _ => no4Thread_within hitem t) (by decide) (by decide) ?_
  refine safe_own .resize trivial rfl resized_within (by decide) (by decide) (fun _ => ?_)
  refine safe_spawn rfl (fun t _ => no12Thread_within hno t) (by decide) (by decide) ?_
  refine safe_spawn rfl (fun t _ => no5Thread_within hitem t) (by decide) (by decide) ?_
  refine safe_spawn rfl (fun t ht => ?_) (by decide) (by decide) ?_
  · obtain rfl : t = 0 := by omega
    exact paymentTxn1Thread_within
  refine safe_spawn rfl (fun t ht => ?_) (by decide) (by decide) ?_
  · obtain rfl : t = 0 := by omega
    exact paymentTxn2Thread_within
  refine safe_spawn rfl (fun t ht => ?_) (by decide) (by decide) ?_
  · obtain rfl : t = 0 := by omega
    exact paymentTxn3Thread_within
  refine safe_join [.paymentTxn3, .paymentTxn2, .paymentTxn1, .no5, .no4] rfl (by decide) ?_
  refine safe_spawn rfl (fun t _ => neworderConflictThread_within hmixed t) (by decide)
    (by decide) ?_
  refine safe_join [.paymentTxn3, .paymentTxn2, .paymentTxn1, .no5, .no4] rfl (by decide) ?_
  refine safe_join [.paymentTxn3, .paymentTxn2, .paymentTxn1, .no5] rfl (by decide) ?_
  refine safe_join [.paymentTxn3, .paymentTxn2, .paymentTxn1] rfl (by decide) ?_
  refine safe_own .recreate trivial rfl recreated_within (by decide) (by decide)
    (fun _ => ?_)
  refine safe_own (.found []) trivial rfl readNoOIds_within (by decide) (by decide)
    (fun noOIds => ?_)
  refine safe_look (by decide) (by decide) (fun dPMixedBkt hpaid => ?_)
  refine safe_look (by decide) (by decide) (fun deliveryParamsBkt hfound => ?_)
  refine safe_spawn rfl (fun t _ => del3Thread_within hfound t) (by decide) (by decide) ?_
  refine safe_spawn rfl (fun t _ => no6Thread_within hno t) (by decide) (by decide) ?_
  refine safe_join [.del3, .paymentTxn3, .paymentTxn2, .paymentTxn1] rfl (by decide) ?_
  refine safe_spawn rfl (fun t _ => del2Thread_within hfound t) (by decide) (by decide) ?_
  refine safe_join [.del3, .paymentTxn3, .paymentTxn2, .paymentTxn1] rfl (by decide) ?_
  refine safe_join [.paymentTxn3, .paymentTxn2, .paymentTxn1] rfl (by decide) ?_
  refine safe_spawn rfl (fun t _ => conflict2Thread_within hpaid t) (by decide) (by decide) ?_
  refine safe_join [.conflict2, .paymentTxn3, .paymentTxn2] rfl (by decide) ?_
  refine safe_join [.conflict2, .paymentTxn3] rfl (by decide) ?_
  refine safe_join [.conflict2] rfl (by decide) ?_
  exact safe_join [] rfl (by decide) hrest

/-- In no batch do two threads disturb each other. -/
theorem safe_start (b : ℕ) (queue : List (List EventTuple))
    (h : ∀ i, batches (b + i) = (queue[i]?).getD []) :
    (start K P b queue).Safe workPlaces (foot K P batches) [] := by
  induction queue generalizing b with
  | nil => trivial
  | cons batch queue ih =>
    have hb : batches b = batch := h 0
    have hrest := ih (b + 1) (fun i => by
      rw [Nat.add_assoc, Nat.add_comm 1 i, h (i + 1)]
      rfl)
    rw [start, ← hb]
    exact safe_processBatch hrest

end Main
end ImdbD.Benchmark.TPCC.TpccBatchProcessor
