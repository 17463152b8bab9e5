import ImdbD.TatpDeterminism

/-!
# Tuples that name nobody

A number that no subscriber has leads to -1, with which the transactions go on
as with any other subscriber. A tuple that names nobody changes nothing exactly
when there is nothing to do for -1: nothing to delete, nothing to insert, and
for a new location a subscriber who is there already.
-/
namespace ImdbD.Benchmark.TATP.TatpBatchProcessor
open ByteMemory StorageEngine AtomicProgram RecordStore TatpPopulator
open KeyedStore (Store)

variable {K : Constants} {s s' : Tables} {tuple : EventTuple} {subNbr : CString} {sId : Int32}

/-- No subscriber has the number. -/
def NumberAbsent (s : Tables) (subNbr : CString) : Prop :=
  ∀ k r, s.row .subscriber k = some r → r.getColumn 1 ≠ subNbr.read 15

/-- No row of any table belongs to the subscriber. -/
def SIdAbsent (s : Tables) (sId : Int32) : Prop :=
  ∀ id k r, s.row id k = some r → r.getColumn 0 ≠ int32Bytes sId

/-- The tuple names nobody. -/
def Unknown (s : Tables) : EventTuple → Prop
  | .deleteCallForwarding param => NumberAbsent s param.subNbr
  | .insertCallForwarding param => NumberAbsent s param.subNbr
  | .updateLocation param => NumberAbsent s param.subNbr
  | .getAccessData param => SIdAbsent s param.sId
  | .getSubscriberData param => SIdAbsent s param.sId
  | .updateSubscriberData param => SIdAbsent s param.sId
  | .getNewDestination _ | .endExecution => False

/-- There is nothing to do for -1. -/
def Harmless (K : Constants) (s : Tables) : EventTuple → Prop
  | .deleteCallForwarding param =>
    s.row (.callForwarding (K.offset (-1))) (callForwardingKey (-1) param.sfType param.startTime) = none
  | .insertCallForwarding param =>
    (s.row (.callForwarding (K.offset (-1)))
      (callForwardingKey (-1) param.sfType param.startTime)).isSome
  | .updateLocation param =>
    ∃ r, s.row .subscriber (subscriberKey (-1)) = some r ∧ r.getColumn 33 = int32Bytes param.vlrLocation
  | .getAccessData _ | .getNewDestination _ | .getSubscriberData _ | .updateSubscriberData _
  | .endExecution => True

theorem Indexed.subscriberId_absent (h : Indexed s) (hn : NumberAbsent s subNbr) :
    subscriberId s subNbr = some (-1) := by
  cases hgroup : s.groups .subscriber (subNbr.read 15) with
  | nil =>
    rw [subscriberId, hgroup]
    rfl
  | cons k ks =>
    obtain ⟨r, hr, hcolumn⟩ :=
      (h.number (subNbr.read 15) k).mp (by rw [hgroup]; exact List.mem_cons_self)
    exact absurd hcolumn (hn k r hr)

/-- A number belongs to a subscriber, or to nobody. -/
theorem Indexed.carries (h : Indexed s) (hn : ¬ NumberAbsent s subNbr) :
    ∃ sId, Carries s sId subNbr := by
  simp only [NumberAbsent, not_forall, not_not] at hn
  obtain ⟨k, r, hr, hcolumn⟩ := hn
  exact ⟨readInt32 (r.getColumn 0), r, (h.subscriberKey_eq hr).symm ▸ hr, hcolumn⟩

theorem NumberAbsent.kept (h : NumberAbsent s subNbr) (hkept : Kept s s') :
    NumberAbsent s' subNbr := by
  intro k r' hr'
  have hrow := hkept.row .subscriber (fun _ => nofun) k
  rw [hr'] at hrow
  generalize hr : s.row .subscriber k = o at hrow
  cases hrow with
  | @some r _ hsame =>
    have hcolumn : r'.getColumn 1 = r.getColumn 1 := hsame 1 (by decide) (by decide)
    rw [hcolumn]
    exact h k r hr

theorem SIdAbsent.subscriber (h : SIdAbsent s sId) (hs : Indexed s) :
    s.row .subscriber (subscriberKey sId) = none := by
  refine Option.eq_none_iff_forall_ne_some.mpr (fun r hr => ?_)
  exact h .subscriber _ r hr (hs.key_eq hr)

theorem SIdAbsent.specialFacility (h : SIdAbsent s sId) (hrouted : Routed K s) (off : ℕ) (sfType : Int8) :
    s.row (.specialFacility off) (typeKey sId sfType) = none := by
  refine Option.eq_none_iff_forall_ne_some.mpr
    (fun (r : Record TatpSchema.getSpecialFacilitySchema) hr => ?_)
  have hkey : r.primaryKey = some (typeKey sId sfType) :=
    (hrouted (.specialFacility off) _ r hr).1
  rw [Record.primaryKey_eq _ (by decide) (by decide)] at hkey
  have hcolumns := Option.some.inj hkey
  change [0, 1].flatMap r.getColumn = int32Bytes sId ++ int8Bytes sfType at hcolumns
  rw [List.flatMap_cons] at hcolumns
  have hlength : (r.getColumn 0).length = (int32Bytes sId).length := by
    rw [length_int32Bytes]
    exact r.length_getColumn (by decide)
  exact h (.specialFacility off) _ r hr (List.append_inj hcolumns hlength).1

/-- Data of a subscriber without a row are not written, also after other transactions. -/
theorem serialStep_updateSubscriberData {param : UpdateSubscriberDataParam} (hs : Indexed s)
    (hrouted : Routed K s) (h : SIdAbsent s param.sId) (hkept : Kept s s') :
    serialStep K s' (.updateSubscriberData param) = some s' := by
  have hsubscriber : s'.row .subscriber (subscriberKey param.sId) = none := by
    have hne : ∀ off, TableId.subscriber ≠ .callForwarding off := fun _ => nofun
    rw [← Option.not_isSome_iff_eq_none, ← hkept.isSome_row hne, h.subscriber hs]
    exact Bool.false_ne_true
  have hfacility : s'.row (.specialFacility (K.offset param.sId)) (typeKey param.sId param.sfType) =
      none := by
    have hne : ∀ off, TableId.specialFacility (K.offset param.sId) ≠ .callForwarding off :=
      fun _ => nofun
    rw [← Option.not_isSome_iff_eq_none, ← hkept.isSome_row hne, h.specialFacility hrouted]
    exact Bool.false_ne_true
  rw [serialStep, TatpSerialProcessor.process, run_processUpdateSubscriberData,
    Store.changeRow_of_none s' hsubscriber, Store.changeRow_of_none s' hfacility]
  rfl

/-- A tuple that names nobody changes nothing exactly when there is nothing to do for -1. -/
theorem serialStep_unknown (hs : Indexed s) (hrouted : Routed K s) (h : Unknown s tuple) :
    serialStep K s tuple = some s ↔ Harmless K s tuple := by
  cases tuple with
  | deleteCallForwarding param =>
    rw [serialStep, TatpSerialProcessor.process,
      run_processDeleteCallForwarding (hs.subscriberId_absent h), Option.map_some, Option.some_inj]
    exact Store.eraseRow_eq_self_iff s
  | insertCallForwarding param =>
    rw [serialStep, TatpSerialProcessor.process,
      run_processInsertCallForwarding (hs.subscriberId_absent h), Option.map_some, Option.some_inj,
      ite_eq_left_iff]
    refine ⟨fun hsame => ?_, fun hsome hnone => absurd hsome hnone⟩
    by_contra hnone
    exact hnone (Option.isSome_of_mem (Store.row_of_setRow_eq_self s (hsame hnone)))
  | updateLocation param =>
    rw [serialStep, TatpSerialProcessor.process,
      run_processUpdateLocation (hs.subscriberId_absent h), Harmless]
    cases hr : s.row .subscriber (subscriberKey (-1)) with
    | none => simp
    | some r =>
      have hcolumn : 33 < TatpSchema.getSubscriberSchema.schema.columnCount := by decide
      have hsize : (int32Bytes param.vlrLocation).length =
          TatpSchema.getSubscriberSchema.schema.getColumnSize 33 := by
        rw [length_int32Bytes]
        rfl
      simp only [Option.isSome_some, if_true, Option.map_some, Option.some_inj,
        Store.changeRow_eq_self_iff, hr, forall_eq', exists_eq_left',
        Record.setColumn_eq_self_iff hcolumn hsize]
  | getAccessData param =>
    rw [serialStep, TatpSerialProcessor.process, TatpSerialProcessor.processGetAccessData,
      run_getAccessInfo]
    exact iff_of_true rfl trivial
  | getSubscriberData param =>
    rw [serialStep, TatpSerialProcessor.process, TatpSerialProcessor.processGetSubscriberData,
      run_getSubscriberData]
    exact iff_of_true rfl trivial
  | updateSubscriberData param =>
    exact iff_of_true (serialStep_updateSubscriberData hs hrouted h (.refl s)) trivial
  | getNewDestination _ | endExecution => cases h

/-- What is looked up for a harmless tuple is found. -/
theorem passes_of_harmless (hs : Indexed s) (h : Unknown s tuple → Harmless K s tuple) :
    Passes s tuple := by
  intro lookup subNbr hsub
  by_cases hn : NumberAbsent s subNbr
  · refine ⟨-1, hs.subscriberId_absent hn, fun hlookup => ?_⟩
    subst hlookup
    cases tuple with
    | updateLocation param =>
      cases hsub
      obtain ⟨r, hr, -⟩ := h hn
      exact Option.isSome_of_mem hr
    | _ => cases hsub
  · obtain ⟨sId, hcarries⟩ := hs.carries hn
    exact hs.found hcarries lookup

/-- Where the lookups succeed the transaction completes. -/
theorem Passes.serialStep (h : Passes s tuple) :
    ∃ s', serialStep K s tuple = some s' ∧ Kept s s' ∧ (Routed K s → Routed K s') := by
  have hbatch : ∀ tuple' ∈ [tuple], Passes s tuple' := fun tuple' hmem => List.mem_singleton.mp hmem ▸ h
  obtain ⟨-, -, sIds, -, -, -, hids⟩ := run_lookups (K := K) (n := fun _ => none)
    (v := fun lookup => List.replicate (subNbrs [tuple] lookup).length 0) (subNbrs_known hbatch)
    (fun lookup => List.length_replicate)
  obtain ⟨s', hmatches⟩ : ∃ s', Matches K 0 (fun _ _ => 0) ([] ++ tuple :: []) sIds (.of []) tuple s s' :=
    matches_tuple (.refl s) hids
  refine ⟨s', ?_, hmatches.kept, hmatches.routed⟩
  rw [TatpBatchProcessor.serialStep, hmatches.serial]
  rfl

section Queues
variable {u : Tables} {tuples : List EventTuple}

/-- What is known of every state of a run from `s`. -/
structure Reached (K : Constants) (s u : Tables) : Prop where
  indexed : Indexed u
  routed : Routed K u
  kept : Kept s u

theorem Reached.refl (hs : Indexed s) (hrouted : Routed K s) : Reached K s s := ⟨hs, hrouted, .refl s⟩

theorem Reached.step (h : Reached K s u) (hpasses : Passes u tuple) :
    ∃ u', serialStep K u tuple = some u' ∧ Reached K s u' := by
  obtain ⟨u', hstep, hkept, hrouted⟩ := hpasses.serialStep (K := K)
  exact ⟨u', hstep, h.indexed.kept hkept, hrouted h.routed, h.kept.trans hkept⟩

/-- A tuple of the queue that names nobody is left out by the run itself. -/
theorem Reached.serialStep_unknown (h : Reached K s u) (hs : Indexed s) (hrouted : Routed K s)
    (hunknown : Unknown s tuple) (hharmless : Unknown u tuple → Harmless K u tuple) :
    serialStep K u tuple = some u := by
  by_cases hu : Unknown u tuple
  · exact (TatpBatchProcessor.serialStep_unknown h.indexed h.routed hu).mpr (hharmless hu)
  · cases tuple with
    | deleteCallForwarding param | insertCallForwarding param | updateLocation param =>
      have habsent : NumberAbsent s param.subNbr := hunknown
      exact absurd (habsent.kept h.kept) hu
    | getAccessData param =>
      rw [serialStep, TatpSerialProcessor.process, TatpSerialProcessor.processGetAccessData,
        run_getAccessInfo]
      rfl
    | getSubscriberData param =>
      rw [serialStep, TatpSerialProcessor.process, TatpSerialProcessor.processGetSubscriberData,
        run_getSubscriberData]
      rfl
    | updateSubscriberData param =>
      exact serialStep_updateSubscriberData hs hrouted hunknown h.kept
    | getNewDestination _ | endExecution => cases hunknown

theorem Reached.passes (h : Reached K s u)
    (hmeets : GuardedRun.Meets (serialStep K) (fun u tuple => Unknown u tuple → Harmless K u tuple)
      u tuples) : ∀ tuple ∈ tuples, Passes s tuple := by
  induction tuples generalizing u with
  | nil => simp
  | cons tuple tuples ih =>
    obtain ⟨hharmless, hrest⟩ := hmeets
    have hpasses := passes_of_harmless h.indexed hharmless
    obtain ⟨u', hstep, hreached⟩ := h.step hpasses
    intro tuple' hmem
    rcases List.mem_cons.mp hmem with rfl | hmem
    · exact hpasses.of_kept h.kept
    · exact ih hreached (hrest u' hstep) tuple' hmem

open Classical in
/-- The run without the tuples that name nobody. -/
theorem Reached.run_filter (h : Reached K s u) (hs : Indexed s) (hrouted : Routed K s)
    (hmeets : GuardedRun.Meets (serialStep K) (fun u tuple => Unknown u tuple → Harmless K u tuple)
      u tuples) :
    GuardedRun.run (serialStep K) u (tuples.filter (fun tuple => ¬ Unknown s tuple)) =
      GuardedRun.run (serialStep K) u tuples := by
  induction tuples generalizing u with
  | nil => rfl
  | cons tuple tuples ih =>
    obtain ⟨hharmless, hrest⟩ := hmeets
    by_cases hunknown : Unknown s tuple
    · have hstep := h.serialStep_unknown hs hrouted hunknown hharmless
      rw [List.filter_cons_of_neg (by simpa using hunknown), GuardedRun.run, hstep, Option.bind_some]
      exact ih h (hrest u hstep)
    · obtain ⟨u', hstep, hreached⟩ := h.step (passes_of_harmless h.indexed hharmless)
      rw [List.filter_cons_of_pos (by simpa using hunknown), GuardedRun.run, GuardedRun.run, hstep,
        Option.bind_some, Option.bind_some]
      exact ih hreached (hrest u' hstep)

open Classical in
/-- In the serial run each tuple that names nobody completes and changes nothing, and in batches
with any interleaving of the threads all of them together change nothing, exactly when each comes to
a state in which there is nothing to do for -1. -/
theorem unknown_change_nothing_iff (K : Constants) (executor : Executor) (hs : Indexed s)
    (hrouted : Routed K s) (hend : .endExecution ∉ tuples) {batches : List (List EventTuple)}
    (hcut : Cut (tuples ++ [.endExecution]) batches) (memories : ℕ → ℕ → Memory)
    (memories' : ℕ → Memory) (v : SIds) (n : Notes) :
    (GuardedRun.Holds (serialStep K) (fun u tuple u' => Unknown u tuple → u' = u) s tuples ∧
      ∃ z, Determinate (executor.limit K) ⟨start K memories 0 batches, [], ((s, v), n)⟩ z ∧
        (TatpSerialProcessor.start (manager layout) K memories' 0
          (tuples.filter (fun tuple => ¬ Unknown s tuple) ++ [.endExecution])).run s =
            some ((), z.1.1)) ↔
      GuardedRun.Meets (serialStep K) (fun u tuple => Unknown u tuple → Harmless K u tuple)
        s tuples := by
  have hiff : GuardedRun.Holds (serialStep K) (fun u tuple u' => Unknown u tuple → u' = u) s tuples ↔
      GuardedRun.Meets (serialStep K) (fun u tuple => Unknown u tuple → Harmless K u tuple)
        s tuples := by
    have hvalid : GuardedRun.Meets (serialStep K) (fun _ _ => True) s tuples :=
      .of_forall (fun _ _ => trivial)
    refine GuardedRun.holds_iff_meets (I := Reached K s) (fun u tuple h _ hharmless => ?_)
      (fun u tuple u' h _ hstep hsame hunknown => ?_) (.refl hs hrouted) hvalid
    · obtain ⟨u', hstep, hreached⟩ := h.step (passes_of_harmless h.indexed hharmless)
      refine ⟨u', hstep, fun hunknown => ?_, hreached⟩
      have hself := (TatpBatchProcessor.serialStep_unknown h.indexed h.routed hunknown).mpr
        (hharmless hunknown)
      exact Option.some.inj (hstep.symm.trans hself)
    · rw [hsame hunknown] at hstep
      exact (TatpBatchProcessor.serialStep_unknown h.indexed h.routed hunknown).mp hstep
  rw [hiff]
  refine ⟨And.left, fun hmeets => ⟨hmeets, ?_⟩⟩
  have hreached : Reached K s s := .refl hs hrouted
  have hpasses : ∀ tuple ∈ tuples ++ [.endExecution], Passes s tuple := by
    intro tuple hmem
    rcases List.mem_append.mp hmem with hmem | hmem
    · exact hreached.passes hmeets tuple hmem
    · rw [List.mem_singleton.mp hmem]
      intro lookup subNbr hsub
      cases lookup <;> cases hsub
  obtain ⟨t, z, hserial, hbatches, rfl, -⟩ :=
    run_batches executor hpasses hcut memories memories' v n
  refine ⟨z, hbatches, ?_⟩
  rw [run_serial (fun hmem => hend (List.mem_filter.mp hmem).1),
    hreached.run_filter hs hrouted hmeets, ← run_serial hend, hserial]

end Queues

/-- The number after the last one. -/
def nobody : CString := ⟨[48, 48, 48, 48, 48, 48, 48, 48, 48, 48, 48, 48, 48, 48, 50], fun _ => 0⟩

private theorem numberAbsent_nobody (h : Loaded (entries partitioned oneSubscriber) s) :
    NumberAbsent s nobody := by
  intro k r hr
  obtain ⟨hmem, -⟩ := (h.row .subscriber k r).mp hr
  obtain ⟨sId, hsId, -, hnumber, -⟩ := subscriber_entry hmem
  obtain rfl : sId = 1 := List.mem_singleton.mp hsId
  rw [hnumber, TatpUtil.padWithZero]
  simp
  decide

/-- A tuple that deletes a call forwarding of nobody, in a batch run by a pool of threads. -/
theorem unknown_change_nothing_iff_oneSubscriber : ∃ s z,
    (startPopulate (manager layout) partitioned oneSubscriber).run .empty = some ((), s) ∧
    Unknown s (.deleteCallForwarding ⟨nobody, 2, 16⟩) ∧
    serialStep partitioned s (.deleteCallForwarding ⟨nobody, 2, 16⟩) = some s ∧
    Determinate (Executor.threadPool.limit partitioned)
      ⟨start partitioned (fun _ _ _ => 0) 0 [[.deleteCallForwarding ⟨nobody, 2, 16⟩, .endExecution]],
        [], ((s, fun _ => []), fun _ => none)⟩ z ∧ z.1.1 = s := by
  obtain ⟨s, hpopulate, hloaded⟩ :=
    run_startPopulate (K := partitioned) (by decide : oneSubscriber.names.Nodup)
  have hunknown : Unknown s (.deleteCallForwarding ⟨nobody, 2, 16⟩) := numberAbsent_nobody hloaded
  have hnone : s.row (.callForwarding (partitioned.offset (-1))) (callForwardingKey (-1) 2 16) = none :=
    Loaded.row_eq_none hloaded (by decide : RowName.callForwarding (-1) 2 16 ∉ oneSubscriber.names)
  have hcut : Cut ([.deleteCallForwarding ⟨nobody, 2, 16⟩] ++ [.endExecution])
      [[.deleteCallForwarding ⟨nobody, 2, 16⟩] ++ [.endExecution]] := .last (by simp)
  have hend : EventTuple.endExecution ∉ [EventTuple.deleteCallForwarding ⟨nobody, 2, 16⟩] := by simp
  obtain ⟨⟨s', hstep, hsame, -⟩, z, hbatches, hserial⟩ :=
    (unknown_change_nothing_iff partitioned .threadPool (Loaded.indexed hloaded)
      (Loaded.routed hloaded) hend hcut (fun _ _ _ => 0) (fun _ _ => 0) (fun _ => [])
      (fun _ => none)).mpr ⟨fun _ => hnone, fun _ _ => trivial⟩
  rw [hsame hunknown] at hstep
  rw [List.filter_cons_of_neg (by simpa using hunknown)] at hserial
  exact ⟨s, z, hpopulate, hunknown, hstep, hbatches, (congrArg Prod.snd (Option.some.inj hserial)).symm⟩

/-- A new location for nobody is written through a `NULL` record, and a call forwarding of nobody is
inserted under -1. -/
theorem unknown_change_tables : ∃ s s',
    (startPopulate (manager layout) partitioned oneSubscriber).run .empty = some ((), s) ∧
    Unknown s (.updateLocation ⟨5, nobody⟩) ∧
    (TatpSerialProcessor.process (manager layout) partitioned (fun _ => 0)
      (.updateLocation ⟨5, nobody⟩)).run s = none ∧
    Unknown s (.insertCallForwarding ⟨nobody, 2, 16, 20, nobody⟩) ∧
    (TatpSerialProcessor.process (manager layout) partitioned (fun _ => 0)
      (.insertCallForwarding ⟨nobody, 2, 16, 20, nobody⟩)).run s = some ((), s') ∧ s' ≠ s := by
  obtain ⟨s, hpopulate, hloaded⟩ :=
    run_startPopulate (K := partitioned) (by decide : oneSubscriber.names.Nodup)
  have habsent := numberAbsent_nobody hloaded
  have hnobody := (Loaded.indexed hloaded).subscriberId_absent habsent
  have hsubscriber : s.row .subscriber (subscriberKey (-1)) = none :=
    Loaded.row_eq_none hloaded (by decide : RowName.subscriber (-1) ∉ oneSubscriber.names)
  have hforwarding : s.row (.callForwarding (partitioned.offset (-1))) (callForwardingKey (-1) 2 16) =
      none :=
    Loaded.row_eq_none hloaded (by decide : RowName.callForwarding (-1) 2 16 ∉ oneSubscriber.names)
  refine ⟨s, _, hpopulate, habsent, ?_, habsent, run_processInsertCallForwarding hnobody _, ?_⟩
  · rw [TatpSerialProcessor.process, run_processUpdateLocation hnobody, hsubscriber]
    rfl
  · rw [if_neg (by simp [hforwarding])]
    intro hsame
    have hrow := Store.row_of_setRow_eq_self s hsame
    rw [hforwarding] at hrow
    cases hrow

end ImdbD.Benchmark.TATP.TatpBatchProcessor
