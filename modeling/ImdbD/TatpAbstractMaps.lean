import ImdbD.TatpMaps
import ImdbD.TatpStorage

/-!
# The transactions of TATP implement their maps

Every transaction has its effect on the maps and leaves the other rows and
columns alone. So has a whole queue, on the store of records and on the tables
with slots and indexes that represent it.
-/
namespace ImdbD.Benchmark.TATP
open ByteMemory StorageEngine AtomicProgram RecordStore TatpPopulator
open KeyedStore (Store)

variable {K : Constants} {s₀ s s' s'' : Tables} {f g : Maps → Maps}

/-- The tables change as the maps do, and nothing else of them. -/
structure Performs (K : Constants) (f : Maps → Maps) (s s' : Tables) : Prop where
  kept : Kept s s'
  routed : Routed K s → Routed K s'
  maps : Maps.of K s' = f (Maps.of K s)

theorem Performs.refl (s : Tables) : Performs K id s s := ⟨.refl s, id, rfl⟩

theorem Performs.trans (h : Performs K f s s') (h' : Performs K g s' s'') :
    Performs K (fun m => g (f m)) s s'' :=
  ⟨h.kept.trans h'.kept, fun hs => h'.routed (h.routed hs), by rw [h'.maps, h.maps]⟩

section Effects
variable {sId : Int32} {sfType startTime endTime : Int8}

private theorem callForwarding_ne {a : Int32 × Int8 × Int8} (ha : a ≠ (sId, sfType, startTime)) :
    RowName.callForwarding a.1 a.2.1 a.2.2 ≠ .callForwarding sId sfType startTime := by
  intro he
  obtain ⟨h₁, h₂, h₃⟩ := RowName.callForwarding.inj he
  exact ha (Prod.ext h₁ (Prod.ext h₂ h₃))

theorem performs_delete (s : Tables) : Performs K (Effect.deleteForwarding sId sfType startTime).apply s
    (s.eraseRow (.callForwarding (K.offset sId)) (callForwardingKey sId sfType startTime)) where
  kept := .of_callForwarding (fun id hid => funext (Store.row_eraseRow_other s (hid _))) rfl
  routed h := h.eraseRow _ _
  maps := by
    have helse : Elsewhere K (.callForwarding sId sfType startTime) s _ := elsewhere_eraseRow s
    refine Maps.ext (Function.eq_update_iff.mpr ⟨?_, fun a ha => ?_⟩)
      (funext fun _ => helse.vlrLocation nofun) (funext fun _ => helse.bit1 nofun)
      (funext fun _ => helse.dataA nofun)
    · exact congrArg (Option.map _) (Store.row_eraseRow_self s)
    · exact helse.callForwarding (callForwarding_ne ha)

private theorem columns_callForwardingRecord (numberx : CString) :
    (readInt8 ((callForwardingRecord sId sfType startTime endTime numberx).getColumn 3),
      (callForwardingRecord sId sfType startTime endTime numberx).getColumn 4) =
      (endTime, numberx.read 15) := by
  have hend : (3, int8Bytes endTime) ∈ callForwardingColumns sId sfType startTime endTime numberx := by
    simp [callForwardingColumns]
  have hnumber : (4, numberx.read 15) ∈
      callForwardingColumns sId sfType startTime endTime numberx := by
    simp [callForwardingColumns]
  rw [getColumn_callForwardingRecord hend (by simp; rfl),
    getColumn_callForwardingRecord hnumber (by simp; rfl), readInt8_int8Bytes]

theorem performs_insert (s : Tables) (numberx : CString) :
    Performs K (Effect.insertForwarding sId sfType startTime endTime (numberx.read 15)).apply s
      (if (s.row (.callForwarding (K.offset sId)) (callForwardingKey sId sfType startTime)).isSome then s
        else s.setRow (.callForwarding (K.offset sId)) (callForwardingKey sId sfType startTime)
          (callForwardingRecord sId sfType startTime endTime numberx)) := by
  split
  · -- The first row stays.
    rename_i hsome
    obtain ⟨r, hr⟩ := Option.isSome_iff_exists.mp hsome
    refine ⟨.refl s, id, Maps.ext (Function.eq_update_iff.mpr ⟨?_, fun _ _ => rfl⟩) rfl rfl rfl⟩
    simp only [Maps.of, hr, Option.map_some, Option.some_or]
  · rename_i hnone
    rw [Option.not_isSome_iff_eq_none] at hnone
    refine ⟨.of_callForwarding (fun id hid => funext (Store.row_setRow_other s _ (hid _))) rfl,
      fun h => h.setRow (n := .callForwarding sId sfType startTime) rfl
        primaryKey_callForwardingRecord, ?_⟩
    have helse := elsewhere_setRow (K := K) (n := .callForwarding sId sfType startTime) s
      (callForwardingRecord sId sfType startTime endTime numberx)
    refine Maps.ext (Function.eq_update_iff.mpr ⟨?_, fun a ha => ?_⟩)
      (funext fun _ => helse.vlrLocation nofun) (funext fun _ => helse.bit1 nofun)
      (funext fun _ => helse.dataA nofun)
    · have hself : (Maps.of K s).callForwarding (sId, sfType, startTime) = none :=
        congrArg (Option.map _) hnone
      rw [hself, Option.none_or, ← columns_callForwardingRecord numberx]
      exact congrArg (Option.map _) (Store.row_setRow_self s _)
    · exact helse.callForwarding (callForwarding_ne ha)

private theorem map_row_changeRow {id : TableId} {k : Bytes} {β : Type} (s : Tables)
    (change : Record (layout id).schema → Record (layout id).schema)
    (read : Record (layout id).schema → β) :
    ((s.changeRow id k change).row id k).map read = (s.row id k).map (fun r => read (change r)) := by
  rw [Store.row_changeRow_self, Option.map_map]
  rfl

/-- A value that is written to a column of a row. -/
theorem map_row_written {id : TableId} {k : Bytes} {β : Type} (s : Tables)
    {change : Record (layout id).schema → Record (layout id).schema}
    {read : Record (layout id).schema → β} {value : β} (h : ∀ r, read (change r) = value) :
    ((s.changeRow id k change).row id k).map read = ((s.row id k).map read).map (fun _ => value) := by
  rw [map_row_changeRow, Option.map_map]
  exact congrArg (fun f => Option.map f _) (funext h)

private theorem map_row_unwritten {id : TableId} {k : Bytes} {β : Type} (s : Tables)
    {change : Record (layout id).schema → Record (layout id).schema}
    {read : Record (layout id).schema → β} (h : ∀ r, read (change r) = read r) :
    ((s.changeRow id k change).row id k).map read = (s.row id k).map read := by
  rw [map_row_changeRow]
  exact congrArg (fun f => Option.map f _) (funext h)

/-- A column is written to a row, if there is one. -/
theorem performs_setColumn {n : RowName} (s : Tables) {column : ℕ} (value : Bytes)
    (hlt : column < (layout (n.table K)).schema.schema.columnCount)
    (hwritten : column ∈ written (n.table K))
    (hmaps : Elsewhere K n s (s.changeRow (n.table K) n.key (fun r => r.setColumn column value)) →
      Maps.of K (s.changeRow (n.table K) n.key (fun r => r.setColumn column value)) =
        f (Maps.of K s)) :
    Performs K f s (s.changeRow (n.table K) n.key (fun r => r.setColumn column value)) where
  kept := .changeRow s _ (fun r => .setColumn hlt hwritten r value)
  routed h := h.changeRow _ (fun r => .setColumn hlt hwritten r value)
  maps := hmaps (elsewhere_changeRow s _)

theorem subscriber_ne {a : Int32} (ha : a ≠ sId) : RowName.subscriber a ≠ .subscriber sId :=
  fun he => ha (RowName.subscriber.inj he)

theorem performs_vlrLocation (s : Tables) (vlrLocation : Int32) :
    Performs K (fun m => { m with vlrLocation := assign m.vlrLocation sId vlrLocation }) s
      (s.changeRow .subscriber (subscriberKey sId)
        (fun r => r.setColumn 33 (int32Bytes vlrLocation))) := by
  have hvlr : ∀ r : Record TatpSchema.getSubscriberSchema,
      readInt32 ((r.setColumn 33 (int32Bytes vlrLocation)).getColumn 33) = vlrLocation := fun r => by
    rw [r.getColumn_setColumn_full (by decide) (by simp; rfl), readInt32_int32Bytes]
  have hbit : ∀ r : Record TatpSchema.getSubscriberSchema,
      readInt8 ((r.setColumn 33 (int32Bytes vlrLocation)).getColumn 2) =
        readInt8 (r.getColumn 2) := fun r => by
    rw [r.getColumn_setColumn_ne (by decide) (by decide) (by decide)]
  have hcolumn : 33 < TatpSchema.getSubscriberSchema.schema.columnCount := by decide
  refine performs_setColumn (n := .subscriber sId) s _ hcolumn (by decide : 33 ∈ [2, 33])
    (fun helse => Maps.ext (funext fun _ => helse.callForwarding nofun)
      (Function.eq_update_iff.mpr ⟨map_row_written s hvlr, fun a ha =>
        helse.vlrLocation (subscriber_ne ha)⟩) (funext fun a => ?_) (funext fun _ => helse.dataA nofun))
  by_cases ha : a = sId
  · subst ha
    exact map_row_unwritten s hbit
  · exact helse.bit1 (subscriber_ne ha)

theorem performs_bit1 (s : Tables) (bit1 : Int8) :
    Performs K (fun m => { m with bit1 := assign m.bit1 sId bit1 }) s
      (s.changeRow .subscriber (subscriberKey sId) (fun r => r.setColumn 2 (int8Bytes bit1))) := by
  have hbit : ∀ r : Record TatpSchema.getSubscriberSchema,
      readInt8 ((r.setColumn 2 (int8Bytes bit1)).getColumn 2) = bit1 := fun r => by
    rw [r.getColumn_setColumn_full (by decide) (by simp; rfl), readInt8_int8Bytes]
  have hvlr : ∀ r : Record TatpSchema.getSubscriberSchema,
      readInt32 ((r.setColumn 2 (int8Bytes bit1)).getColumn 33) =
        readInt32 (r.getColumn 33) := fun r => by
    rw [r.getColumn_setColumn_ne (by decide) (by decide) (by decide)]
  have hcolumn : 2 < TatpSchema.getSubscriberSchema.schema.columnCount := by decide
  refine performs_setColumn (n := .subscriber sId) s _ hcolumn (by decide : 2 ∈ [2, 33])
    (fun helse => Maps.ext (funext fun _ => helse.callForwarding nofun) (funext fun a => ?_)
      (Function.eq_update_iff.mpr ⟨map_row_written s hbit, fun a ha =>
        helse.bit1 (subscriber_ne ha)⟩) (funext fun _ => helse.dataA nofun))
  by_cases ha : a = sId
  · subst ha
    exact map_row_unwritten s hvlr
  · exact helse.vlrLocation (subscriber_ne ha)

theorem performs_dataA (s : Tables) (dataA : Int16) :
    Performs K (fun m => { m with dataA := assign m.dataA (sId, sfType) dataA }) s
      (s.changeRow (.specialFacility (K.offset sId)) (typeKey sId sfType)
        (fun r => r.setColumn 4 (int16Bytes dataA))) := by
  have hdata : ∀ r : Record TatpSchema.getSpecialFacilitySchema,
      readInt16 ((r.setColumn 4 (int16Bytes dataA)).getColumn 4) = dataA := fun r => by
    rw [r.getColumn_setColumn_full (by decide) (by simp; rfl), readInt16_int16Bytes]
  have hcolumn : 4 < TatpSchema.getSpecialFacilitySchema.schema.columnCount := by decide
  refine performs_setColumn (n := .specialFacility sId sfType) s _ hcolumn (by decide : 4 ∈ [4])
    (fun helse => Maps.ext (funext fun _ => helse.callForwarding nofun)
      (funext fun _ => helse.vlrLocation nofun) (funext fun _ => helse.bit1 nofun)
      (Function.eq_update_iff.mpr ⟨map_row_written s hdata, fun a ha => helse.dataA (fun he => ha ?_)⟩))
  obtain ⟨h₁, h₂⟩ := RowName.specialFacility.inj he
  exact Prod.ext h₁ h₂

end Effects

/-- A number leads to the subscriber that carries it. -/
def Numbered (s : Tables) : Prop :=
  ∀ sId subNbr, Carries s sId subNbr → subscriberId s subNbr = some sId

/-- One transaction of a run from `s₀`. -/
theorem run_process (hnumbered : Numbered s₀) (hkept : Kept s₀ s) {tuple : EventTuple}
    {effect : Effect} (hd : Denotes s₀ tuple effect) (memory : Memory) :
    ∃ s', (TatpSerialProcessor.process (manager layout) K memory tuple).run s = some ((), s') ∧
      Performs K effect.apply s s' := by
  have hlookup : ∀ {sId subNbr}, Carries s₀ sId subNbr → subscriberId s subNbr = some sId := by
    intro sId subNbr hcarries
    rw [hkept.subscriberId, hnumbered _ _ hcarries]
  cases hd with
  | deleteCallForwarding hcarries =>
    exact ⟨_, run_processDeleteCallForwarding (hlookup hcarries), performs_delete s⟩
  | getAccessData param => exact ⟨s, run_getAccessInfo s param.aiType, .refl s⟩
  | getNewDestination param => exact ⟨s, rfl, .refl s⟩
  | getSubscriberData param => exact ⟨s, run_getSubscriberData s, .refl s⟩
  | insertCallForwarding hcarries =>
    exact ⟨_, run_processInsertCallForwarding (hlookup hcarries) memory, performs_insert s _⟩
  | @updateLocation param sId hcarries =>
    have hsome : (s.row .subscriber (subscriberKey sId)).isSome := by
      obtain ⟨r, hr, -⟩ := hcarries
      have hne : ∀ off, TableId.subscriber ≠ .callForwarding off := fun _ => nofun
      rw [← hkept.isSome_row hne, hr]
      rfl
    refine ⟨_, ?_, performs_vlrLocation s param.vlrLocation⟩
    rw [TatpSerialProcessor.process, run_processUpdateLocation (hlookup hcarries), if_pos hsome]
  | updateSubscriberData param =>
    exact ⟨_, run_processUpdateSubscriberData s param,
      (performs_bit1 s param.bit1).trans (performs_dataA _ param.dataA)⟩

theorem run_start (hnumbered : Numbered s₀) (hkept : Kept s₀ s) {tuples : List EventTuple}
    {effects : List Effect} (hd : List.Forall₂ (Denotes s₀) tuples effects)
    (memories : ℕ → Memory) (txnCnt : ℕ) :
    ∃ s', (TatpSerialProcessor.start (manager layout) K memories txnCnt
        (tuples ++ [.endExecution])).run s = some ((), s') ∧
      Performs K (fun m => effects.foldl (fun m e => e.apply m) m) s s' := by
  induction hd generalizing s txnCnt with
  | nil => exact ⟨s, rfl, .refl s⟩
  | @cons tuple effect tuples effects htuple _ ih =>
    obtain ⟨s₁, hrun, hperforms⟩ := run_process (K := K) hnumbered hkept htuple (memories txnCnt)
    obtain ⟨s₂, hrest, hperforms'⟩ := ih (hkept.trans hperforms.kept) (txnCnt + 1)
    refine ⟨s₂, ?_, hperforms.trans hperforms'⟩
    have hstart : TatpSerialProcessor.start (manager layout) K memories txnCnt
        (tuple :: (tuples ++ [.endExecution])) = (do
          TatpSerialProcessor.process (manager layout) K (memories txnCnt) tuple
          TatpSerialProcessor.start (manager layout) K memories (txnCnt + 1)
            (tuples ++ [.endExecution])) := by
      cases htuple <;> rfl
    rw [List.cons_append, hstart, Program.run_bind, hrun, Option.bind_some]
    exact hrest

variable {draws : Draws}

private theorem Loaded.named (h : Loaded (entries K draws) s) {id : TableId} {k : Bytes}
    {r : Record (layout id).schema} (hr : s.row id k = some r) :
    r.primaryKey = some k ∧ ∃ n ∈ draws.names, n.place K = ⟨id, k⟩ := by
  obtain ⟨hmem, hk⟩ := (h.row id k r).mp hr
  have hplace := List.mem_map_of_mem (f := RecordStore.place) hmem
  rw [entries_places, place_eq hk] at hplace
  exact ⟨hk, List.mem_map.mp hplace⟩

theorem Loaded.routed (h : Loaded (entries K draws) s) : Routed K s := by
  intro id k r hr
  obtain ⟨hk, n, -, hn⟩ := Loaded.named h hr
  exact ⟨hk, n, hn⟩

theorem Loaded.row_eq_none (h : Loaded (entries K draws) s) {n : RowName} (hn : n ∉ draws.names) :
    s.row (n.table K) n.key = none := by
  refine Option.eq_none_iff_forall_ne_some.mpr (fun r hr => ?_)
  obtain ⟨-, n', hn', he⟩ := Loaded.named h hr
  exact hn (RowName.place_injective K he ▸ hn')

/-- No two subscribers have one number. -/
theorem Loaded.numbered (h : Loaded (entries K draws) s) : Numbered s := by
  rintro sId subNbr ⟨r, hr, hcolumn⟩
  obtain ⟨hmem, hkey⟩ := (h.row .subscriber _ r).mp hr
  obtain ⟨i, -, hid, hnumber, hkey'⟩ := subscriber_entry hmem
  obtain rfl : sId = i := subscriberKey_injective (Option.some.inj (hkey.symm.trans hkey'))
  have hin : subscriberKey sId ∈ s.groups .subscriber (subNbr.read 15) :=
    (h.group .subscriber [1] rfl _ _).mpr
      ⟨r, hmem, (List.flatMap_singleton _ _).trans hcolumn, hkey⟩
  have honly : ∀ k ∈ s.groups .subscriber (subNbr.read 15), k = subscriberKey sId := by
    intro k hk
    obtain ⟨r', hmem', hsymbol, hk'⟩ := (h.group .subscriber [1] rfl _ k).mp hk
    obtain ⟨j, -, -, hnumber', hother⟩ := subscriber_entry hmem'
    have hcolumn' : r'.getColumn 1 = subNbr.read 15 :=
      (List.flatMap_singleton _ _).symm.trans hsymbol
    have hsame : TatpUtil.padWithZero (toSize j) = TatpUtil.padWithZero (toSize sId) := by
      rw [← hnumber', ← hnumber, hcolumn, hcolumn']
    obtain rfl := toSize_injective (TatpUtil.padWithZero_injective hsame)
    exact Option.some.inj (hk'.symm.trans hother)
  rw [subscriberId]
  cases hgroup : s.groups .subscriber (subNbr.read 15) with
  | nil =>
    rw [hgroup] at hin
    cases hin
  | cons k ks =>
    obtain rfl := honly k (by rw [hgroup]; exact List.mem_cons_self)
    simp only [List.head?_cons]
    rw [hr, Option.map_some, hid, readInt32_int32Bytes]

/-- A populated subscriber is named by its padded number. -/
theorem Loaded.carries (h : Loaded (entries K draws) s) {sId : Int32} (hsId : sId ∈ sIds draws)
    {subNbr : CString} (hread : subNbr.read 15 = TatpUtil.padWithZero (toSize sId)) :
    Carries s sId subNbr := by
  have hmem : subscriberEntry draws sId ∈ entries K draws :=
    List.mem_append_left _ (List.mem_map_of_mem hsId)
  exact ⟨_, (h.row .subscriber _ _).mpr ⟨hmem, primaryKey_subscriberRow _⟩,
    (getColumn_subscriberRow hsId).trans hread.symm⟩

/-- The serial processor on a populated database, whose rows have distinct keys: after every part of
a queue the slots hold the rows that the effects so far have left. -/
theorem serial_refines_maps (K : Constants) {draws : Draws} (hkeys : draws.names.Nodup)
    (memories : ℕ → Memory) :
    ∃ t s, (startPopulate (SchemaTables.manager layout) K draws).run (init K) = some ((), t) ∧
      SchemaTables.Contain layout (· ∈ registered K) t s ∧ Loaded (entries K draws) s ∧
      ∀ tuples effects, List.Forall₂ (Denotes s) tuples effects → ∀ n, ∃ t' s',
        (TatpSerialProcessor.start (SchemaTables.manager layout) K memories 0
          (tuples.take n ++ [.endExecution])).run t = some ((), t') ∧
        SchemaTables.Contain layout (· ∈ registered K) t' s' ∧
        Maps.of K s' = (effects.take n).foldl (fun m e => e.apply m) (Maps.of K s) ∧
        Kept s s' ∧ Routed K s' := by
  obtain ⟨s, hpopulate, hloaded⟩ := run_startPopulate (K := K) hkeys
  obtain ⟨⟨_, t, ht, hrep⟩, -⟩ :=
    (tableSimulation K).startPopulate (represents_init K) draws _ _ hpopulate
  refine ⟨t, s, ht, hrep.contain layout_keyed, hloaded, fun tuples effects hd n => ?_⟩
  obtain ⟨s', hrun, hperforms⟩ := run_start (K := K) (Loaded.numbered hloaded) (.refl s)
    (List.forall₂_take n hd) memories 0
  obtain ⟨⟨_, t', ht', hrep'⟩, -⟩ := (tableSimulation K).start hrep memories 0 _ _ _ hrun
  exact ⟨t', s', ht', hrep'.contain layout_keyed, hperforms.maps, hperforms.kept,
    hperforms.routed (Loaded.routed hloaded)⟩

/-- One subscriber with a facility of two types and one call forwarding each. -/
def oneSubscriber : Draws where
  subscriberSize := 1
  size_lt := by decide
  subscriber sId := ⟨sId, [], fun _ => 0, fun _ => 0, fun _ => 0, 0, 0⟩
  aiTypes := [1, 4]
  accessInfo sId _ := ⟨sId, 0, 0, 0, .replicate 3 65, .replicate 5 65⟩
  sfTypes _ := [2, 3]
  specialFacility sId _ := ⟨sId, 0, 1, 0, 0, .replicate 5 65⟩
  startTimes _ _ := [8]
  callForwarding sId _ _ := ⟨sId, 0, 0, 0, .replicate 15 48⟩
  buffer _ _ _ _ _ := 0

/-- The number of this subscriber. -/
def firstNumber : CString := ⟨[48, 48, 48, 48, 48, 48, 48, 48, 48, 48, 48, 48, 48, 48, 49], fun _ => 0⟩

def partitioned : Constants := ⟨4, true, 8, by decide, by decide, by decide⟩

/-- A call forwarding that is inserted and deleted again. -/
theorem serial_refines_maps_oneSubscriber : ∃ t t' s',
    (startPopulate (SchemaTables.manager layout) partitioned oneSubscriber).run (init partitioned) =
      some ((), t) ∧
    (TatpSerialProcessor.start (SchemaTables.manager layout) partitioned (fun _ _ => 0) 0
      [.insertCallForwarding ⟨firstNumber, 2, 16, 20, firstNumber⟩,
        .deleteCallForwarding ⟨firstNumber, 2, 16⟩, .endExecution]).run t = some ((), t') ∧
    SchemaTables.Contain layout (· ∈ registered partitioned) t' s' ∧
    (Maps.of partitioned s').callForwarding (1, 2, 16) = none := by
  have hkeys : oneSubscriber.names.Nodup := by decide
  obtain ⟨t, s, hpopulate, -, hloaded, hrun⟩ :=
    serial_refines_maps partitioned hkeys (fun _ _ => 0)
  have hcarries : Carries s 1 firstNumber :=
    Loaded.carries hloaded (by decide) (by rw [TatpUtil.padWithZero]; simp; decide)
  obtain ⟨t', s', hstart, hcontain, hmaps, -⟩ := hrun
    [.insertCallForwarding ⟨firstNumber, 2, 16, 20, firstNumber⟩,
      .deleteCallForwarding ⟨firstNumber, 2, 16⟩] _
    (.cons (.insertCallForwarding hcarries) (.cons (.deleteCallForwarding hcarries) .nil)) 2
  refine ⟨t, t', s', hpopulate, hstart, hcontain, ?_⟩
  rw [hmaps]
  simp only [List.take, List.foldl_cons, List.foldl_nil, Effect.apply, Function.update_self]

end ImdbD.Benchmark.TATP
