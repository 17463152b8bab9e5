import ImdbD.TableLoad
import ImdbD.TatpStorage
import ImdbD.TatpSubArray

/-!
# The shape of the TATP population

Every subscriber is to have some access infos and special facilities of distinct
types, and each facility some call forwardings of distinct start times. What it
has are the types that the arrays of the populator held before they were drawn.
-/
namespace ImdbD.Benchmark.TATP
open ByteMemory StorageEngine AtomicProgram TatpPopulator TatpUtil RandomGenerator

variable {K : Constants} {draws : Draws} {t : SchemaTables TableId} {sId : Int32}

private theorem typeKey_columns {S : BuiltSchema} {r : Record S} {sId : Int32} {type : Int8}
    (hcols : S.schema.primaryCols = [0, 1]) (hlen : S.schema.primaryKeyLength ≠ 0)
    (hsize : (r.getColumn 0).length = 4)
    (h : S.schema.getPrimaryKeySymbol r.data = typeKey sId type) :
    r.getColumn 0 = int32Bytes sId ∧ r.getColumn 1 = int8Bytes type := by
  have hsym : S.schema.getPrimaryKeySymbol r.data = r.getColumn 0 ++ r.getColumn 1 := by
    rw [S.built.layout.getPrimaryKeySymbol_eq hlen, hcols]
    simp [Schema.getKeySymbol, Record.getColumn]
  exact List.append_inj (hsym.symm.trans h) (hsize.trans (length_int32Bytes sId).symm)

private theorem accessInfo_columns {r : Record TatpSchema.getAccessInfoSchema} {sId : Int32} {aiType : Int8}
    (h : TatpSchema.getAccessInfoSchema.schema.getPrimaryKeySymbol r.data = typeKey sId aiType) :
    TatpSchema.getAccessInfoSchema.schema.getColumn r.data 0 = int32Bytes sId ∧
      TatpSchema.getAccessInfoSchema.schema.getColumn r.data 1 = int8Bytes aiType :=
  typeKey_columns (by decide) (by decide) (r.length_getColumn (by decide)) h

private theorem specialFacility_columns {r : Record TatpSchema.getSpecialFacilitySchema} {sId : Int32}
    {sfType : Int8}
    (h : TatpSchema.getSpecialFacilitySchema.schema.getPrimaryKeySymbol r.data = typeKey sId sfType) :
    TatpSchema.getSpecialFacilitySchema.schema.getColumn r.data 0 = int32Bytes sId ∧
      TatpSchema.getSpecialFacilitySchema.schema.getColumn r.data 1 = int8Bytes sfType :=
  typeKey_columns (by decide) (by decide) (r.length_getColumn (by decide)) h

private theorem callForwarding_columns {r : Record TatpSchema.getCallForwardingSchema} {sId : Int32}
    {sfType startTime : Int8}
    (h : TatpSchema.getCallForwardingSchema.schema.getPrimaryKeySymbol r.data =
      callForwardingKey sId sfType startTime) :
    TatpSchema.getCallForwardingSchema.schema.getColumn r.data 0 = int32Bytes sId ∧
      TatpSchema.getCallForwardingSchema.schema.getColumn r.data 1 = int8Bytes sfType ∧
      TatpSchema.getCallForwardingSchema.schema.getColumn r.data 2 = int8Bytes startTime := by
  have hsym : TatpSchema.getCallForwardingSchema.schema.getPrimaryKeySymbol r.data =
      r.getColumn 0 ++ (r.getColumn 1 ++ r.getColumn 2) := by
    rw [TatpSchema.getCallForwardingSchema.built.layout.getPrimaryKeySymbol_eq (by decide)]
    change [0, 1, 2].flatMap _ = _
    simp [Record.getColumn]
  rw [hsym, callForwardingKey, List.append_assoc] at h
  obtain ⟨hid, hrest⟩ := List.append_inj h
    ((r.length_getColumn (by decide)).trans (length_int32Bytes sId).symm)
  obtain ⟨htype, hstart⟩ := List.append_inj hrest
    ((r.length_getColumn (by decide)).trans (length_int8Bytes sfType).symm)
  exact ⟨hid, htype, hstart⟩

/-- The types of the access infos of a subscriber. -/
def aiTypes (K : Constants) (t : SchemaTables TableId) (sId : Int32) : List Int8 :=
  (t.column (.accessInfo (K.offset sId)) [(0, int32Bytes sId)] 1).map readInt8

def sfTypes (K : Constants) (t : SchemaTables TableId) (sId : Int32) : List Int8 :=
  (t.column (.specialFacility (K.offset sId)) [(0, int32Bytes sId)] 1).map readInt8

/-- The start times of the call forwardings of a facility. -/
def startTimes (K : Constants) (t : SchemaTables TableId) (sId : Int32) (sfType : Int8) :
    List Int8 :=
  (t.column (.callForwarding (K.offset sId)) [(0, int32Bytes sId), (1, int8Bytes sfType)] 2).map
    readInt8

/-- One to four distinct types from 1 to 4. -/
def TypesWell (types : List Int8) : Prop :=
  1 ≤ types.length ∧ types.length ≤ 4 ∧ types.Nodup ∧ ∀ a ∈ types, 1 ≤ a ∧ a ≤ 4

/-- Up to three distinct times of those that the transactions ask for. -/
def StartsWell (starts : List Int8) : Prop :=
  starts.length ≤ 3 ∧ starts.Nodup ∧ ∀ a ∈ starts, a ∈ [0, 8, 16]

theorem TypesWell.perm {types types' : List Int8} (h : types.Perm types') :
    TypesWell types ↔ TypesWell types' := by
  rw [TypesWell, TypesWell, h.length_eq, h.nodup_iff]
  simp only [h.mem_iff]

theorem StartsWell.perm {starts starts' : List Int8} (h : starts.Perm starts') :
    StartsWell starts ↔ StartsWell starts' := by
  rw [StartsWell, StartsWell, h.length_eq, h.nodup_iff]
  simp only [h.mem_iff]

/-- The population as the benchmark describes it. -/
structure WellFormed (K : Constants) (sIds : List Int32) (t : SchemaTables TableId) : Prop where
  accessInfo : ∀ sId ∈ sIds, TypesWell (aiTypes K t sId)
  specialFacility : ∀ sId ∈ sIds, TypesWell (sfTypes K t sId)
  callForwarding : ∀ sId ∈ sIds, ∀ sfType ∈ sfTypes K t sId, StartsWell (startTimes K t sId sfType)
  keys : ∀ id ∈ registered K, ∃ table, t id = some table ∧
    (table.records.map table.schema.getPrimaryKeySymbol).Nodup

/-- The type in a name, where it is that of an access info of the subscriber. -/
def RowName.aiType (sId : Int32) : RowName → Option Int8
  | accessInfo sId' aiType => if sId' = sId then some aiType else none
  | _ => none

def RowName.sfType (sId : Int32) : RowName → Option Int8
  | specialFacility sId' sfType => if sId' = sId then some sfType else none
  | _ => none

def RowName.startTime (sId : Int32) (sfType : Int8) : RowName → Option Int8
  | callForwarding sId' sfType' startTime =>
    if sId' = sId then if sfType' = sfType then some startTime else none else none
  | _ => none

/-- What the populator filled the registered tables with. -/
abbrev Populated (K : Constants) (draws : Draws) (t : SchemaTables TableId) : Prop :=
  SchemaTables.Filled layout (· ∈ registered K) (entries K draws) t

/-- A column of the selected rows is read off their names. -/
theorem column_names (h : Populated K draws t) {id : TableId} (hid : id ∈ registered K)
    {wanted : List (ℕ × Bytes)} {column : ℕ} {ψ : RowName → Option Int8}
    (hread : ∀ (n : RowName) (r : Record (layout (n.table K)).schema),
      (layout (n.table K)).schema.schema.getPrimaryKeySymbol r.data = n.key →
      (if n.table K = id then
        if ∀ w ∈ wanted, (layout id).schema.schema.getColumn r.data w.1 = w.2 then
          some (readInt8 ((layout id).schema.schema.getColumn r.data column)) else none
        else none) = ψ n) :
    ((t.column id wanted column).map readInt8).Perm (draws.names.filterMap ψ) := by
  refine ((h.column hid wanted column).map readInt8).trans (.of_eq ?_)
  rw [List.map_filterMap]
  refine Lists.filterMap_eq_of_map_eq entries_places (fun e n hplace => ?_)
  obtain ⟨id', r⟩ := e
  obtain rfl : id' = n.table K := congrArg Sigma.fst hplace
  have hkey : (layout (n.table K)).schema.schema.getPrimaryKeySymbol r.data = n.key :=
    eq_of_heq (Sigma.mk.inj hplace).2
  rw [← hread n r hkey]
  split
  · split <;> rfl
  · rfl

private theorem aiTypes_names (h : Populated K draws t) (sId : Int32) :
    (aiTypes K t sId).Perm (draws.names.filterMap (RowName.aiType sId)) := by
  refine column_names h (K.route_registered .accessInfo sId) (fun n r hkey => ?_)
  cases n with
  | accessInfo sId' aiType =>
    obtain ⟨hcol, htype⟩ := accessInfo_columns hkey
    by_cases hs : sId' = sId
    · subst hs
      simp [RowName.table, RowName.aiType, hcol, htype]
    · simp [RowName.table, RowName.aiType, hcol, int32Bytes_injective.eq_iff, hs]
  | subscriber sId' => simp [RowName.table, RowName.aiType]
  | specialFacility sId' sfType => simp [RowName.table, RowName.aiType]
  | callForwarding sId' sfType startTime => simp [RowName.table, RowName.aiType]

private theorem sfTypes_names (h : Populated K draws t) (sId : Int32) :
    (sfTypes K t sId).Perm (draws.names.filterMap (RowName.sfType sId)) := by
  refine column_names h (K.route_registered .specialFacility sId) (fun n r hkey => ?_)
  cases n with
  | specialFacility sId' sfType =>
    obtain ⟨hcol, htype⟩ := specialFacility_columns hkey
    by_cases hs : sId' = sId
    · subst hs
      simp [RowName.table, RowName.sfType, hcol, htype]
    · simp [RowName.table, RowName.sfType, hcol, int32Bytes_injective.eq_iff, hs]
  | subscriber sId' => simp [RowName.table, RowName.sfType]
  | accessInfo sId' aiType => simp [RowName.table, RowName.sfType]
  | callForwarding sId' sfType startTime => simp [RowName.table, RowName.sfType]

private theorem startTimes_names (h : Populated K draws t) (sId : Int32) (sfType : Int8) :
    (startTimes K t sId sfType).Perm (draws.names.filterMap (RowName.startTime sId sfType)) := by
  refine column_names h (K.route_registered .callForwarding sId) (fun n r hkey => ?_)
  cases n with
  | callForwarding sId' sfType' startTime =>
    obtain ⟨hcol, htype, hstart⟩ := callForwarding_columns hkey
    by_cases hs : sId' = sId
    · subst hs
      simp [RowName.table, RowName.startTime, hcol, htype, hstart, int8Bytes_injective.eq_iff]
    · simp [RowName.table, RowName.startTime, hcol, int32Bytes_injective.eq_iff, hs]
  | subscriber sId' => simp [RowName.table, RowName.startTime]
  | accessInfo sId' aiType => simp [RowName.table, RowName.startTime]
  | specialFacility sId' sfType' => simp [RowName.table, RowName.startTime]

/-- What is read off the names, subscriber by subscriber. -/
theorem filterMap_names {α : Type*} {ψ : RowName → Option α} (h : ∀ sId, ψ (.subscriber sId) = none) :
    draws.names.filterMap ψ =
      (sIds draws).flatMap (fun sId =>
        (draws.aiTypes.map Int32.toInt8).filterMap (fun a => ψ (.accessInfo sId a))) ++
      (sIds draws).flatMap (fun sId => (draws.facilityNames sId).filterMap ψ) := by
  have hnone : (sIds draws).filterMap (ψ ∘ RowName.subscriber) = [] :=
    List.filterMap_eq_nil_iff.mpr (fun sId _ => h sId)
  rw [Draws.names, List.filterMap_append, List.filterMap_append, List.filterMap_map, hnone,
    List.nil_append, List.filterMap_flatMap, List.filterMap_flatMap]
  congr 1
  refine List.flatMap_congr (fun sId _ => ?_)
  rw [← map_zipIdx, List.filterMap_map, List.filterMap_map]
  rfl

theorem filterMap_facilityNames {α : Type*} (ψ : RowName → Option α) (sId : Int32) :
    (draws.facilityNames sId).filterMap ψ = (draws.sfTypes sId).zipIdx.flatMap (fun sf =>
      (ψ (.specialFacility sId sf.1.toInt8)).toList ++
        ((draws.startTimes sId sf.2).map Int32.toInt8).filterMap (fun start =>
          ψ (.callForwarding sId sf.1.toInt8 start))) := by
  rw [Draws.facilityNames, List.filterMap_flatMap]
  refine List.flatMap_congr (fun sf _ => ?_)
  rw [List.filterMap_cons, ← map_zipIdx, List.filterMap_map, List.filterMap_map]
  cases ψ (.specialFacility sId sf.1.toInt8) <;> rfl

theorem pairwise_sIds : (sIds draws).Pairwise (fun s s' => s ≠ s') := nodup_sIds

private theorem names_aiType (hsId : sId ∈ sIds draws) :
    draws.names.filterMap (RowName.aiType sId) = draws.aiTypes.map Int32.toInt8 := by
  have hfacility : ∀ s ∈ sIds draws,
      (draws.facilityNames s).filterMap (RowName.aiType sId) = [] := by
    intro s _
    rw [filterMap_facilityNames]
    simp [RowName.aiType]
  have hown : ∀ s ∈ sIds draws, (draws.aiTypes.map Int32.toInt8).filterMap
      (fun a => RowName.aiType sId (.accessInfo s a)) =
        if s = sId then draws.aiTypes.map Int32.toInt8 else [] := by
    intro s _
    split <;> simp_all [RowName.aiType]
  rw [filterMap_names (fun _ => rfl), List.flatMap_congr hown, List.flatMap_congr hfacility,
    Lists.flatMap_ite_eq pairwise_sIds hsId]
  simp

private theorem names_sfType (hsId : sId ∈ sIds draws) :
    draws.names.filterMap (RowName.sfType sId) = (draws.sfTypes sId).map Int32.toInt8 := by
  have hfacility : ∀ s ∈ sIds draws, (draws.facilityNames s).filterMap (RowName.sfType sId) =
      if s = sId then (draws.sfTypes s).map Int32.toInt8 else [] := by
    intro s _
    rw [filterMap_facilityNames, ← map_zipIdx]
    split
    · simp_all only [RowName.sfType, if_true, Option.toList_some, List.filterMap_none,
        List.append_nil]
      exact List.map_eq_flatMap.symm
    · simp_all [RowName.sfType]
  rw [filterMap_names (fun _ => rfl), List.flatMap_congr hfacility,
    Lists.flatMap_ite_eq pairwise_sIds hsId]
  simp [RowName.sfType]

private theorem names_startTime (hsId : sId ∈ sIds draws)
    (htypes : ((draws.sfTypes sId).map Int32.toInt8).Nodup) {sf : Int32 × ℕ}
    (hsf : sf ∈ (draws.sfTypes sId).zipIdx) :
    draws.names.filterMap (RowName.startTime sId sf.1.toInt8) =
      (draws.startTimes sId sf.2).map Int32.toInt8 := by
  have hfacility : ∀ s ∈ sIds draws,
      (draws.facilityNames s).filterMap (RowName.startTime sId sf.1.toInt8) =
      if s = sId then (draws.sfTypes s).zipIdx.flatMap (fun sf' =>
        if sf'.1.toInt8 = sf.1.toInt8 then (draws.startTimes s sf'.2).map Int32.toInt8 else [])
      else [] := by
    intro s _
    rw [filterMap_facilityNames]
    split
    · refine List.flatMap_congr (fun sf' _ => ?_)
      split <;> simp_all [RowName.startTime]
    · simp_all [RowName.startTime]
  rw [← map_zipIdx] at htypes
  rw [filterMap_names (fun _ => rfl), List.flatMap_congr hfacility,
    Lists.flatMap_ite_eq pairwise_sIds hsId, Lists.flatMap_ite_eq (List.pairwise_map.mp htypes) hsf]
  simp [RowName.startTime]

/-- The types that a subscriber gets are as described. -/
structure Draws.Suits (draws : Draws) (sId : Int32) : Prop where
  aiTypes : TypesWell (draws.aiTypes.map Int32.toInt8)
  sfTypes : TypesWell ((draws.sfTypes sId).map Int32.toInt8)
  startTimes : ∀ sf ∈ (draws.sfTypes sId).zipIdx,
    StartsWell ((draws.startTimes sId sf.2).map Int32.toInt8)

private theorem aiTypes_perm (h : Populated K draws t) (hsId : sId ∈ sIds draws) :
    (aiTypes K t sId).Perm (draws.aiTypes.map Int32.toInt8) :=
  (aiTypes_names h sId).trans (.of_eq (names_aiType hsId))

theorem sfTypes_perm (h : Populated K draws t) (hsId : sId ∈ sIds draws) :
    (sfTypes K t sId).Perm ((draws.sfTypes sId).map Int32.toInt8) :=
  (sfTypes_names h sId).trans (.of_eq (names_sfType hsId))

private theorem startTimes_perm (h : Populated K draws t) (hsId : sId ∈ sIds draws)
    (htypes : ((draws.sfTypes sId).map Int32.toInt8).Nodup) {sf : Int32 × ℕ}
    (hsf : sf ∈ (draws.sfTypes sId).zipIdx) :
    (startTimes K t sId sf.1.toInt8).Perm ((draws.startTimes sId sf.2).map Int32.toInt8) :=
  (startTimes_names h sId _).trans (.of_eq (names_startTime hsId htypes hsf))

private theorem mem_sfTypes (h : Populated K draws t) (hsId : sId ∈ sIds draws) {sfType : Int8} :
    sfType ∈ sfTypes K t sId ↔ ∃ sf ∈ (draws.sfTypes sId).zipIdx, sf.1.toInt8 = sfType := by
  rw [(sfTypes_perm h hsId).mem_iff, ← map_zipIdx, List.mem_map]

/-- The tables are as described exactly when the types of every subscriber are. -/
theorem wellFormed_iff_suits (h : Populated K draws t) :
    WellFormed K (sIds draws) t ↔ ∀ sId ∈ sIds draws, draws.Suits sId := by
  constructor
  · intro hwell sId hsId
    have hsf := (TypesWell.perm (sfTypes_perm h hsId)).mp (hwell.specialFacility sId hsId)
    refine ⟨(TypesWell.perm (aiTypes_perm h hsId)).mp (hwell.accessInfo sId hsId), hsf, ?_⟩
    intro sf hmem
    exact (StartsWell.perm (startTimes_perm h hsId hsf.2.2.1 hmem)).mp
      (hwell.callForwarding sId hsId _ ((mem_sfTypes h hsId).mpr ⟨sf, hmem, rfl⟩))
  · intro hsuits
    have hnames : draws.names.Nodup := Draws.nodup_names
      (fun sId hsId => (hsuits sId hsId).aiTypes.2.2.1)
      (fun sId hsId => Draws.nodup_facilityNames (hsuits sId hsId).sfTypes.2.2.1
        (fun sf hsf => ((hsuits sId hsId).startTimes sf hsf).2.1))
    refine ⟨fun sId hsId => ?_, fun sId hsId => ?_, fun sId hsId sfType hmem => ?_, fun id hid => ?_⟩
    · exact (TypesWell.perm (aiTypes_perm h hsId)).mpr (hsuits sId hsId).aiTypes
    · exact (TypesWell.perm (sfTypes_perm h hsId)).mpr (hsuits sId hsId).sfTypes
    · obtain ⟨sf, hsf, rfl⟩ := (mem_sfTypes h hsId).mp hmem
      exact (StartsWell.perm (startTimes_perm h hsId (hsuits sId hsId).sfTypes.2.2.1 hsf)).mpr
        ((hsuits sId hsId).startTimes sf hsf)
    · refine h.nodup_keys hid ?_
      rw [entries_places]
      exact hnames.map (RowName.place_injective K)

private theorem entries_registered : ∀ e ∈ entries K draws, e.1 ∈ registered K := by
  intro e he
  have hplace := List.mem_map_of_mem (f := RecordStore.place) he
  rw [entries_places] at hplace
  obtain ⟨n, -, hn⟩ := List.mem_map.mp hplace
  have htable : n.table K = e.1 := congrArg Sigma.fst hn
  exact htable ▸ n.table_registered K

/-- The population succeeds whatever the types are, repeated or not. -/
theorem run_startPopulate_filled (K : Constants) (draws : Draws) :
    ∃ t, (startPopulate (SchemaTables.manager layout) K draws).run (init K) = some ((), t) ∧
      Populated K draws t := by
  rw [startPopulate_eq]
  exact (SchemaTables.Filled.registerTables layout_keyed (registered K)).load entries_registered

end ImdbD.Benchmark.TATP
