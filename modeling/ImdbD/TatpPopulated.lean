import ImdbD.TatpPopulator

/-!
# The populated tables of TATP

Every row has a name, the values of its key. Where the arrays of types hold
distinct types, the names of all rows are distinct and the population succeeds.
-/
namespace ImdbD.Benchmark.TATP
open ByteMemory StorageEngine AtomicProgram RecordStore TatpPopulator

/-- A row by its primary key. -/
inductive RowName where
  | subscriber (sId : Int32)
  | accessInfo (sId : Int32) (aiType : Int8)
  | specialFacility (sId : Int32) (sfType : Int8)
  | callForwarding (sId : Int32) (sfType startTime : Int8)
  deriving DecidableEq

namespace RowName

/-- The subscriber that the row belongs to. -/
def sId : RowName → Int32
  | subscriber sId | accessInfo sId _ | specialFacility sId _ | callForwarding sId _ _ => sId

/-- The table that a row is routed to. -/
def table (K : Constants) : RowName → TableId
  | subscriber _ => .subscriber
  | accessInfo sId _ => .accessInfo (K.offset sId)
  | specialFacility sId _ => .specialFacility (K.offset sId)
  | callForwarding sId _ _ => .callForwarding (K.offset sId)

def key : RowName → Bytes
  | subscriber sId => subscriberKey sId
  | accessInfo sId aiType => typeKey sId aiType
  | specialFacility sId sfType => typeKey sId sfType
  | callForwarding sId sfType startTime => callForwardingKey sId sfType startTime

def place (K : Constants) (n : RowName) : Σ _ : TableId, Bytes := ⟨n.table K, n.key⟩

/-- The table and the key tell which row it is. -/
theorem place_injective (K : Constants) : Function.Injective (place K) := by
  intro n n' h
  have htable : n.table K = n'.table K := congrArg Sigma.fst h
  have hkey : n.key = n'.key := congrArg (fun p : Σ _ : TableId, Bytes => p.2) h
  cases n <;> cases n' <;> simp_all [table, key, subscriberKey_injective.eq_iff]

end RowName

section Keys
variable {memory : Memory}

private theorem getColumn_sId (r : SubscriberRecord) :
    (subscriberRow memory r).getColumn 0 = int32Bytes r.sId := by
  have hw : Record.Writes TatpSchema.getSubscriberSchema (subscriberColumns r) :=
    Record.writes_of_range rfl
  exact Record.getColumn_setColumns_full hw (by simp [subscriberColumns]) (by simp; rfl)

theorem primaryKey_subscriberRow (r : SubscriberRecord) :
    (subscriberRow memory r).primaryKey = some (subscriberKey r.sId) := by
  rw [Record.primaryKey_eq _ (by decide) (by decide)]
  change some ([0].flatMap _) = _
  simp [getColumn_sId, subscriberKey]

private theorem getColumn_subNbr {r : SubscriberRecord} (h : r.subNbr.length = 15) :
    (subscriberRow memory r).getColumn 1 = r.subNbr := by
  have hw : Record.Writes TatpSchema.getSubscriberSchema (subscriberColumns r) :=
    Record.writes_of_range rfl
  have hmem : (1, r.subNbr.take 15) ∈ subscriberColumns r := by simp [subscriberColumns]
  have hcolumn := Record.getColumn_setColumns_full (r := Record.fresh _ memory) hw hmem
    (by simp [h]; rfl)
  rw [List.take_of_length_le h.le] at hcolumn
  exact hcolumn

theorem primaryKey_accessInfoRow (r : AccessInfoRecord) :
    (accessInfoRow memory r).primaryKey = some (typeKey r.sId r.aiType) := by
  have hw : Record.Writes TatpSchema.getAccessInfoSchema (accessInfoColumns r) :=
    Record.writes_of_range rfl
  have hid : (accessInfoRow memory r).getColumn 0 = int32Bytes r.sId :=
    Record.getColumn_setColumns_full hw (by simp [accessInfoColumns]) (by simp; rfl)
  have htype : (accessInfoRow memory r).getColumn 1 = int8Bytes r.aiType :=
    Record.getColumn_setColumns_full hw (by simp [accessInfoColumns]) (by simp; rfl)
  rw [Record.primaryKey_eq _ (by decide) (by decide)]
  change some ([0, 1].flatMap _) = _
  simp [hid, htype, typeKey]

theorem primaryKey_specialFacilityRow (r : SpecialFacilityRecord) :
    (specialFacilityRow memory r).primaryKey = some (typeKey r.sId r.sfType) := by
  have hw : Record.Writes TatpSchema.getSpecialFacilitySchema (specialFacilityColumns r) :=
    Record.writes_of_range rfl
  have hid : (specialFacilityRow memory r).getColumn 0 = int32Bytes r.sId :=
    Record.getColumn_setColumns_full hw (by simp [specialFacilityColumns]) (by simp; rfl)
  have htype : (specialFacilityRow memory r).getColumn 1 = int8Bytes r.sfType :=
    Record.getColumn_setColumns_full hw (by simp [specialFacilityColumns]) (by simp; rfl)
  rw [Record.primaryKey_eq _ (by decide) (by decide)]
  change some ([0, 1].flatMap _) = _
  simp [hid, htype, typeKey]

theorem primaryKey_callForwardingRow (r : CallForwardingRecord) :
    (callForwardingRow memory r).primaryKey =
      some (callForwardingKey r.sId r.sfType r.startTime) := by
  have hw : Record.Writes TatpSchema.getCallForwardingSchema (TatpPopulator.callForwardingColumns r) :=
    Record.writes_of_range rfl
  have hid : (callForwardingRow memory r).getColumn 0 = int32Bytes r.sId :=
    Record.getColumn_setColumns_full hw (by simp [TatpPopulator.callForwardingColumns]) (by simp; rfl)
  have htype : (callForwardingRow memory r).getColumn 1 = int8Bytes r.sfType :=
    Record.getColumn_setColumns_full hw (by simp [TatpPopulator.callForwardingColumns]) (by simp; rfl)
  have hstart : (callForwardingRow memory r).getColumn 2 = int8Bytes r.startTime :=
    Record.getColumn_setColumns_full hw (by simp [TatpPopulator.callForwardingColumns]) (by simp; rfl)
  rw [Record.primaryKey_eq _ (by decide) (by decide)]
  change some ([0, 1, 2].flatMap _) = _
  simp [hid, htype, hstart, callForwardingKey]

end Keys

/-- All tables have a primary key, and their rows fit a block. -/
theorem layout_keyed (id : TableId) : (layout id).Keyed := by
  cases id with
  | subscriber => exact ⟨by decide, by decide, by decide, fun _ h => by cases h; decide⟩
  | accessInfo off =>
    exact (⟨by decide, by decide, by decide, fun _ h => (nomatch h)⟩ :
      (TableLayout.mk TatpSchema.getAccessInfoSchema none).Keyed)
  | specialFacility off =>
    exact (⟨by decide, by decide, by decide, fun _ h => by cases h; decide⟩ :
      (TableLayout.mk TatpSchema.getSpecialFacilitySchema (some [0])).Keyed)
  | callForwarding off =>
    exact (⟨by decide, by decide, by decide, fun _ h => (nomatch h)⟩ :
      (TableLayout.mk TatpSchema.getCallForwardingSchema none).Keyed)

/-- The arrays of types hold no type twice. -/
structure Draws.Distinct (draws : Draws) : Prop where
  aiTypes : (draws.aiTypes.map Int32.toInt8).Nodup
  sfTypes : ∀ sId, ((draws.sfTypes sId).map Int32.toInt8).Nodup
  startTimes : ∀ sId j, ((draws.startTimes sId j).map Int32.toInt8).Nodup

/-- The rows of the special facilities of a subscriber, with their call forwardings. -/
def Draws.facilityNames (draws : Draws) (sId : Int32) : List RowName :=
  (draws.sfTypes sId).zipIdx.flatMap (fun sf =>
    .specialFacility sId sf.1.toInt8 :: (draws.startTimes sId sf.2).zipIdx.map (fun start =>
      .callForwarding sId sf.1.toInt8 start.1.toInt8))

/-- The names of the populated rows. -/
def Draws.names (draws : Draws) : List RowName :=
  (sIds draws).map .subscriber ++
  ((sIds draws).flatMap (fun sId => draws.aiTypes.zipIdx.map (fun ai => .accessInfo sId ai.1.toInt8)) ++
  (sIds draws).flatMap draws.facilityNames)

variable {K : Constants} {draws : Draws}

theorem place_eq {id : TableId} {r : Record (layout id).schema} {k : Bytes}
    (h : r.primaryKey = some k) :
    RecordStore.place (⟨id, r⟩ : Σ id, Record (layout id).schema) = ⟨id, k⟩ := by
  rw [r.primaryKey_eq_symbol (layout_keyed id).primary, Option.some_inj] at h
  rw [RecordStore.place, h]

theorem entries_places : (entries K draws).map RecordStore.place = draws.names.map (RowName.place K) := by
  simp only [entries, Draws.names, Draws.facilityNames, List.map_append, List.map_map,
    List.map_flatMap, List.map_cons]
  refine congrArg₂ _ (List.map_congr_left (fun sId _ => ?_)) (congrArg₂ _
    (List.flatMap_congr (fun sId _ => List.map_congr_left (fun ai _ => ?_)))
    (List.flatMap_congr (fun sId _ => List.flatMap_congr (fun sf _ => congrArg₂ _ ?_
      (List.map_congr_left (fun start _ => ?_))))))
  · exact place_eq (primaryKey_subscriberRow _)
  · exact place_eq (primaryKey_accessInfoRow _)
  · exact place_eq (primaryKey_specialFacilityRow _)
  · exact place_eq (primaryKey_callForwardingRow _)

theorem nodup_sIds : (sIds draws).Nodup := by
  refine List.Nodup.map_on (fun i hi j hj h => ?_) List.nodup_range
  have hsize := draws.size_lt
  have hint := congrArg Int32.toInt h
  rw [List.mem_range] at hi hj
  rw [Int32.toInt_ofNat_of_lt (by omega), Int32.toInt_ofNat_of_lt (by omega)] at hint
  omega

theorem map_zipIdx (ts : List Int32) :
    ts.zipIdx.map (fun t => t.1.toInt8) = ts.map Int32.toInt8 := by
  conv_rhs => rw [← List.zipIdx_map_fst 0 ts]
  rw [List.map_map]
  rfl

private theorem nodup_types {ts : List Int32} (h : (ts.map Int32.toInt8).Nodup) {f : Int8 → RowName}
    (hf : Function.Injective f) : (ts.zipIdx.map (fun t => f t.1.toInt8)).Nodup := by
  have hmap := h.map hf
  rw [← map_zipIdx, List.map_map] at hmap
  exact hmap

theorem mem_facilityNames {n : RowName} {sId : Int32} (h : n ∈ draws.facilityNames sId) :
    (∃ sfType, n = .specialFacility sId sfType) ∨
      ∃ sfType startTime, n = .callForwarding sId sfType startTime := by
  obtain ⟨sf, -, hn⟩ := List.mem_flatMap.mp h
  rcases List.mem_cons.mp hn with rfl | hn
  · exact .inl ⟨_, rfl⟩
  · obtain ⟨start, -, rfl⟩ := List.mem_map.mp hn
    exact .inr ⟨_, _, rfl⟩

/-- Facilities of distinct types, each with distinct start times. -/
theorem Draws.nodup_facilityNames {sId : Int32}
    (htypes : ((draws.sfTypes sId).map Int32.toInt8).Nodup)
    (hstarts : ∀ sf ∈ (draws.sfTypes sId).zipIdx,
      ((draws.startTimes sId sf.2).map Int32.toInt8).Nodup) : (draws.facilityNames sId).Nodup := by
  refine List.nodup_flatMap.mpr ⟨fun sf hsf => List.nodup_cons.mpr ⟨?_, ?_⟩, ?_⟩
  · intro hmem
    obtain ⟨start, -, he⟩ := List.mem_map.mp hmem
    cases he
  · exact nodup_types (hstarts sf hsf) (fun _ _ he => (RowName.callForwarding.inj he).2.2)
  · rw [← map_zipIdx] at htypes
    refine (List.pairwise_map.mp htypes).imp (fun {sf sf'} hne n hn hn' => ?_)
    rcases List.mem_cons.mp hn with rfl | hn <;> rcases List.mem_cons.mp hn' with he | hn'
    · exact hne (RowName.specialFacility.inj he).2
    · obtain ⟨start, -, he⟩ := List.mem_map.mp hn'
      cases he
    · obtain ⟨start, -, rfl⟩ := List.mem_map.mp hn
      cases he
    · obtain ⟨start, -, rfl⟩ := List.mem_map.mp hn
      obtain ⟨start', -, he⟩ := List.mem_map.mp hn'
      exact hne (RowName.callForwarding.inj he).2.1.symm

/-- Where every subscriber has distinct types no two rows have one name. -/
theorem Draws.nodup_names
    (htypes : ∀ sId ∈ sIds draws, (draws.aiTypes.map Int32.toInt8).Nodup)
    (hfacilities : ∀ sId ∈ sIds draws, (draws.facilityNames sId).Nodup) : draws.names.Nodup := by
  have hpair : (sIds draws).Pairwise (· ≠ ·) := nodup_sIds
  refine List.nodup_append'.mpr ⟨nodup_sIds.map (fun _ _ he => RowName.subscriber.inj he),
    List.nodup_append'.mpr ⟨?_, ?_, ?_⟩, ?_⟩
  · refine List.nodup_flatMap.mpr ⟨fun sId hsId =>
      nodup_types (htypes sId hsId) (fun _ _ he => (RowName.accessInfo.inj he).2), ?_⟩
    refine hpair.imp (fun {sId sId'} hne n hn hn' => ?_)
    obtain ⟨ai, -, rfl⟩ := List.mem_map.mp hn
    obtain ⟨ai', -, he⟩ := List.mem_map.mp hn'
    exact hne (RowName.accessInfo.inj he).1.symm
  · refine List.nodup_flatMap.mpr ⟨hfacilities, ?_⟩
    refine hpair.imp (fun {sId sId'} hne n hn hn' => ?_)
    have hsId : ∀ {sId}, n ∈ draws.facilityNames sId → n.sId = sId := by
      intro sId hn
      rcases mem_facilityNames hn with ⟨_, rfl⟩ | ⟨_, _, rfl⟩ <;> rfl
    exact hne ((hsId hn).symm.trans (hsId hn'))
  · intro n hn hn'
    obtain ⟨sId, -, hn⟩ := List.mem_flatMap.mp hn
    obtain ⟨ai, -, rfl⟩ := List.mem_map.mp hn
    obtain ⟨sId', -, hn'⟩ := List.mem_flatMap.mp hn'
    rcases mem_facilityNames hn' with ⟨_, he⟩ | ⟨_, _, he⟩ <;> cases he
  · intro n hn hn'
    obtain ⟨sId, -, rfl⟩ := List.mem_map.mp hn
    rcases List.mem_append.mp hn' with hn' | hn'
    · obtain ⟨sId', -, hn'⟩ := List.mem_flatMap.mp hn'
      obtain ⟨ai, -, he⟩ := List.mem_map.mp hn'
      cases he
    · obtain ⟨sId', -, hn'⟩ := List.mem_flatMap.mp hn'
      rcases mem_facilityNames hn' with ⟨_, he⟩ | ⟨_, _, he⟩ <;> cases he

/-- With distinct types no two rows have one name. -/
theorem Draws.Distinct.nodup_names (h : draws.Distinct) : draws.names.Nodup :=
  Draws.nodup_names (fun _ _ => h.aiTypes) (fun sId _ =>
    Draws.nodup_facilityNames (h.sfTypes sId) (fun sf _ => h.startTimes sId sf.2))

/-- When no two rows have one name, the population succeeds. -/
theorem run_startPopulate (h : draws.names.Nodup) :
    ∃ s : Tables, (startPopulate (manager layout) K draws).run .empty = some ((), s) ∧
      Loaded (entries K draws) s := by
  rw [startPopulate_eq]
  refine run_load layout_keyed ?_
  rw [entries_places]
  exact h.map (RowName.place_injective K)

/-- The number that a string of digits stands for. -/
def TatpUtil.parse (digits : Bytes) : ℕ := Nat.ofDigits 10 (digits.reverse.map (fun b => b.toNat - 48))

private theorem TatpUtil.parse_padWithZero (n : ℕ) : TatpUtil.parse (TatpUtil.padWithZero n) = n := by
  have hdigit : ∀ d ∈ Nat.digits 10 n, (UInt8.ofNat (48 + d)).toNat - 48 = d := by
    intro d hd
    have hlt := Nat.digits_lt_base (by omega) hd
    rw [UInt8.toNat_ofNat_of_lt' (by change 48 + d < 256; omega)]
    omega
  have hdigits : (Nat.digits 10 n).map ((fun b => b.toNat - 48) ∘ fun d => UInt8.ofNat (48 + d)) =
      Nat.digits 10 n := (List.map_congr_left hdigit).trans (List.map_id' _)
  rw [TatpUtil.parse, TatpUtil.padWithZero, List.reverse_append, List.map_append, List.map_reverse,
    List.map_map, List.map_reverse, List.reverse_reverse, List.reverse_replicate, List.map_replicate]
  rw [show ((48 : UInt8).toNat - 48) = 0 from rfl, Nat.ofDigits_append_replicate_zero]
  rw [hdigits, Nat.ofDigits_digits]

theorem TatpUtil.padWithZero_injective : Function.Injective TatpUtil.padWithZero :=
  Function.LeftInverse.injective TatpUtil.parse_padWithZero

theorem TatpUtil.length_padWithZero {n : ℕ} (h : n < 10 ^ SUB_NBR_PADDING_SIZE) :
    (TatpUtil.padWithZero n).length = SUB_NBR_PADDING_SIZE := by
  have hdigits := (Nat.digits_length_le_iff (by omega) n).mpr h
  rw [TatpUtil.padWithZero, List.length_append, List.length_replicate, List.length_map,
    List.length_reverse]
  omega

theorem toSize_injective : Function.Injective toSize := by
  intro n m h
  have hn := n.le_toInt
  have hn' := n.toInt_lt
  have hm := m.le_toInt
  have hm' := m.toInt_lt
  refine Int32.toInt_inj.mp ?_
  unfold toSize at h
  omega

theorem toSize_lt_of_mem {sId : Int32} (h : sId ∈ sIds draws) : toSize sId < 2 ^ 31 := by
  obtain ⟨i, hi, rfl⟩ := List.mem_map.mp h
  have hsize := draws.size_lt
  rw [List.mem_range] at hi
  rw [toSize, Int32.toInt_ofNat_of_lt (by omega)]
  omega

theorem mem_entries_subscriber {r : Record TatpSchema.getSubscriberSchema}
    (h : (⟨.subscriber, r⟩ : Σ id, Record (layout id).schema) ∈ entries K draws) :
    ∃ sId ∈ sIds draws,
      r = subscriberRow (draws.buffer 0 sId 0 0) (generateSubscriberRecord draws sId) := by
  rcases List.mem_append.mp h with h | h
  · obtain ⟨sId, hsId, he⟩ := List.mem_map.mp h
    simp only [subscriberEntry, Sigma.mk.injEq, heq_eq_eq, true_and] at he
    exact ⟨sId, hsId, he.symm⟩
  · rcases List.mem_append.mp h with h | h
    · obtain ⟨sId, -, h⟩ := List.mem_flatMap.mp h
      obtain ⟨ai, -, he⟩ := List.mem_map.mp h
      exact nomatch congrArg Sigma.fst he
    · obtain ⟨sId, -, h⟩ := List.mem_flatMap.mp h
      obtain ⟨sf, -, h⟩ := List.mem_flatMap.mp h
      rcases List.mem_cons.mp h with he | h
      · exact nomatch congrArg Sigma.fst he
      · obtain ⟨start, -, he⟩ := List.mem_map.mp h
        exact nomatch congrArg Sigma.fst he

/-- The subscriber number of a populated row. -/
theorem getColumn_subscriberRow {memory : Memory} {sId : Int32} (h : sId ∈ sIds draws) :
    (subscriberRow memory (generateSubscriberRecord draws sId)).getColumn 1 =
      TatpUtil.padWithZero (toSize sId) := by
  have hlt := toSize_lt_of_mem h
  exact getColumn_subNbr (TatpUtil.length_padWithZero (by change _ < 10 ^ 15; omega))

/-- What the transactions use of a populated subscriber. -/
theorem subscriber_entry {r : Record TatpSchema.getSubscriberSchema}
    (h : (⟨.subscriber, r⟩ : Σ id, Record (layout id).schema) ∈ entries K draws) :
    ∃ sId ∈ sIds draws, r.getColumn 0 = int32Bytes sId ∧
      r.getColumn 1 = TatpUtil.padWithZero (toSize sId) ∧ r.primaryKey = some (subscriberKey sId) := by
  obtain ⟨sId, hsId, rfl⟩ := mem_entries_subscriber h
  exact ⟨sId, hsId, getColumn_sId _, getColumn_subscriberRow hsId, primaryKey_subscriberRow _⟩

end ImdbD.Benchmark.TATP
