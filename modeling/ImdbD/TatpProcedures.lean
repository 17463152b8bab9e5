import ImdbD.TatpProcessor

/-!
# What the procedures of TATP do to the tables

Each procedure on the store of records: the row it looks at, and what becomes
of that row.
-/
namespace ImdbD.Benchmark.TATP
open ByteMemory StorageEngine AtomicProgram RecordStore
open KeyedStore (Store)

def subscriberKey (sId : Int32) : Bytes := int32Bytes sId

/-- Of an access info or a special facility. -/
def typeKey (sId : Int32) (type : Int8) : Bytes := int32Bytes sId ++ int8Bytes type

def callForwardingKey (sId : Int32) (sfType startTime : Int8) : Bytes :=
  int32Bytes sId ++ int8Bytes sfType ++ int8Bytes startTime

theorem subscriberKey_injective : Function.Injective subscriberKey := int32Bytes_injective

@[simp] theorem typeKey_inj {sId sId' : Int32} {type type' : Int8} :
    typeKey sId type = typeKey sId' type' ↔ sId = sId' ∧ type = type' := by
  constructor
  · intro h
    obtain ⟨h₁, h₂⟩ := List.append_inj h (by simp)
    exact ⟨int32Bytes_injective h₁, int8Bytes_injective h₂⟩
  · rintro ⟨rfl, rfl⟩
    rfl

@[simp] theorem callForwardingKey_inj {sId sId' : Int32} {sfType sfType' startTime startTime' : Int8} :
    callForwardingKey sId sfType startTime = callForwardingKey sId' sfType' startTime' ↔
      sId = sId' ∧ sfType = sfType' ∧ startTime = startTime' := by
  constructor
  · intro h
    obtain ⟨h₁, h₂⟩ := List.append_inj h (by simp)
    obtain ⟨h₀, h₁⟩ := List.append_inj h₁ (by simp)
    exact ⟨int32Bytes_injective h₀, int8Bytes_injective h₁, int8Bytes_injective h₂⟩
  · rintro ⟨rfl, rfl, rfl⟩
    rfl

theorem predicateKey_subscriber (sId : Int32) :
    predicateKey TatpSchema.getSubscriberSchema [(0, int32Bytes sId)] = subscriberKey sId := by
  rw [predicateKey_eq (by simp; rfl)]
  simp [subscriberKey]

theorem predicateKey_subNbr (subNbr : CString) :
    predicateKey TatpSchema.getSubscriberSchema [(1, subNbr.read 15)] = subNbr.read 15 := by
  rw [predicateKey_eq (by simp; rfl)]
  simp

theorem predicateKey_accessInfo (sId : Int32) (aiType : Int8) :
    predicateKey TatpSchema.getAccessInfoSchema [(0, int32Bytes sId), (1, int8Bytes aiType)] =
      typeKey sId aiType := by
  rw [predicateKey_eq (by simp; exact ⟨rfl, rfl⟩)]
  simp [typeKey]

theorem predicateKey_specialFacility (sId : Int32) (sfType : Int8) :
    predicateKey TatpSchema.getSpecialFacilitySchema [(0, int32Bytes sId), (1, int8Bytes sfType)] =
      typeKey sId sfType := by
  rw [predicateKey_eq (by simp; exact ⟨rfl, rfl⟩)]
  simp [typeKey]

theorem predicateKey_specialFacility_sId (sId : Int32) :
    predicateKey TatpSchema.getSpecialFacilitySchema [(0, int32Bytes sId)] = int32Bytes sId := by
  rw [predicateKey_eq (by simp; rfl)]
  simp

theorem predicateKey_callForwarding (sId : Int32) (sfType startTime : Int8) :
    predicateKey TatpSchema.getCallForwardingSchema
      [(0, int32Bytes sId), (1, int8Bytes sfType), (2, int8Bytes startTime)] =
      callForwardingKey sId sfType startTime := by
  rw [predicateKey_eq (by simp; exact ⟨rfl, rfl, rfl⟩)]
  simp [callForwardingKey]

section CallForwarding
variable {sId : Int32} {sfType startTime endTime : Int8} {numberx : CString}

private theorem covers_callForwardingColumns : Record.Covers TatpSchema.getCallForwardingSchema
    (callForwardingColumns sId sfType startTime endTime numberx) := by
  refine Record.covers_of_range rfl (fun e he => ?_)
  simp only [callForwardingColumns, List.mem_cons, List.not_mem_nil, or_false] at he
  obtain rfl | rfl | rfl | rfl | rfl := he <;> simp <;> rfl

/-- A new row; nothing of it comes from the old contents of the buffer. -/
def callForwardingRecord (sId : Int32) (sfType startTime endTime : Int8) (numberx : CString) :
    Record TatpSchema.getCallForwardingSchema :=
  (Record.fresh _ (fun _ => 0)).setColumns
    (callForwardingColumns sId sfType startTime endTime numberx)

theorem setColumns_fresh (memory : Memory) :
    (Record.fresh TatpSchema.getCallForwardingSchema memory).setColumns
      (callForwardingColumns sId sfType startTime endTime numberx) =
      callForwardingRecord sId sfType startTime endTime numberx :=
  Record.setColumns_congr covers_callForwardingColumns _ _

theorem getColumn_callForwardingRecord {id : ℕ} {value : Bytes}
    (hmem : (id, value) ∈ callForwardingColumns sId sfType startTime endTime numberx)
    (hsize : value.length = TatpSchema.getCallForwardingSchema.schema.getColumnSize id) :
    (callForwardingRecord sId sfType startTime endTime numberx).getColumn id = value :=
  Record.getColumn_setColumns_full covers_callForwardingColumns.1 hmem hsize

theorem primaryKey_callForwardingRecord :
    (callForwardingRecord sId sfType startTime endTime numberx).primaryKey =
      some (callForwardingKey sId sfType startTime) := by
  rw [Record.primaryKey_eq _ (by decide) (by decide)]
  change some ([0, 1, 2].flatMap _) = _
  simp only [List.flatMap_cons, List.flatMap_nil, List.append_nil]
  have hid : (0, int32Bytes sId) ∈ callForwardingColumns sId sfType startTime endTime numberx := by
    simp [callForwardingColumns]
  have htype : (1, int8Bytes sfType) ∈ callForwardingColumns sId sfType startTime endTime numberx := by
    simp [callForwardingColumns]
  have hstart : (2, int8Bytes startTime) ∈
      callForwardingColumns sId sfType startTime endTime numberx := by
    simp [callForwardingColumns]
  rw [getColumn_callForwardingRecord hid (by simp; rfl),
    getColumn_callForwardingRecord htype (by simp; rfl),
    getColumn_callForwardingRecord hstart (by simp; rfl), callForwardingKey, List.append_assoc]

end CallForwarding

section Runs
variable {K : Constants} {s : Tables} {sId : Int32} {sfType startTime endTime : Int8}

private theorem run_selectRecord_subNbr (s : Tables) (subNbr : CString) :
    ((manager layout).selectRecord .subscriber [(1, subNbr.read 15)]).run s =
      some ((s.groups .subscriber (subNbr.read 15)).head?, s) := by
  have hcols : [1] ≠ TatpSchema.getSubscriberSchema.schema.primaryCols := by decide
  exact run_selectRecord_group hcols rfl (predicateKey_subNbr subNbr)

private theorem run_selectRecord_sId (s : Tables) (off : ℕ) (sId : Int32) :
    ((manager layout).selectRecord (.specialFacility off) [(0, int32Bytes sId)]).run s =
      some ((s.groups (.specialFacility off) (int32Bytes sId)).head?, s) := by
  have hcols : [0] ≠ TatpSchema.getSpecialFacilitySchema.schema.primaryCols := by decide
  exact run_selectRecord_group hcols rfl
    (predicateKey_specialFacility_sId sId)

/-- The number that is found for a subscriber number; nothing when the index leads astray. -/
def subscriberId (s : Tables) (subNbr : CString) : Option Int32 :=
  match (s.groups .subscriber (subNbr.read 15)).head? with
  | some k => (s.row .subscriber k).map (fun r => readInt32 (r.getColumn 0))
  | none => some (-1)

theorem run_getSubscriberId (s : Tables) (subNbr : CString) :
    (getSubscriberId (manager layout) subNbr).run s =
      (subscriberId s subNbr).map (fun sId => (sId, s)) := by
  rw [getSubscriberId, Program.run_bind, run_selectRecord_subNbr, Option.bind_some, subscriberId]
  cases (s.groups .subscriber (subNbr.read 15)).head? with
  | none => rfl
  | some k =>
    simp only [Program.run_bind, Program.run_atomic]
    cases s.row .subscriber k <;> rfl

theorem run_getAccessInfo (s : Tables) (aiType : Int8) :
    (getAccessInfo (manager layout) K sId aiType).run s = some ((), s) := by
  rw [getAccessInfo, Program.run_bind, run_selectRecord rfl (predicateKey_accessInfo sId aiType)]
  rfl

theorem run_getSubscriberData (s : Tables) :
    (getSubscriberData (manager layout) sId).run s = some ((), s) := by
  rw [getSubscriberData, Program.run_bind, run_selectRecord rfl (predicateKey_subscriber sId)]
  rfl

theorem run_getSpecialFacilitySFType (s : Tables) :
    (getSpecialFacilitySFType (manager layout) K sId).run s = some ((), s) := by
  rw [getSpecialFacilitySFType, Program.run_bind, run_selectRecord_sId]
  rfl

theorem run_deleteCallForwardingRecord (s : Tables) :
    (deleteCallForwardingRecord (manager layout) K sId sfType startTime).run s = some ((),
      s.eraseRow (.callForwarding (K.offset sId)) (callForwardingKey sId sfType startTime)) := by
  rw [deleteCallForwardingRecord, Program.run_bind,
    run_selectRecord rfl (predicateKey_callForwarding sId sfType startTime), Option.bind_some]
  cases h : s.row (.callForwarding (K.offset sId)) (callForwardingKey sId sfType startTime) with
  | none =>
    rw [Store.eraseRow_of_none s h]
    rfl
  | some r => exact run_deleteRecord h rfl

theorem run_insertCallForwardingRecord (s : Tables) (memory : Memory) (numberx : CString) :
    (insertCallForwardingRecord (manager layout) K memory sId sfType startTime endTime numberx).run s =
      some ((), if (s.row (.callForwarding (K.offset sId))
          (callForwardingKey sId sfType startTime)).isSome then s
        else s.setRow (.callForwarding (K.offset sId)) (callForwardingKey sId sfType startTime)
          (callForwardingRecord sId sfType startTime endTime numberx)) := by
  rw [insertCallForwardingRecord, Program.run_bind,
    run_selectRecord rfl (predicateKey_callForwarding sId sfType startTime), Option.bind_some]
  cases h : s.row (.callForwarding (K.offset sId)) (callForwardingKey sId sfType startTime) with
  | none =>
    simp only [Option.map_none, setColumns_fresh]
    exact run_insertRecord primaryKey_callForwardingRecord rfl h
  | some r => rfl

/-- Without the row the record is `NULL`. -/
theorem run_updateSubscriberVLRLocation (s : Tables) (vlrLocation : Int32) :
    (updateSubscriberVLRLocation (manager layout) sId vlrLocation).run s =
      if (s.row .subscriber (subscriberKey sId)).isSome then
        some ((), s.changeRow .subscriber (subscriberKey sId)
          (fun r => r.setColumn 33 (int32Bytes vlrLocation)))
      else none := by
  rw [updateSubscriberVLRLocation, Program.run_bind,
    run_selectRecord rfl (predicateKey_subscriber sId), Option.bind_some]
  cases h : s.row .subscriber (subscriberKey sId) with
  | none => simp
  | some r =>
    simp only [Option.map_some, Program.run_bind, Program.run_fetch, Option.bind_some,
      Option.isSome_some, if_true, Store.changeRow, h]
    exact run_updateRecord h

theorem run_updateSubscriberBit1 (s : Tables) (bit1 : Int8) :
    (updateSubscriberBit1 (manager layout) sId bit1).run s = some ((),
      s.changeRow .subscriber (subscriberKey sId) (fun r => r.setColumn 2 (int8Bytes bit1))) := by
  rw [updateSubscriberBit1, Program.run_bind,
    run_selectRecord rfl (predicateKey_subscriber sId), Option.bind_some]
  cases h : s.row .subscriber (subscriberKey sId) with
  | none =>
    rw [Store.changeRow_of_none s h]
    rfl
  | some r =>
    simp only [Store.changeRow, h]
    exact run_updateRecord h

theorem run_updateSpecialFacilityDataA (s : Tables) (dataA : Int16) :
    (updateSpecialFacilityDataA (manager layout) K sId sfType dataA).run s = some ((),
      s.changeRow (.specialFacility (K.offset sId)) (typeKey sId sfType)
        (fun r => r.setColumn 4 (int16Bytes dataA))) := by
  rw [updateSpecialFacilityDataA, Program.run_bind,
    run_selectRecord rfl (predicateKey_specialFacility sId sfType), Option.bind_some]
  cases h : s.row (.specialFacility (K.offset sId)) (typeKey sId sfType) with
  | none =>
    rw [Store.changeRow_of_none s h]
    rfl
  | some r =>
    simp only [Store.changeRow, h]
    exact run_updateRecord h

theorem run_processDeleteCallForwarding {param : DeleteCallForwardingParam}
    (h : subscriberId s param.subNbr = some sId) :
    (TatpSerialProcessor.processDeleteCallForwarding (manager layout) K param).run s = some ((),
      s.eraseRow (.callForwarding (K.offset sId))
        (callForwardingKey sId param.sfType param.startTime)) := by
  rw [TatpSerialProcessor.processDeleteCallForwarding, Program.run_bind, run_getSubscriberId, h,
    Option.map_some, Option.bind_some, run_deleteCallForwardingRecord]

theorem run_processInsertCallForwarding {param : InsertCallForwardingParam}
    (h : subscriberId s param.subNbr = some sId) (memory : Memory) :
    (TatpSerialProcessor.processInsertCallForwarding (manager layout) K memory param).run s =
      some ((), if (s.row (.callForwarding (K.offset sId))
          (callForwardingKey sId param.sfType param.startTime)).isSome then s
        else s.setRow (.callForwarding (K.offset sId))
          (callForwardingKey sId param.sfType param.startTime)
          (callForwardingRecord sId param.sfType param.startTime param.endTime param.numberx)) := by
  rw [TatpSerialProcessor.processInsertCallForwarding, Program.run_bind, run_getSubscriberId, h,
    Option.map_some, Option.bind_some, Program.run_bind, run_getSpecialFacilitySFType,
    Option.bind_some, run_insertCallForwardingRecord]

theorem run_processUpdateLocation {param : UpdateLocationParam}
    (h : subscriberId s param.subNbr = some sId) :
    (TatpSerialProcessor.processUpdateLocation (manager layout) param).run s =
      if (s.row .subscriber (subscriberKey sId)).isSome then
        some ((), s.changeRow .subscriber (subscriberKey sId)
          (fun r => r.setColumn 33 (int32Bytes param.vlrLocation)))
      else none := by
  rw [TatpSerialProcessor.processUpdateLocation, Program.run_bind, run_getSubscriberId, h,
    Option.map_some, Option.bind_some, run_updateSubscriberVLRLocation]

theorem run_processUpdateSubscriberData (s : Tables) (param : UpdateSubscriberDataParam) :
    (TatpSerialProcessor.processUpdateSubscriberData (manager layout) K param).run s = some ((),
      (s.changeRow .subscriber (subscriberKey param.sId)
        (fun r => r.setColumn 2 (int8Bytes param.bit1))).changeRow
        (.specialFacility (K.offset param.sId)) (typeKey param.sId param.sfType)
        (fun r => r.setColumn 4 (int16Bytes param.dataA))) := by
  rw [TatpSerialProcessor.processUpdateSubscriberData, Program.run_bind,
    run_updateSubscriberBit1, Option.bind_some, run_updateSpecialFacilityDataA]

end Runs
end ImdbD.Benchmark.TATP
