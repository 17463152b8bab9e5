import ImdbD.TatpProcedures
import ImdbD.RecordLoad
import Mathlib.Data.Nat.Digits.Lemmas

/-!
# How the tables of TATP are populated

The populator draws the fields of its rows and inserts one row after another.
The numbers that it puts into the arrays of types are never copied to the
caller, so the types of a row are whatever these arrays held.
-/
namespace ImdbD.Benchmark.TATP
open ByteMemory StorageEngine AtomicProgram RecordStore

structure SubscriberRecord where
  sId : Int32
  subNbr : Bytes
  bit : Fin 10 → Int8
  hex : Fin 10 → Int8
  byte2 : Fin 10 → Int16
  mscLocation : Int32
  vlrLocation : Int32

structure AccessInfoRecord where
  sId : Int32
  aiType : Int8
  data1 : Int16
  data2 : Int16
  data3 : Vector UInt8 3
  data4 : Vector UInt8 5

structure SpecialFacilityRecord where
  sId : Int32
  sfType : Int8
  isActive : Int8
  errorCntrl : Int16
  dataA : Int16
  dataB : Vector UInt8 5

structure CallForwardingRecord where
  sId : Int32
  sfType : Int8
  startTime : Int8
  endTime : Int8
  numberx : Vector UInt8 15

def SUB_NBR_PADDING_SIZE : ℕ := 15

namespace TatpUtil

/-- The digits of a number behind as many zeros as are missing. -/
def padWithZero (n : ℕ) : Bytes :=
  List.replicate (SUB_NBR_PADDING_SIZE - (Nat.digits 10 n).length) 48 ++
    (Nat.digits 10 n).reverse.map (fun d => UInt8.ofNat (48 + d))

end TatpUtil

/-- What the populator draws, and what it finds in memory: the arrays of types and the buffers of
new records, by table. Types are counted from 0. -/
structure Draws where
  subscriberSize : ℕ
  size_lt : subscriberSize < 2 ^ 31
  subscriber : Int32 → SubscriberRecord
  aiTypes : List Int32
  accessInfo : Int32 → ℕ → AccessInfoRecord
  sfTypes : Int32 → List Int32
  specialFacility : Int32 → ℕ → SpecialFacilityRecord
  startTimes : Int32 → ℕ → List Int32
  callForwarding : Int32 → ℕ → ℕ → CallForwardingRecord
  buffer : ℕ → Int32 → ℕ → ℕ → Memory

namespace TatpPopulator
variable {σ : Type} (M : StorageManager layout σ) (K : Constants) (draws : Draws)

def generateSubscriberRecord (sId : Int32) : SubscriberRecord :=
  { draws.subscriber sId with sId := sId, subNbr := TatpUtil.padWithZero (toSize sId) }

def generateAccessInfoRecord (sId aiType : Int32) (j : ℕ) : AccessInfoRecord :=
  { draws.accessInfo sId j with sId := sId, aiType := aiType.toInt8 }

def generateSpecialFacilityRecord (sId sfType : Int32) (j : ℕ) : SpecialFacilityRecord :=
  { draws.specialFacility sId j with sId := sId, sfType := sfType.toInt8 }

def generateCallForwardingRecord (sId sfType startTime : Int32) (j k : ℕ) : CallForwardingRecord :=
  { draws.callForwarding sId j k with
    sId := sId, sfType := sfType.toInt8, startTime := startTime.toInt8 }

/-- The columns of a subscriber. -/
def subscriberColumns (r : SubscriberRecord) : List (ℕ × Bytes) :=
  [(0, int32Bytes r.sId), (1, r.subNbr.take 15)] ++
  (List.finRange 10).map (fun i => (i.val + 2, int8Bytes (r.bit i))) ++
  (List.finRange 10).map (fun i => (i.val + 12, int8Bytes (r.hex i))) ++
  (List.finRange 10).map (fun i => (i.val + 22, int16Bytes (r.byte2 i))) ++
  [(32, int32Bytes r.mscLocation), (33, int32Bytes r.vlrLocation)]

def accessInfoColumns (r : AccessInfoRecord) : List (ℕ × Bytes) :=
  [(0, int32Bytes r.sId), (1, int8Bytes r.aiType), (2, int16Bytes r.data1), (3, int16Bytes r.data2),
    (4, r.data3.toList), (5, r.data4.toList)]

def specialFacilityColumns (r : SpecialFacilityRecord) : List (ℕ × Bytes) :=
  [(0, int32Bytes r.sId), (1, int8Bytes r.sfType), (2, int8Bytes r.isActive),
    (3, int16Bytes r.errorCntrl), (4, int16Bytes r.dataA), (5, r.dataB.toList)]

def callForwardingColumns (r : CallForwardingRecord) : List (ℕ × Bytes) :=
  [(0, int32Bytes r.sId), (1, int8Bytes r.sfType), (2, int8Bytes r.startTime),
    (3, int8Bytes r.endTime), (4, r.numberx.toList)]

/-- The row of a subscriber, filled in a new buffer. -/
def subscriberRow (memory : Memory) (r : SubscriberRecord) : Record TatpSchema.getSubscriberSchema :=
  (Record.fresh _ memory).setColumns (subscriberColumns r)

def accessInfoRow (memory : Memory) (r : AccessInfoRecord) : Record TatpSchema.getAccessInfoSchema :=
  (Record.fresh _ memory).setColumns (accessInfoColumns r)

def specialFacilityRow (memory : Memory) (r : SpecialFacilityRecord) :
    Record TatpSchema.getSpecialFacilitySchema :=
  (Record.fresh _ memory).setColumns (specialFacilityColumns r)

def callForwardingRow (memory : Memory) (r : CallForwardingRecord) :
    Record TatpSchema.getCallForwardingSchema :=
  (Record.fresh _ memory).setColumns (callForwardingColumns r)

def insertSubscriberRecord (memory : Memory) (r : SubscriberRecord) : Program σ Unit :=
  M.insertRecord .subscriber (subscriberRow memory r)

def insertAccessInfoRecord (memory : Memory) (r : AccessInfoRecord) : Program σ Unit :=
  M.insertRecord (.accessInfo (K.offset r.sId)) (accessInfoRow memory r)

def insertSpecialFacilityRecord (memory : Memory) (r : SpecialFacilityRecord) : Program σ Unit :=
  M.insertRecord (.specialFacility (K.offset r.sId)) (specialFacilityRow memory r)

def insertCallForwardingRecord (memory : Memory) (r : CallForwardingRecord) : Program σ Unit :=
  M.insertRecord (.callForwarding (K.offset r.sId)) (callForwardingRow memory r)

/-- The numbers of the subscribers. -/
def sIds : List Int32 := (List.range draws.subscriberSize).map (fun i => Int32.ofNat (i + 1))

def startPopulate : Program σ Unit := do
  Program.each (fun sId =>
    insertSubscriberRecord M (draws.buffer 0 sId 0 0) (generateSubscriberRecord draws sId)) (sIds draws)
  Program.each (fun sId =>
    Program.each (fun ai =>
      insertAccessInfoRecord M K (draws.buffer 1 sId ai.2 0)
        (generateAccessInfoRecord draws sId ai.1 ai.2)) draws.aiTypes.zipIdx) (sIds draws)
  Program.each (fun sId =>
    Program.each (fun sf => do
      insertSpecialFacilityRecord M K (draws.buffer 2 sId sf.2 0)
        (generateSpecialFacilityRecord draws sId sf.1 sf.2)
      Program.each (fun start =>
        insertCallForwardingRecord M K (draws.buffer 3 sId sf.2 start.2)
          (generateCallForwardingRecord draws sId sf.1 start.1 sf.2 start.2))
        (draws.startTimes sId sf.2).zipIdx) (draws.sfTypes sId).zipIdx) (sIds draws)

/-- The tables that `init` registers. -/
def registered : List TableId :=
  .subscriber :: (if K.kPartition then
    (List.range K.kPartitionCnt).flatMap (fun i => [.accessInfo i, .specialFacility i, .callForwarding i])
  else [.accessInfo 0, .specialFacility 0, .callForwarding 0])

def init : SchemaTables TableId :=
  (registered K).foldl (fun t id => SchemaTables.registerTable (layout id) t id) (fun _ => none)

/-- The row of a subscriber with its table. -/
def subscriberEntry (sId : Int32) : Σ id, Record (layout id).schema :=
  ⟨.subscriber, subscriberRow (draws.buffer 0 sId 0 0) (generateSubscriberRecord draws sId)⟩

def accessInfoEntry (sId : Int32) (ai : Int32 × ℕ) : Σ id, Record (layout id).schema :=
  ⟨.accessInfo (K.offset sId),
    accessInfoRow (draws.buffer 1 sId ai.2 0) (generateAccessInfoRecord draws sId ai.1 ai.2)⟩

def specialFacilityEntry (sId : Int32) (sf : Int32 × ℕ) : Σ id, Record (layout id).schema :=
  ⟨.specialFacility (K.offset sId),
    specialFacilityRow (draws.buffer 2 sId sf.2 0) (generateSpecialFacilityRecord draws sId sf.1 sf.2)⟩

def callForwardingEntry (sId : Int32) (sf start : Int32 × ℕ) : Σ id, Record (layout id).schema :=
  ⟨.callForwarding (K.offset sId), callForwardingRow (draws.buffer 3 sId sf.2 start.2)
    (generateCallForwardingRecord draws sId sf.1 start.1 sf.2 start.2)⟩

/-- All rows in the order of their insertion. -/
def entries : List (Σ id, Record (layout id).schema) :=
  (sIds draws).map (subscriberEntry draws) ++
  ((sIds draws).flatMap (fun sId => draws.aiTypes.zipIdx.map (accessInfoEntry K draws sId)) ++
  (sIds draws).flatMap (fun sId => (draws.sfTypes sId).zipIdx.flatMap (fun sf =>
    specialFacilityEntry K draws sId sf ::
      (draws.startTimes sId sf.2).zipIdx.map (callForwardingEntry K draws sId sf))))

theorem startPopulate_eq : startPopulate M K draws = load M (entries K draws) := by
  simp only [entries, load, Program.each_append, Program.each_map, Program.each_flatMap,
    Program.each_cons]
  rfl

end TatpPopulator
end ImdbD.Benchmark.TATP
