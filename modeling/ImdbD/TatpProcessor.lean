import ImdbD.TatpTables

/-!
# The transactions of TATP and their serial execution

The procedures are written over any storage manager. A procedure that looks for
a subscriber number that nobody has goes on with -1.
-/
namespace ImdbD.Benchmark.TATP
open ByteMemory StorageEngine AtomicProgram

/-- What the memory held in a new record buffer. -/
abbrev Memory := ℕ → UInt8

section Procedures
variable {σ : Type} (M : StorageManager layout σ) (K : Constants)

def getSubscriberId (subNbr : CString) : Program σ Int32 := do
  let subscriberRecord ← M.selectRecord .subscriber [(1, subNbr.read 15)]
  match subscriberRecord with
  | some record => do
    let sId ← M.getColumn record 0
    return readInt32 sId
  | none => return -1

def deleteCallForwardingRecord (sId : Int32) (sfType startTime : Int8) : Program σ Unit := do
  let callForwardingRecord ← M.selectRecord (.callForwarding (K.offset sId))
    [(0, int32Bytes sId), (1, int8Bytes sfType), (2, int8Bytes startTime)]
  match callForwardingRecord with
  | some record => M.deleteRecord record
  | none => return ()

def getAccessInfo (sId : Int32) (aiType : Int8) : Program σ Unit := do
  let _ ← M.selectRecord (.accessInfo (K.offset sId)) [(0, int32Bytes sId), (1, int8Bytes aiType)]

/-- Nothing is looked up. -/
def getNewDestination (_sId : Int32) (_sfType _startTime _endTime : Int8) : Program σ Unit :=
  return ()

def getSubscriberData (sId : Int32) : Program σ Unit := do
  let _ ← M.selectRecord .subscriber [(0, int32Bytes sId)]

def getSpecialFacilitySFType (sId : Int32) : Program σ Unit := do
  let _ ← M.selectRecord (.specialFacility (K.offset sId)) [(0, int32Bytes sId)]

/-- The columns of a new row. -/
def callForwardingColumns (sId : Int32) (sfType startTime endTime : Int8) (numberx : CString) :
    List (ℕ × Bytes) :=
  [(0, int32Bytes sId), (1, int8Bytes sfType), (2, int8Bytes startTime), (3, int8Bytes endTime),
    (4, numberx.read 15)]

def insertCallForwardingRecord (memory : Memory) (sId : Int32) (sfType startTime endTime : Int8)
    (numberx : CString) : Program σ Unit := do
  let callForwardingRecord ← M.selectRecord (.callForwarding (K.offset sId))
    [(0, int32Bytes sId), (1, int8Bytes sfType), (2, int8Bytes startTime)]
  match callForwardingRecord with
  | some _ => return ()
  | none =>
    let data : Record TatpSchema.getCallForwardingSchema := .fresh _ memory
    M.insertRecord (.callForwarding (K.offset sId))
      (data.setColumns (callForwardingColumns sId sfType startTime endTime numberx))

/-- The record is not checked. -/
def updateSubscriberVLRLocation (sId vlrLocation : Int32) : Program σ Unit := do
  let subscriberRecord ← M.selectRecord .subscriber [(0, int32Bytes sId)]
  let record ← Program.fetch subscriberRecord
  M.updateRecord record [(33, int32Bytes vlrLocation)]

def updateSubscriberBit1 (sId : Int32) (bit1 : Int8) : Program σ Unit := do
  let subscriberRecord ← M.selectRecord .subscriber [(0, int32Bytes sId)]
  match subscriberRecord with
  | some record => M.updateRecord record [(2, int8Bytes bit1)]
  | none => return ()

def updateSpecialFacilityDataA (sId : Int32) (sfType : Int8) (dataA : Int16) : Program σ Unit := do
  let specialFacilityRecord ← M.selectRecord (.specialFacility (K.offset sId))
    [(0, int32Bytes sId), (1, int8Bytes sfType)]
  match specialFacilityRecord with
  | some record => M.updateRecord record [(4, int16Bytes dataA)]
  | none => return ()

end Procedures

namespace TatpSerialProcessor
variable {σ : Type} (M : StorageManager layout σ) (K : Constants)

def processDeleteCallForwarding (param : DeleteCallForwardingParam) : Program σ Unit := do
  let sId ← getSubscriberId M param.subNbr
  deleteCallForwardingRecord M K sId param.sfType param.startTime

def processGetAccessData (param : GetAccessDataParam) : Program σ Unit :=
  getAccessInfo M K param.sId param.aiType

def processGetNewDestination (param : GetNewDestinationParam) : Program σ Unit :=
  getNewDestination param.sId param.sfType param.startTime param.endTime

def processGetSubscriberData (param : GetSubscriberDataParam) : Program σ Unit :=
  getSubscriberData M param.sId

def processInsertCallForwarding (memory : Memory) (param : InsertCallForwardingParam) :
    Program σ Unit := do
  let sId ← getSubscriberId M param.subNbr
  getSpecialFacilitySFType M K sId
  insertCallForwardingRecord M K memory sId param.sfType param.startTime param.endTime param.numberx

def processUpdateLocation (param : UpdateLocationParam) : Program σ Unit := do
  let sId ← getSubscriberId M param.subNbr
  updateSubscriberVLRLocation M sId param.vlrLocation

def processUpdateSubscriberData (param : UpdateSubscriberDataParam) : Program σ Unit := do
  updateSubscriberBit1 M param.sId param.bit1
  updateSpecialFacilityDataA M K param.sId param.sfType param.dataA

/-- What the loop of `start` does with one tuple. -/
def process (memory : Memory) : EventTuple → Program σ Unit
  | .deleteCallForwarding param => processDeleteCallForwarding M K param
  | .getAccessData param => processGetAccessData M K param
  | .getNewDestination param => processGetNewDestination param
  | .getSubscriberData param => processGetSubscriberData M param
  | .insertCallForwarding param => processInsertCallForwarding M K memory param
  | .updateLocation param => processUpdateLocation M param
  | .updateSubscriberData param => processUpdateSubscriberData M K param
  | .endExecution => return ()

/-- Run the queue up to `ENDEXECUTION`; without one the processor does not come to an end.
`memories` gives the buffer that the transaction with a given number finds. -/
def start (memories : ℕ → Memory) : ℕ → List EventTuple → Program σ Unit
  | _, [] => Program.fault
  | _, .endExecution :: _ => return ()
  | txnCnt, tuple :: queue => do
    process M K (memories txnCnt) tuple
    start memories (txnCnt + 1) queue

end TatpSerialProcessor
end ImdbD.Benchmark.TATP
