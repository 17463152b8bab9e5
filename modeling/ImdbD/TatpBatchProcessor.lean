import ImdbD.TatpProcedures
import ImdbD.ForkJoinCrews
import ImdbD.SharedVectors

/-!
# The batch processors of TATP

A batch is processed in two rounds of threads: the subscriber numbers of all
tuples are looked up first, then the procedures run in buckets of subscribers.
With a thread pool the same code waits for tasks instead of threads.
-/
namespace ImdbD.Benchmark.TATP
open ByteMemory StorageEngine AtomicProgram RecordStore

/-- The vectors of looked up numbers: `dcf_s_ids`, `icf_s_ids` and `ul_s_ids`. -/
inductive Lookup where
  | dcf
  | icf
  | ul
  deriving DecidableEq

abbrev SIds := ∀ _ : Lookup, List Int32

/-- The calls of which it is noted what they find. -/
inductive Reading where
  | subscriberData
  | specialFacility
  | deletedForwarding
  | insertedForwarding
  deriving DecidableEq

/-- What there is to be found: a row, or a group of the secondary index with the rows of the
subscriber. -/
abbrev Reading.Finding : Reading → Type
  | subscriberData => Option (Record TatpSchema.getSubscriberSchema)
  | specialFacility => List Bytes × (Int8 → Option (Record TatpSchema.getSpecialFacilitySchema))
  | deletedForwarding | insertedForwarding => Option (Record TatpSchema.getCallForwardingSchema)

/-- A call: the batch, the position among the tuples of its kind, and the subscriber. -/
structure Call where
  batch : ℕ
  reading : Reading
  pos : ℕ
  sId : Int32
  deriving DecidableEq

abbrev Notes := ∀ call : Call, Option call.reading.Finding

/-- The tables, the vectors, and the notes, which the processor does not read. -/
abbrev Work := (Tables × SIds) × Notes

section Findings
variable (K : Constants) (s : Tables) (sId : Int32)

def findSubscriber : Reading.subscriberData.Finding := s.row .subscriber (subscriberKey sId)

def findSpecialFacility : Reading.specialFacility.Finding :=
  (s.groups (.specialFacility (K.offset sId)) (int32Bytes sId),
    fun sfType => s.row (.specialFacility (K.offset sId)) (typeKey sId sfType))

def findCallForwarding (sfType startTime : Int8) :
    Option (Record TatpSchema.getCallForwardingSchema) :=
  s.row (.callForwarding (K.offset sId)) (callForwardingKey sId sfType startTime)

end Findings

/-- A procedure on the tables. -/
def onTables (p : Program Tables Unit) : Program Work Unit := p.onFst.onFst

/-- A procedure of which it is noted what it finds. -/
def noted (call : Call) (look : Tables → call.reading.Finding) (p : Program Tables Unit) :
    Program Work Unit :=
  p.onFst.noting call (fun s => look s.1)

namespace TatpBatchProcessor

/-- How `start` cuts a queue into batches. At least one tuple is taken before the time is looked
at; the last batch ends with `ENDEXECUTION`. -/
inductive Cut : List EventTuple → List (List EventTuple) → Prop
  | last {tuples queue : List EventTuple} (h : .endExecution ∉ tuples) :
      Cut (tuples ++ .endExecution :: queue) [tuples ++ [.endExecution]]
  | next {tuples queue : List EventTuple} {batches : List (List EventTuple)} (hne : tuples ≠ [])
      (h : .endExecution ∉ tuples) (hrest : Cut queue batches) :
      Cut (tuples ++ queue) (tuples :: batches)

def dcfParams (batch : List EventTuple) : List DeleteCallForwardingParam :=
  batch.filterMap fun | .deleteCallForwarding param => some param | _ => none

def gadParams (batch : List EventTuple) : List GetAccessDataParam :=
  batch.filterMap fun | .getAccessData param => some param | _ => none

def gsdParams (batch : List EventTuple) : List GetSubscriberDataParam :=
  batch.filterMap fun | .getSubscriberData param => some param | _ => none

def icfParams (batch : List EventTuple) : List InsertCallForwardingParam :=
  batch.filterMap fun | .insertCallForwarding param => some param | _ => none

def ulParams (batch : List EventTuple) : List UpdateLocationParam :=
  batch.filterMap fun | .updateLocation param => some param | _ => none

def usdParams (batch : List EventTuple) : List UpdateSubscriberDataParam :=
  batch.filterMap fun | .updateSubscriberData param => some param | _ => none

/-- The subscriber numbers to be looked up. -/
def subNbrs (batch : List EventTuple) : Lookup → List CString
  | .dcf => (dcfParams batch).map DeleteCallForwardingParam.subNbr
  | .icf => (icfParams batch).map InsertCallForwardingParam.subNbr
  | .ul => (ulParams batch).map UpdateLocationParam.subNbr

def hashInt (a : UInt32) : UInt32 :=
  let a := (a + (0x7ed55d16 : UInt32)) + (a <<< (12 : UInt32))
  let a := (a ^^^ (0xc761c23c : UInt32)) ^^^ (a >>> (19 : UInt32))
  let a := (a + (0x165667b1 : UInt32)) + (a <<< (5 : UInt32))
  let a := (a + (0xd3a2646c : UInt32)) ^^^ (a <<< (9 : UInt32))
  let a := (a + (0xfd7046c5 : UInt32)) + (a <<< (3 : UInt32))
  (a ^^^ (0xb55a4f09 : UInt32)) ^^^ (a >>> (16 : UInt32))

/-- The bucket of a subscriber. -/
def bucket (K : Constants) (sId : Int32) : ℕ := (hashInt sId.toUInt32).toNat % K.kParallelism

/-- A kind of tuple and the position among the tuples of the kind. -/
abbrev Entry := ℕ × ℕ

structure Buckets where
  dcfIcfBkt : ℕ → List Entry
  icfUsdBkt : ℕ → List Entry
  gsdUlUsdBkt : ℕ → List Entry

/-- How many tuples of each kind the loop has passed. -/
structure Positions where
  dcfPos : ℕ
  gsdPos : ℕ
  icfPos : ℕ
  ulPos : ℕ
  usdPos : ℕ

def emplaceBack (bkt : ℕ → List Entry) (t : ℕ) (entry : Entry) : ℕ → List Entry :=
  Function.update bkt t (bkt t ++ [entry])

/-- Distribute the tuples of a batch over the buckets. -/
def fillBuckets (K : Constants) (sIds : SIds) :
    List EventTuple → Positions → Buckets → Option Buckets
  | [], _, bkts => some bkts
  | .deleteCallForwarding _ :: batch, pos, bkts => do
    let sId ← (sIds .dcf)[pos.dcfPos]?
    fillBuckets K sIds batch { pos with dcfPos := pos.dcfPos + 1 }
      { bkts with dcfIcfBkt := emplaceBack bkts.dcfIcfBkt (bucket K sId) (0, pos.dcfPos) }
  | .getSubscriberData param :: batch, pos, bkts =>
    fillBuckets K sIds batch { pos with gsdPos := pos.gsdPos + 1 }
      { bkts with gsdUlUsdBkt := emplaceBack bkts.gsdUlUsdBkt (bucket K param.sId) (0, pos.gsdPos) }
  | .insertCallForwarding _ :: batch, pos, bkts => do
    let sId ← (sIds .icf)[pos.icfPos]?
    fillBuckets K sIds batch { pos with icfPos := pos.icfPos + 1 }
      { bkts with
        dcfIcfBkt := emplaceBack bkts.dcfIcfBkt (bucket K sId) (1, pos.icfPos)
        icfUsdBkt := emplaceBack bkts.icfUsdBkt (bucket K sId) (0, pos.icfPos) }
  | .updateLocation _ :: batch, pos, bkts => do
    let sId ← (sIds .ul)[pos.ulPos]?
    fillBuckets K sIds batch { pos with ulPos := pos.ulPos + 1 }
      { bkts with gsdUlUsdBkt := emplaceBack bkts.gsdUlUsdBkt (bucket K sId) (1, pos.ulPos) }
  | .updateSubscriberData param :: batch, pos, bkts =>
    fillBuckets K sIds batch { pos with usdPos := pos.usdPos + 1 }
      { bkts with
        gsdUlUsdBkt := emplaceBack bkts.gsdUlUsdBkt (bucket K param.sId) (2, pos.usdPos)
        icfUsdBkt := emplaceBack bkts.icfUsdBkt (bucket K param.sId) (1, pos.usdPos) }
  | .getAccessData _ :: batch, pos, bkts | .getNewDestination _ :: batch, pos, bkts
  | .endExecution :: batch, pos, bkts => fillBuckets K sIds batch pos bkts

/-- The positions `t`, `t + k` and so on of a vector. -/
def stripe (t k size : ℕ) : List ℕ := List.range' t ((size - t + k - 1) / k) k

section Threads
variable (K : Constants)

def sidThread (batch : List EventTuple) (lookup : Lookup) (t : ℕ) : Program Work Unit :=
  Program.onFst (Program.each (fun i => do
    let subNbr ← Program.fetch (subNbrs batch lookup)[i]?
    let sId ← Program.onFst (getSubscriberId (manager layout) subNbr)
    Program.onSnd (Program.writeAt (V := fun _ => Int32) lookup i sId))
    (stripe t K.kParallelism (subNbrs batch lookup).length))

def gadThread (batch : List EventTuple) (t : ℕ) : Program Work Unit :=
  Program.each (fun i => do
    let param ← Program.fetch (gadParams batch)[i]?
    onTables (getAccessInfo (manager layout) K param.sId param.aiType))
    (stripe t K.kParallelism (gadParams batch).length)

/-- What a thread does with an entry of its bucket. The vectors are no longer written then. -/
def dcfIcfEntry (b : ℕ) (memory : ℕ → Memory) (batch : List EventTuple) (sIds : SIds)
    (entry : Entry) : Program Work Unit :=
  if entry.1 = 0 then do
    let param ← Program.fetch (dcfParams batch)[entry.2]?
    let sId ← Program.fetch (sIds .dcf)[entry.2]?
    noted ⟨b, .deletedForwarding, entry.2, sId⟩
      (fun s => findCallForwarding K s sId param.sfType param.startTime)
      (deleteCallForwardingRecord (manager layout) K sId param.sfType param.startTime)
  else do
    let param ← Program.fetch (icfParams batch)[entry.2]?
    let sId ← Program.fetch (sIds .icf)[entry.2]?
    noted ⟨b, .insertedForwarding, entry.2, sId⟩
      (fun s => findCallForwarding K s sId param.sfType param.startTime)
      (insertCallForwardingRecord (manager layout) K (memory entry.2) sId param.sfType
        param.startTime param.endTime param.numberx)

def gsdUlUsdEntry (b : ℕ) (batch : List EventTuple) (sIds : SIds) (entry : Entry) :
    Program Work Unit :=
  if entry.1 = 0 then do
    let param ← Program.fetch (gsdParams batch)[entry.2]?
    noted ⟨b, .subscriberData, entry.2, param.sId⟩ (fun s => findSubscriber s param.sId)
      (getSubscriberData (manager layout) param.sId)
  else if entry.1 = 1 then do
    let param ← Program.fetch (ulParams batch)[entry.2]?
    let sId ← Program.fetch (sIds .ul)[entry.2]?
    onTables (updateSubscriberVLRLocation (manager layout) sId param.vlrLocation)
  else do
    let param ← Program.fetch (usdParams batch)[entry.2]?
    onTables (updateSubscriberBit1 (manager layout) param.sId param.bit1)

def icfUsdEntry (b : ℕ) (batch : List EventTuple) (sIds : SIds) (entry : Entry) :
    Program Work Unit :=
  if entry.1 = 0 then do
    let sId ← Program.fetch (sIds .icf)[entry.2]?
    noted ⟨b, .specialFacility, entry.2, sId⟩ (fun s => findSpecialFacility K s sId)
      (getSpecialFacilitySFType (manager layout) K sId)
  else do
    let param ← Program.fetch (usdParams batch)[entry.2]?
    onTables (updateSpecialFacilityDataA (manager layout) K param.sId param.sfType param.dataA)

end Threads

inductive Role where
  | main
  | sid (lookup : Lookup)
  | gad
  | dcfIcf
  | gsdUlUsd
  | icfUsd
  deriving DecidableEq

section Main
variable (K : Constants)

/-- The vectors of a batch, all zero. -/
def resize (batch : List EventTuple) : Action Work Unit := fun w =>
  some ((), ((w.1.1, fun lookup => List.replicate (subNbrs batch lookup).length 0), w.2))

/-- The main thread in a batch. `b` is the number of the batch, `memory` what the insertions find
in their buffers. -/
def processBatch (b : ℕ) (memory : ℕ → Memory) (batch : List EventTuple)
    (rest : Script Work (Role × ℕ)) : Script Work (Role × ℕ) :=
  .act (.main, 0) (resize batch) fun _ =>
  spawnAll (.sid .dcf) K.kParallelism (sidThread K batch .dcf) <|
  spawnAll (.sid .icf) K.kParallelism (sidThread K batch .icf) <|
  spawnAll (.sid .ul) K.kParallelism (sidThread K batch .ul) <|
  spawnAll .gad K.kParallelism (gadThread K batch) <|
  joinAll (.sid .dcf) K.kParallelism <|
  joinAll (.sid .icf) K.kParallelism <|
  joinAll (.sid .ul) K.kParallelism <|
  .act (.main, 0) (fun w => some (w.1.2, w)) fun sIds =>
  .fetch (.main, 0) (fillBuckets K sIds batch ⟨0, 0, 0, 0, 0⟩
    ⟨fun _ => [], fun _ => [], fun _ => []⟩) fun bkts =>
  spawnAll .dcfIcf K.kParallelism
    (fun t => Program.each (dcfIcfEntry K b memory batch sIds) (bkts.dcfIcfBkt t)) <|
  spawnAll .gsdUlUsd K.kParallelism
    (fun t => Program.each (gsdUlUsdEntry b batch sIds) (bkts.gsdUlUsdBkt t)) <|
  spawnAll .icfUsd K.kParallelism
    (fun t => Program.each (icfUsdEntry K b batch sIds) (bkts.icfUsdBkt t)) <|
  joinAll .dcfIcf K.kParallelism <|
  joinAll .gsdUlUsd K.kParallelism <|
  joinAll .icfUsd K.kParallelism <|
  joinAll .gad K.kParallelism rest

/-- The batches of a queue, one after the other. -/
def start (memories : ℕ → ℕ → Memory) : ℕ → List (List EventTuple) → Script Work (Role × ℕ)
  | _, [] => .done
  | b, batch :: batches =>
    processBatch K b (memories b) batch (start memories (b + 1) batches)

end Main
end TatpBatchProcessor

/-- What runs the threads: the operating system, or a pool of `kParallelism` workers. -/
inductive Executor where
  | threads
  | threadPool

/-- How many unfinished threads there may be before one that is at work. -/
def Executor.limit (K : Constants) : Executor → ℕ → Prop
  | threads, _ => True
  | threadPool, n => n < K.kParallelism

theorem Executor.limit_zero (K : Constants) (executor : Executor) : executor.limit K 0 := by
  cases executor with
  | threads => trivial
  | threadPool => exact K.parallelism_pos

end ImdbD.Benchmark.TATP
