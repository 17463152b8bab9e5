import ImdbD.ProgramOrder
import ImdbD.SharedVectors
import ImdbD.ForkJoinCrews
import ImdbD.TpccProcessor
import Mathlib.Data.List.ReduceOption

/-!
# The batch processors of TPC-C

The sub-transactions of a batch run in buckets of districts and of stock items.
Crews of threads hand their results to later crews through vectors; where one
crew needs what another has done, the main thread waits in between. With a
thread pool the same code waits for tasks instead of threads.
-/
namespace ImdbD.Benchmark.TPCC
open AtomicProgram KeyedStore

/-- The vectors of a batch. Of a vector of vectors each element is a vector of its own. -/
inductive Vec where
  | dNextOIdVector
  | sDistsVector (pos : ℕ)
  | olAmountsVector (pos : ℕ)
  | noOIdsVector (pos : ℕ)
  | cIdsVector (pos : ℕ)
  | sumsVector (pos : ℕ)
  deriving DecidableEq

abbrev Element : Vec → Type
  | .dNextOIdVector | .noOIdsVector _ | .cIdsVector _ => ℤ
  | .sDistsVector _ => String
  | .olAmountsVector _ | .sumsVector _ => ℚ

abbrev Vectors := ∀ vec, List (Element vec)

abbrev Work := State × Vectors

/-- A sub-transaction. -/
def onTables {α : Type} (p : Program Tables α) : Program Work α := p.onFst.onFst

/-- `vec.at(i)`. -/
def elementAt (vec : Vec) (i : ℕ) : Program Work (Element vec) :=
  Program.onSnd (Program.readAt (V := Element) vec i)

/-- `vec.at(i) = x`. -/
def assign (vec : Vec) (i : ℕ) (x : Element vec) : Program Work Unit :=
  Program.onSnd (Program.writeAt (V := Element) vec i x)

/-- A vector that is passed on. -/
def passed (vec : Vec) : Program Work (List (Element vec)) :=
  Program.onSnd (Program.readVector (V := Element) vec)

namespace TpccBatchProcessor

/-- How `start` cuts a queue into batches. At least one tuple is taken before the time is looked
at; the last batch ends with `ENDEXECUTION`. -/
inductive Cut : List EventTuple → List (List EventTuple) → Prop
  | last {tuples queue : List EventTuple} (h : .endExecution ∉ tuples) :
      Cut (tuples ++ .endExecution :: queue) [tuples ++ [.endExecution]]
  | next {tuples queue : List EventTuple} {batches : List (List EventTuple)} (hne : tuples ≠ [])
      (h : .endExecution ∉ tuples) (hrest : Cut queue batches) :
      Cut (tuples ++ queue) (tuples :: batches)

def deliveryParams (batch : List EventTuple) : List DeliveryParam :=
  batch.filterMap fun | .delivery param => some param | _ => none

def newOrderParams (batch : List EventTuple) : List NewOrderParam :=
  batch.filterMap fun | .newOrder param => some param | _ => none

def paymentParams (batch : List EventTuple) : List PaymentParam :=
  batch.filterMap fun | .payment param => some param | _ => none

def hashInt (key : UInt32) : UInt32 :=
  let key := ~~~key + (key <<< (15 : UInt32))
  let key := key ^^^ (key >>> (12 : UInt32))
  let key := key + (key <<< (2 : UInt32))
  let key := key ^^^ (key >>> (4 : UInt32))
  let key := key * (2057 : UInt32)
  key ^^^ (key >>> (16 : UInt32))

/-- The bucket of a district. -/
def districtBucket (K : Constants) (wId dId : ℤ) : ℕ :=
  getOrderLineTableOffset wId dId % K.kParallelism

/-- The bucket of an item in the stock of a warehouse. -/
def itemBucket (K : Constants) (P : ScaleParams) (iId iWId : ℤ) : ℕ :=
  (hashInt (UInt32.ofInt (P.numItems * (iWId - 1) + iId - 1))).toNat % K.kParallelism

/-- How many tuples of each kind a loop has passed. -/
structure Positions where
  deliveryPos : ℕ
  newOrderPos : ℕ
  paymentPos : ℕ

def Positions.next (pos : Positions) : EventTuple → Positions
  | .delivery _ => { pos with deliveryPos := pos.deliveryPos + 1 }
  | .newOrder _ => { pos with newOrderPos := pos.newOrderPos + 1 }
  | .payment _ => { pos with paymentPos := pos.paymentPos + 1 }
  | .endExecution => pos

/-- What a loop over a batch puts into the buckets: each entry with the number of its bucket. -/
def emplaced {α : Type} (emplace : Positions → EventTuple → Option (List (ℕ × α))) :
    Positions → List EventTuple → Option (List (ℕ × α))
  | _, [] => some []
  | pos, tuple :: batch => do
    let entries ← emplace pos tuple
    let rest ← emplaced emplace (pos.next tuple) batch
    return entries ++ rest

/-- What is in bucket `t`. -/
def bucket {α : Type} (entries : List (ℕ × α)) (t : ℕ) : List α :=
  (entries.filter (fun entry => entry.1 = t)).map Prod.snd

section Buckets
variable (K : Constants) (P : ScaleParams)

def newOrderParamsBkt (pos : Positions) : EventTuple → Option (List (ℕ × ℕ))
  | .newOrder param => some [(districtBucket K param.wId param.dId, pos.newOrderPos)]
  | .delivery _ | .payment _ | .endExecution => some []

def newOrderParamsIIdBkt (pos : Positions) : EventTuple → Option (List (ℕ × (ℕ × ℕ)))
  | .newOrder param => (List.range param.iIds.length).mapM (fun i => do
    let iWId ← param.iWIds[i]?
    let iId ← param.iIds[i]?
    return (itemBucket K P iId iWId, (pos.newOrderPos, i)))
  | .delivery _ | .payment _ | .endExecution => some []

/-- New orders carry the mark -1 in the place of a district. -/
def dNMixedBkt (pos : Positions) : EventTuple → Option (List (ℕ × (ℕ × ℤ)))
  | .delivery param => some ((upTo DISTRICTS_PER_WAREHOUSE).map (fun noDId =>
    (districtBucket K param.wId noDId, (pos.deliveryPos, noDId))))
  | .newOrder param => some [(districtBucket K param.wId param.dId, (pos.newOrderPos, -1))]
  | .payment _ | .endExecution => some []

/-- The districts in which a delivery has found an order. -/
def deliveryParamsBkt (noOIdsVector : List (List ℤ)) (pos : Positions) :
    EventTuple → Option (List (ℕ × (ℕ × ℤ)))
  | .delivery param => do
    let noOIds ← noOIdsVector[pos.deliveryPos]?
    let found ← (upTo DISTRICTS_PER_WAREHOUSE).mapM (fun noDId => do
      let noOId ← noOIds[noDId.toNat]?
      return if noOId ≠ -1 then
        some (districtBucket K param.wId noDId, (pos.deliveryPos, noDId)) else none)
    return found.reduceOption
  | .newOrder _ | .payment _ | .endExecution => some []

/-- Payments carry the mark -1 in the place of a district. -/
def dPMixedBkt (noOIdsVector : List (List ℤ)) (pos : Positions) :
    EventTuple → Option (List (ℕ × (ℕ × ℤ)))
  | .payment param => some [(districtBucket K param.wId param.dId, (pos.paymentPos, -1))]
  | tuple => deliveryParamsBkt K noOIdsVector pos tuple

end Buckets

section SubTransactions
variable (K : Constants)

/-- The first two sub-transactions of a new order. -/
def neworder12 (pos : ℕ) (param : NewOrderParam) : Program Work Unit := do
  let dNextOId ← onTables (neworderSubTxn1 param)
  assign .dNextOIdVector pos dNextOId
  let dNextOId ← elementAt .dNextOIdVector pos
  onTables (neworderSubTxn2 K param dNextOId)

def neworder3 (pos : ℕ) (param : NewOrderParam) : Program Work Unit := do
  let dNextOId ← elementAt .dNextOIdVector pos
  onTables (neworderSubTxn3 K param dNextOId)

def neworder4 (pos : ℕ) (param : NewOrderParam) (i : ℕ) : Program Work Unit := do
  let sDist ← onTables (neworderSubTxn4Single param i)
  assign (.sDistsVector pos) i sDist

def neworder5 (pos : ℕ) (param : NewOrderParam) (i : ℕ) : Program Work Unit := do
  let olAmount ← onTables (neworderSubTxn5Single param i)
  assign (.olAmountsVector pos) i olAmount

/-- The vectors are no longer written when their elements are taken one by one. -/
def neworder6 (pos : ℕ) (param : NewOrderParam) (dNextOId : ℤ) : Program Work Unit := do
  let sDists ← passed (.sDistsVector pos)
  let olAmounts ← passed (.olAmountsVector pos)
  onTables (neworderSubTxn6 K param dNextOId sDists olAmounts)

def delivery1 (pos : ℕ) (param : DeliveryParam) (noDId : ℤ) : Program Work Unit := do
  let found ← onTables (deliverySubTxn1Single K param noDId)
  match found with
  | some noOId => assign (.noOIdsVector pos) noDId.toNat noOId
  | none => return ()

def delivery2 (pos : ℕ) (param : DeliveryParam) (noDId noOId : ℤ) : Program Work Unit := do
  let sum ← onTables (deliverySubTxn2Single K param noDId noOId)
  assign (.sumsVector pos) noDId.toNat sum

def delivery3 (pos : ℕ) (param : DeliveryParam) (noDId noOId : ℤ) : Program Work Unit := do
  let cId ← onTables (deliverySubTxn3Single K param noDId noOId)
  assign (.cIdsVector pos) noDId.toNat cId

def delivery4 (pos : ℕ) (param : DeliveryParam) (noDId : ℤ) : Program Work Unit := do
  let sum ← elementAt (.sumsVector pos) noDId.toNat
  let cId ← elementAt (.cIdsVector pos) noDId.toNat
  onTables (deliverySubTxn4Single param noDId sum cId)

end SubTransactions

section Threads
variable (K : Constants) (batch : List EventTuple)

def no4Entry (entry : ℕ × ℕ) : Program Work Unit := do
  let param ← Program.fetch (newOrderParams batch)[entry.1]?
  neworder4 entry.1 param entry.2

def no12Entry (pos : ℕ) : Program Work Unit := do
  let param ← Program.fetch (newOrderParams batch)[pos]?
  neworder12 K pos param

def no5Entry (entry : ℕ × ℕ) : Program Work Unit := do
  let param ← Program.fetch (newOrderParams batch)[entry.1]?
  neworder5 entry.1 param entry.2

def neworderConflictEntry (entry : ℕ × ℤ) : Program Work Unit :=
  if entry.2 = -1 then do
    let param ← Program.fetch (newOrderParams batch)[entry.1]?
    neworder3 K entry.1 param
  else do
    let param ← Program.fetch (deliveryParams batch)[entry.1]?
    delivery1 K entry.1 param entry.2

def del3Entry (entry : ℕ × ℤ) : Program Work Unit := do
  let param ← Program.fetch (deliveryParams batch)[entry.1]?
  let noOId ← elementAt (.noOIdsVector entry.1) entry.2.toNat
  delivery3 K entry.1 param entry.2 noOId

def no6Entry (pos : ℕ) : Program Work Unit := do
  let param ← Program.fetch (newOrderParams batch)[pos]?
  let dNextOId ← elementAt .dNextOIdVector pos
  neworder6 K pos param dNextOId

def del2Entry (entry : ℕ × ℤ) : Program Work Unit := do
  let param ← Program.fetch (deliveryParams batch)[entry.1]?
  let noOId ← elementAt (.noOIdsVector entry.1) entry.2.toNat
  delivery2 K entry.1 param entry.2 noOId

def conflict2Entry (entry : ℕ × ℤ) : Program Work Unit :=
  if entry.2 = -1 then do
    let param ← Program.fetch (paymentParams batch)[entry.1]?
    onTables (paymentSubTxn4 param)
  else do
    let param ← Program.fetch (deliveryParams batch)[entry.1]?
    delivery4 entry.1 param entry.2

def paymentTxn1Thread : Program Work Unit :=
  Program.each (fun param => onTables (paymentSubTxn1 param)) (paymentParams batch)

def paymentTxn2Thread : Program Work Unit :=
  Program.each (fun param => onTables (paymentSubTxn2 param)) (paymentParams batch)

def paymentTxn3Thread : Program Work Unit :=
  Program.each (fun param => Program.onFst (paymentSubTxn3 param)) (paymentParams batch)

end Threads

/-- The crews, and what the main thread does itself. -/
inductive Role where
  | main
  | create
  | no4
  | resize
  | no12
  | no5
  | paymentTxn1
  | paymentTxn2
  | paymentTxn3
  | neworderConflict
  | recreate
  | found
  | del3
  | no6
  | del2
  | conflict2
  deriving DecidableEq

/-- A thread: the number of its batch, its crew, and its number in the crew. -/
abbrev ThreadId := (ℕ × Role) × ℕ

section Main
variable (K : Constants) (P : ScaleParams)

/-- One element for every district, and the one at 0. -/
def perDistrict {α : Type} (a : α) : List α := List.replicate (DISTRICTS_PER_WAREHOUSE + 1).toNat a

/-- The vectors that the first loop over a batch fills; the others are not there yet. -/
def created (batch : List EventTuple) : Vectors
  | .sDistsVector pos => (newOrderParams batch)[pos]?.elim []
    (fun param => List.replicate param.iIds.length "")
  | .olAmountsVector pos => (newOrderParams batch)[pos]?.elim []
    (fun param => List.replicate param.iIds.length 0)
  | .noOIdsVector pos => if pos < (deliveryParams batch).length then perDistrict (-1) else []
  | .dNextOIdVector | .cIdsVector _ | .sumsVector _ => []

def resized (batch : List EventTuple) (v : Vectors) : Vectors
  | .dNextOIdVector => List.replicate (newOrderParams batch).length 0
  | vec => v vec

/-- The vectors that the second loop fills. -/
def recreated (batch : List EventTuple) (v : Vectors) : Vectors
  | .cIdsVector pos => if pos < (deliveryParams batch).length then perDistrict (-1) else []
  | .sumsVector pos => if pos < (deliveryParams batch).length then perDistrict (-1) else []
  | vec => v vec

def replaceVectors (new : Vectors → Vectors) : Action Work Unit := fun w =>
  some ((), (w.1, new w.2))

def noOIdsVector (batch : List EventTuple) (v : Vectors) : List (List ℤ) :=
  (List.range (deliveryParams batch).length).map (fun pos => v (.noOIdsVector pos))

/-- What the second loop reads of the vectors. -/
def readNoOIds (batch : List EventTuple) : Action Work (List (List ℤ)) := fun w =>
  some (noOIdsVector batch w.2, w)

/-- The main thread in batch number `b`. -/
def processBatch (b : ℕ) (batch : List EventTuple) (rest : Script Work ThreadId) :
    Script Work ThreadId :=
  .act ((b, .create), 0) (replaceVectors (fun _ => created batch)) fun _ =>
  .fetch ((b, .main), 0) (emplaced (newOrderParamsBkt K) ⟨0, 0, 0⟩ batch) fun newOrderParamsBkt =>
  .fetch ((b, .main), 0) (emplaced (newOrderParamsIIdBkt K P) ⟨0, 0, 0⟩ batch) fun iIdBkt =>
  .fetch ((b, .main), 0) (emplaced (dNMixedBkt K) ⟨0, 0, 0⟩ batch) fun dNMixedBkt =>
  spawnAll (b, .no4) K.kParallelism
    (fun t => Program.each (no4Entry batch) (bucket iIdBkt t)) <|
  .act ((b, .resize), 0) (replaceVectors (resized batch)) fun _ =>
  spawnAll (b, .no12) K.kParallelism
    (fun t => Program.each (no12Entry K batch) (bucket newOrderParamsBkt t)) <|
  spawnAll (b, .no5) K.kParallelism
    (fun t => Program.each (no5Entry batch) (bucket iIdBkt t)) <|
  spawnAll (b, .paymentTxn1) 1 (fun _ => paymentTxn1Thread batch) <|
  spawnAll (b, .paymentTxn2) 1 (fun _ => paymentTxn2Thread batch) <|
  spawnAll (b, .paymentTxn3) 1 (fun _ => paymentTxn3Thread batch) <|
  joinAll (b, .no12) K.kParallelism <|
  spawnAll (b, .neworderConflict) K.kParallelism
    (fun t => Program.each (neworderConflictEntry K batch) (bucket dNMixedBkt t)) <|
  joinAll (b, .neworderConflict) K.kParallelism <|
  joinAll (b, .no4) K.kParallelism <|
  joinAll (b, .no5) K.kParallelism <|
  .act ((b, .recreate), 0) (replaceVectors (recreated batch)) fun _ =>
  .act ((b, .found), 0) (readNoOIds batch) fun noOIdsVector =>
  .fetch ((b, .main), 0) (emplaced (dPMixedBkt K noOIdsVector) ⟨0, 0, 0⟩ batch) fun dPMixedBkt =>
  .fetch ((b, .main), 0) (emplaced (deliveryParamsBkt K noOIdsVector) ⟨0, 0, 0⟩ batch)
    fun deliveryParamsBkt =>
  spawnAll (b, .del3) K.kParallelism
    (fun t => Program.each (del3Entry K batch) (bucket deliveryParamsBkt t)) <|
  spawnAll (b, .no6) K.kParallelism
    (fun t => Program.each (no6Entry K batch) (bucket newOrderParamsBkt t)) <|
  joinAll (b, .no6) K.kParallelism <|
  spawnAll (b, .del2) K.kParallelism
    (fun t => Program.each (del2Entry K batch) (bucket deliveryParamsBkt t)) <|
  joinAll (b, .del2) K.kParallelism <|
  joinAll (b, .del3) K.kParallelism <|
  spawnAll (b, .conflict2) K.kParallelism
    (fun t => Program.each (conflict2Entry batch) (bucket dPMixedBkt t)) <|
  joinAll (b, .paymentTxn1) 1 <|
  joinAll (b, .paymentTxn2) 1 <|
  joinAll (b, .paymentTxn3) 1 <|
  joinAll (b, .conflict2) K.kParallelism rest

/-- The batches of a queue, one after the other. -/
def start : ℕ → List (List EventTuple) → Script Work ThreadId
  | _, [] => .done
  | b, batch :: batches => processBatch K P b batch (start (b + 1) batches)

end Main
end TpccBatchProcessor

/-- What runs the threads: the operating system, or a pool of `kParallelism` workers. -/
inductive Executor where
  | threads
  | threadPool

/-- How many unfinished threads there may be before one that is at work. -/
def Executor.limit (K : Constants) : Executor → ℕ → Prop
  | threads, _ => True
  | threadPool, n => n < K.kParallelism

theorem Executor.limit_zero (K : Constants) (executor : Executor) : executor.limit K 0 := by
  cases executor with
  | threads => trivial
  | threadPool => exact K.parallelism_pos

end ImdbD.Benchmark.TPCC
