import ImdbD.TpccBatchProcessor
import ImdbD.TpccFootprint

/-!
# The jobs of a TPC-C batch

A job is what one thread does with one entry of its bucket, or what the main
thread does with the vectors. It is told beforehand the number of the order that
it will find, and fails if it finds another. Two jobs that touch the same place
belong to one thread, or one of them must come first; then a wait of the main
thread stands between their crews.
-/
namespace ImdbD.Benchmark.TPCC.TpccBatchProcessor
open AtomicProgram KeyedStore

inductive Job where
  | create
  | resize
  | recreate
  | found (noOIdsVector : List (List ℤ))
  | neworder12 (pos : ℕ) (param : NewOrderParam) (o : ℤ)
  | neworder3 (pos : ℕ) (param : NewOrderParam)
  | neworder4 (pos : ℕ) (param : NewOrderParam) (i : ℕ)
  | neworder5 (pos : ℕ) (param : NewOrderParam) (i : ℕ)
  | neworder6 (pos : ℕ) (param : NewOrderParam) (o : ℤ)
  | delivery1 (pos : ℕ) (param : DeliveryParam) (d : ℤ)
  | delivery2 (pos : ℕ) (param : DeliveryParam) (d o : ℤ)
  | delivery3 (pos : ℕ) (param : DeliveryParam) (d o : ℤ)
  | delivery4 (pos : ℕ) (param : DeliveryParam) (d : ℤ)
  | payment1 (param : PaymentParam)
  | payment2 (param : PaymentParam)
  | payment3 (param : PaymentParam)
  | payment4 (param : PaymentParam)

namespace Job
variable (K : Constants) (P : ScaleParams)

def role : Job → Role
  | create => .create
  | resize => .resize
  | recreate => .recreate
  | found _ => .found
  | neworder12 .. => .no12
  | neworder3 .. | delivery1 .. => .neworderConflict
  | neworder4 .. => .no4
  | neworder5 .. => .no5
  | neworder6 .. => .no6
  | delivery2 .. => .del2
  | delivery3 .. => .del3
  | delivery4 .. | payment4 _ => .conflict2
  | payment1 _ => .paymentTxn1
  | payment2 _ => .paymentTxn2
  | payment3 _ => .paymentTxn3

def bucket : Job → ℕ
  | neworder12 _ param _ | neworder3 _ param | neworder6 _ param _ =>
    districtBucket K param.wId param.dId
  | neworder4 _ param i | neworder5 _ param i =>
    itemBucket K P ((param.iIds[i]?).getD 0) ((param.iWIds[i]?).getD 0)
  | delivery1 _ param d | delivery2 _ param d _ | delivery3 _ param d _ | delivery4 _ param d =>
    districtBucket K param.wId d
  | payment4 param => districtBucket K param.wId param.dId
  | create | resize | recreate | found _ | payment1 _ | payment2 _ | payment3 _ => 0

/-- The crew and the number in the crew. -/
def thread (job : Job) : Role × ℕ := (job.role, job.bucket K P)

/-- The parameters are those at the position. -/
def Fits (batch : List EventTuple) : Job → Prop
  | neworder12 pos param _ | neworder3 pos param | neworder4 pos param _ | neworder5 pos param _
  | neworder6 pos param _ => (newOrderParams batch)[pos]? = some param
  | delivery1 pos param d | delivery2 pos param d _ | delivery3 pos param d _
  | delivery4 pos param d => (deliveryParams batch)[pos]? = some param ∧ 0 ≤ d
  | create | resize | recreate | found _ | payment1 _ | payment2 _ | payment3 _ | payment4 _ => True

end Job

section Perform
variable (K : Constants) (batch : List EventTuple)

/-- What a thread does in a job. -/
def perform : Job → Program Work Unit
  | .create => .atomic (replaceVectors (fun _ => created batch))
  | .resize => .atomic (replaceVectors (resized batch))
  | .recreate => .atomic (replaceVectors (recreated batch))
  | .found noOIdsVector =>
    (Program.atomic (readNoOIds batch)).expecting noOIdsVector (fun _ => return ())
  | .neworder12 pos param o => do
    let dNextOId ← onTables (neworderSubTxn1 param)
    assign .dNextOIdVector pos dNextOId
    (elementAt .dNextOIdVector pos).expecting o (fun o => onTables (neworderSubTxn2 K param o))
  | .neworder3 pos param => neworder3 K pos param
  | .neworder4 pos param i => neworder4 pos param i
  | .neworder5 pos param i => neworder5 pos param i
  | .neworder6 pos param o => (elementAt .dNextOIdVector pos).expecting o (fun o => do
    -- the order has no lines yet
    let lines ← onTables (selectRecords (C := tpcc) (.orderLine (K.offset param.wId param.dId))
      (o, param.dId, param.wId))
    Program.assert (lines = [])
    neworder6 K pos param o)
  | .delivery1 pos param d => delivery1 K pos param d
  | .delivery2 pos param d o =>
    (elementAt (.noOIdsVector pos) d.toNat).expecting o (fun o => delivery2 K pos param d o)
  | .delivery3 pos param d o =>
    (elementAt (.noOIdsVector pos) d.toNat).expecting o (fun o => delivery3 K pos param d o)
  | .delivery4 pos param d => delivery4 pos param d
  | .payment1 param => onTables (paymentSubTxn1 param)
  | .payment2 param => onTables (paymentSubTxn2 param)
  | .payment3 param => Program.onFst (paymentSubTxn3 param)
  | .payment4 param => onTables (paymentSubTxn4 param)

end Perform

abbrev WorkPlace := (TablePlace ⊕ Unit) ⊕ (Vec × ℕ)

abbrev workPlaces : Places Work WorkPlace :=
  (tablePlaces.prod (.whole Rand)).prod (.vectors Element)

inductive Reads : Job → WorkPlace → Prop
  | dNextOId3 {pos param} : Reads (.neworder3 pos param) (.inr (.dNextOIdVector, pos))
  | item {pos param i} (k : ℤ) : Reads (.neworder5 pos param i) (.inl (.inl (.row .item k ())))
  | dNextOId6 {pos param o} : Reads (.neworder6 pos param o) (.inr (.dNextOIdVector, pos))
  | sDist {pos param o} (i : ℕ) : Reads (.neworder6 pos param o) (.inr (.sDistsVector pos, i))
  | olAmount {pos param o} (i : ℕ) : Reads (.neworder6 pos param o) (.inr (.olAmountsVector pos, i))
  | noOId2 {pos param d o} : Reads (.delivery2 pos param d o) (.inr (.noOIdsVector pos, d.toNat))
  | lines {pos param d o g} (off : ℕ) (hg : g = (o, d, param.wId)) :
      Reads (.delivery2 pos param d o) (.inl (.inl (.group (.orderLine off) g)))
  | noOId3 {pos param d o} : Reads (.delivery3 pos param d o) (.inr (.noOIdsVector pos, d.toNat))
  | sum {pos param d} : Reads (.delivery4 pos param d) (.inr (.sumsVector pos, d.toNat))
  | cId {pos param d} : Reads (.delivery4 pos param d) (.inr (.cIdsVector pos, d.toNat))
  | noOIds {v} (pos i : ℕ) : Reads (.found v) (.inr (.noOIdsVector pos, i))

inductive Writes : Job → WorkPlace → Prop
  | create (vec : Vec) (i : ℕ) : Writes .create (.inr (vec, i))
  | resize (i : ℕ) : Writes .resize (.inr (.dNextOIdVector, i))
  | newCIds (pos i : ℕ) : Writes .recreate (.inr (.cIdsVector pos, i))
  | newSums (pos i : ℕ) : Writes .recreate (.inr (.sumsVector pos, i))
  | district {pos param o k} (hk : k = (param.dId, param.wId)) :
      Writes (.neworder12 pos param o) (.inl (.inl (.row .district k .rest)))
  | order {pos param o k} (off : ℕ) (hk : k = (o, param.dId, param.wId)) :
      Writes (.neworder12 pos param o) (.inl (.inl (.row (.order off) k ())))
  | dNextOId {pos param o} : Writes (.neworder12 pos param o) (.inr (.dNextOIdVector, pos))
  | waiting {pos param k} (off : ℕ) (o : ℤ) (hk : k = (o, param.dId, param.wId)) :
      Writes (.neworder3 pos param) (.inl (.inl (.row (.newOrder off) k ())))
  | stock {pos param i k} (hk : k = ((param.iIds[i]?).getD 0, (param.iWIds[i]?).getD 0)) :
      Writes (.neworder4 pos param i) (.inl (.inl (.row .stock k ())))
  | sDist {pos param i} : Writes (.neworder4 pos param i) (.inr (.sDistsVector pos, i))
  | olAmount {pos param i} : Writes (.neworder5 pos param i) (.inr (.olAmountsVector pos, i))
  | lines {pos param o g} (off : ℕ) (hg : g = (o, param.dId, param.wId)) :
      Writes (.neworder6 pos param o) (.inl (.inl (.group (.orderLine off) g)))
  | line {pos param o k} (off : ℕ) (i : ℤ) (hk : k = (o, param.dId, param.wId, i)) :
      Writes (.neworder6 pos param o) (.inl (.inl (.row (.orderLine off) k ())))
  | pointer {pos param d k} (hk : k = (param.wId, d)) :
      Writes (.delivery1 pos param d) (.inl (.inl (.row .districtNewOrder k ())))
  | taken {pos param d k} (off : ℕ) (o : ℤ) (hk : k = (o, d, param.wId)) :
      Writes (.delivery1 pos param d) (.inl (.inl (.row (.newOrder off) k ())))
  | noOId {pos param d} : Writes (.delivery1 pos param d) (.inr (.noOIdsVector pos, d.toNat))
  | marked {pos param d o k} (off : ℕ) (i : ℤ) (hk : k = (o, d, param.wId, i)) :
      Writes (.delivery2 pos param d o) (.inl (.inl (.row (.orderLine off) k ())))
  | sum {pos param d o} : Writes (.delivery2 pos param d o) (.inr (.sumsVector pos, d.toNat))
  | carried {pos param d o k} (off : ℕ) (hk : k = (o, d, param.wId)) :
      Writes (.delivery3 pos param d o) (.inl (.inl (.row (.order off) k ())))
  | cId {pos param d o} : Writes (.delivery3 pos param d o) (.inr (.cIdsVector pos, d.toNat))
  | credited {pos param d k} (c : ℤ) (hk : k = (c, d, param.wId)) :
      Writes (.delivery4 pos param d) (.inl (.inl (.row .customer k ())))
  | wYtd {param k} (hk : k = param.wId) :
      Writes (.payment1 param) (.inl (.inl (.row .warehouse k ())))
  | dYtd {param k} (hk : k = (param.dId, param.wId)) :
      Writes (.payment2 param) (.inl (.inl (.row .district k .ytd)))
  | history {param} : Writes (.payment3 param) (.inl (.inl (.heap .history)))
  | draws {param} : Writes (.payment3 param) (.inl (.inr ()))
  | charged {param k} (hk : k = (param.cId, param.dId, param.wId)) :
      Writes (.payment4 param) (.inl (.inl (.row .customer k ())))

def jobFoot (job : Job) : Footprint WorkPlace := ⟨{l | Reads job l}, {l | Writes job l}⟩

variable {K : Constants} {P : ScaleParams} {batch : List EventTuple} {f : Footprint WorkPlace}

/-- The tables in a footprint. -/
def tableFoot (f : Footprint WorkPlace) : Footprint TablePlace :=
  ⟨{l | .inl (.inl l) ∈ f.reads}, {l | .inl (.inl l) ∈ f.writes}⟩

theorem onTables_within {α : Type} {p : Program Tables α} (h : p.Within tablePlaces (tableFoot f)) :
    (onTables p).Within workPlaces f := by
  have hfst : p.onFst.Within (tablePlaces.prod (.whole Rand))
      ⟨{l | .inl l ∈ f.reads}, {l | .inl l ∈ f.writes}⟩ := h.onFst (fun _ h => h) (fun _ h => h)
  exact hfst.onFst (fun _ h => h) (fun _ h => h)

theorem elementAt_within {vec : Vec} {i : ℕ} (h : .inr (vec, i) ∈ f.touches) :
    (elementAt vec i).Within workPlaces f := by
  have hread : (Program.readAt (V := Element) vec i).Within (.vectors Element)
      ⟨{l | .inr l ∈ f.reads}, {l | .inr l ∈ f.writes}⟩ := Program.readAt_within h
  exact hread.onSnd (fun _ h => h) (fun _ h => h)

theorem assign_within {vec : Vec} {i : ℕ} {x : Element vec} (h : .inr (vec, i) ∈ f.writes) :
    (assign vec i x).Within workPlaces f := by
  have hwrite : (Program.writeAt (V := Element) vec i x).Within (.vectors Element)
      ⟨{l | .inr l ∈ f.reads}, {l | .inr l ∈ f.writes}⟩ := Program.writeAt_within h
  exact hwrite.onSnd (fun _ h => h) (fun _ h => h)

private theorem passed_within {vec : Vec} (h : ∀ i, .inr (vec, i) ∈ f.reads) :
    (passed vec).Within workPlaces f := by
  have hread : (Program.readVector (V := Element) vec).Within (.vectors Element)
      ⟨{l | .inr l ∈ f.reads}, {l | .inr l ∈ f.writes}⟩ :=
    Program.readVector_within (fun i => Or.inl (h i))
  exact hread.onSnd (fun _ h => h) (fun _ h => h)

/-- New vectors in the place of those that may be written. -/
theorem replaceVectors_within {new : Vectors → Vectors}
    (hother : ∀ v vec i, .inr (vec, i) ∉ f.writes → new v vec = v vec)
    (hnew : ∀ v v' vec i, .inr (vec, i) ∈ f.writes → new v vec = new v' vec)
    (honly : ∀ l, .inl l ∉ f.writes) : (replaceVectors new).Within workPlaces f := by
  refine ⟨fun {w a w'} hrun l hl => ?_, fun {w u a w'} hagree hrun => ?_⟩
  · cases hrun
    rcases l with l | ⟨vec, i⟩
    · exact (tablePlaces.prod (.whole Rand)).refl
    · exact congrArg (fun l : List (Element vec) => l[i]?) (hother w.2 vec i hl).symm
  · cases hrun
    refine ⟨_, rfl, fun l hl => ?_⟩
    rcases l with l | ⟨vec, i⟩
    · exact absurd hl (honly l)
    · exact congrArg (fun l : List (Element vec) => l[i]?) (hnew w.2 u.2 vec i hl)

theorem created_within :
    (replaceVectors (fun _ => created batch)).Within workPlaces (jobFoot .create) := by
  refine replaceVectors_within (fun v vec i h => ?_) (fun _ _ _ _ _ => rfl) (fun l h => ?_)
  · exact absurd (Writes.create vec i) h
  · cases (h : Writes .create (.inl l))

theorem resized_within : (replaceVectors (resized batch)).Within workPlaces (jobFoot .resize) := by
  refine replaceVectors_within (fun v vec i h => ?_) (fun v v' vec i h => ?_) (fun l h => ?_)
  · cases vec with
    | dNextOIdVector => exact absurd (Writes.resize i) h
    | _ => rfl
  · cases (h : Writes .resize (.inr (vec, i)))
    rfl
  · cases (h : Writes .resize (.inl l))

theorem recreated_within :
    (replaceVectors (recreated batch)).Within workPlaces (jobFoot .recreate) := by
  refine replaceVectors_within (fun v vec i h => ?_) (fun v v' vec i h => ?_) (fun l h => ?_)
  · cases vec with
    | cIdsVector pos => exact absurd (Writes.newCIds pos i) h
    | sumsVector pos => exact absurd (Writes.newSums pos i) h
    | _ => rfl
  · cases (h : Writes .recreate (.inr (vec, i))) <;> rfl
  · cases (h : Writes .recreate (.inl l))

theorem readNoOIds_within {v : List (List ℤ)} :
    (readNoOIds batch).Within workPlaces (jobFoot (.found v)) := by
  refine .look (g := fun w : Work => some (noOIdsVector batch w.2)) (fun {w u} hagree => ?_)
  refine congrArg some (List.map_congr_left (fun pos _ => List.ext_getElem? (fun i => ?_)))
  exact hagree (.inr (.noOIdsVector pos, i)) (Or.inl (.noOIds pos i))

theorem neworder2_within {pos : ℕ} {param : NewOrderParam} {o : ℤ} :
    (onTables (neworderSubTxn2 K param o)).Within workPlaces (jobFoot (.neworder12 pos param o)) :=
  onTables_within (neworderSubTxn2_within (.order _ rfl))

theorem neworder1_within {pos : ℕ} {param : NewOrderParam} {o : ℤ} :
    (onTables (neworderSubTxn1 param)).Within workPlaces (jobFoot (.neworder12 pos param o)) :=
  onTables_within (neworderSubTxn1_within (.district rfl))

theorem neworder3_within {pos : ℕ} {param : NewOrderParam} :
    (neworder3 K pos param).Within workPlaces (jobFoot (.neworder3 pos param)) :=
  .bind (elementAt_within (Or.inl .dNextOId3)) (fun o =>
    onTables_within (neworderSubTxn3_within (.waiting _ o rfl)))

theorem neworder4_within {pos : ℕ} {param : NewOrderParam} {i : ℕ} :
    (neworder4 pos param i).Within workPlaces (jobFoot (.neworder4 pos param i)) :=
  .bind (onTables_within (neworderSubTxn4Single_within (fun w o hw ho => .stock (by simp [hw, ho]))))
    (fun _ => assign_within .sDist)

theorem neworder5_within {pos : ℕ} {param : NewOrderParam} {i : ℕ} :
    (neworder5 pos param i).Within workPlaces (jobFoot (.neworder5 pos param i)) :=
  .bind (onTables_within (neworderSubTxn5Single_within (fun o _ => Or.inl (.item o))))
    (fun _ => assign_within .olAmount)

theorem neworder6_within {pos : ℕ} {param : NewOrderParam} {o : ℤ} :
    (neworder6 K pos param o).Within workPlaces (jobFoot (.neworder6 pos param o)) :=
  .bind (passed_within .sDist) (fun _ => .bind (passed_within .olAmount) (fun _ =>
    onTables_within (neworderSubTxn6_within (.lines _ rfl) (fun i => .line _ i rfl))))

theorem delivery1_within {pos : ℕ} {param : DeliveryParam} {d : ℤ} :
    (delivery1 K pos param d).Within workPlaces (jobFoot (.delivery1 pos param d)) := by
  refine .bind (onTables_within (deliverySubTxn1Single_within (.pointer rfl)
    (fun o => .taken _ o rfl))) (fun found => ?_)
  cases found with
  | none => exact .pure ()
  | some o => exact assign_within .noOId

theorem delivery2_within {pos : ℕ} {param : DeliveryParam} {d o : ℤ} :
    (delivery2 K pos param d o).Within workPlaces (jobFoot (.delivery2 pos param d o)) :=
  .bind (onTables_within (deliverySubTxn2Single_within (Or.inl (.lines _ rfl))
    (fun i => .marked _ i rfl))) (fun _ => assign_within .sum)

theorem delivery3_within {pos : ℕ} {param : DeliveryParam} {d o : ℤ} :
    (delivery3 K pos param d o).Within workPlaces (jobFoot (.delivery3 pos param d o)) :=
  .bind (onTables_within (deliverySubTxn3Single_within (.carried _ rfl)))
    (fun _ => assign_within .cId)

theorem delivery4_within {pos : ℕ} {param : DeliveryParam} {d : ℤ} :
    (delivery4 pos param d).Within workPlaces (jobFoot (.delivery4 pos param d)) :=
  .bind (elementAt_within (Or.inl .sum)) (fun _ => .bind (elementAt_within (Or.inl .cId)) (fun c =>
    onTables_within (deliverySubTxn4Single_within (.credited c rfl))))

theorem payment1_within {param : PaymentParam} :
    (onTables (paymentSubTxn1 param)).Within workPlaces (jobFoot (.payment1 param)) :=
  onTables_within (paymentSubTxn1_within (.wYtd rfl))

theorem payment2_within {param : PaymentParam} :
    (onTables (paymentSubTxn2 param)).Within workPlaces (jobFoot (.payment2 param)) :=
  onTables_within (paymentSubTxn2_within (.dYtd rfl))

theorem payment3_within {param : PaymentParam} :
    (Program.onFst (paymentSubTxn3 param) : Program Work Unit).Within workPlaces
      (jobFoot (.payment3 param)) := by
  have hstate : (paymentSubTxn3 param).Within (tablePlaces.prod (.whole Rand))
      ⟨{l | Reads (.payment3 param) (.inl l)}, {l | Writes (.payment3 param) (.inl l)}⟩ :=
    paymentSubTxn3_within .history .draws
  exact hstate.onFst (fun _ h => h) (fun _ h => h)

theorem payment4_within {param : PaymentParam} :
    (onTables (paymentSubTxn4 param)).Within workPlaces (jobFoot (.payment4 param)) :=
  onTables_within (paymentSubTxn4_within (.charged rfl))

theorem perform_within (job : Job) : (perform K batch job).Within workPlaces (jobFoot job) := by
  cases job <;> simp only [perform]
  case create => exact .atomic created_within
  case resize => exact .atomic resized_within
  case recreate => exact .atomic recreated_within
  case found v =>
    refine Program.Within.expecting ?_ ?_
    · exact .atomic readNoOIds_within
    · exact .pure ()
  case neworder12 pos param o =>
    refine .bind neworder1_within (fun _ => .bind (assign_within .dNextOId) (fun _ => ?_))
    refine Program.Within.expecting ?_ ?_
    · exact elementAt_within (Or.inr .dNextOId)
    · exact neworder2_within
  case neworder3 pos param => exact neworder3_within
  case neworder4 pos param i => exact neworder4_within
  case neworder5 pos param i => exact neworder5_within
  case neworder6 pos param o =>
    refine Program.Within.expecting ?_ (.bind (onTables_within ?_) (fun _ =>
      .bind (.assert _) (fun _ => ?_)))
    · exact elementAt_within (Or.inl .dNextOId6)
    · exact selectRecords_within (Or.inr (.lines _ rfl))
    · exact neworder6_within
  case delivery1 pos param d => exact delivery1_within
  case delivery2 pos param d o =>
    refine Program.Within.expecting ?_ ?_
    · exact elementAt_within (Or.inl .noOId2)
    · exact delivery2_within
  case delivery3 pos param d o =>
    refine Program.Within.expecting ?_ ?_
    · exact elementAt_within (Or.inl .noOId3)
    · exact delivery3_within
  case delivery4 pos param d => exact delivery4_within
  case payment1 param => exact payment1_within
  case payment2 param => exact payment2_within
  case payment3 param => exact payment3_within
  case payment4 param => exact payment4_within

end ImdbD.Benchmark.TPCC.TpccBatchProcessor
