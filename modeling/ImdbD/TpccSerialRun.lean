import ImdbD.TpccPopulated

/-!
# Serial runs of valid transactions

A run is a list of transactions, each with the order in which it would walk a
map. From populated tables a run of valid transactions never fails, and each of
its steps is one of three changes of the tables.
-/
namespace ImdbD.Benchmark.TPCC
open AtomicProgram KeyedStore GuardedRun

/-- A transaction with the iteration order that its processing meets. -/
abbrev Txn := EventTuple × IterationOrder

namespace TpccSerialProcessor
variable (K : Constants)

/-- What the serial processor does with one tuple. -/
def process (order : IterationOrder) : EventTuple → Program State Unit
  | .delivery param => processDelivery K order param
  | .newOrder param => processNewOrder K param
  | .payment param => processPayment param
  | .endExecution => pure ()

def step (s : State) (txn : Txn) : Option State :=
  ((process K txn.2 txn.1).run s).map Prod.snd

end TpccSerialProcessor
open TpccSerialProcessor

/-- A transaction of which all rows exist. -/
def EventTuple.Valid (s : Tables) : EventTuple → Prop
  | .delivery param => (s.row .warehouse param.wId).isSome
  | .newOrder param => param.Valid s
  | .payment param => param.Valid s
  | .endExecution => False

/-- A transaction of which all numbers are within the scale of the database. -/
def EventTuple.InScale (P : ScaleParams) : EventTuple → Prop
  | .delivery param => 1 ≤ param.wId ∧ param.wId ≤ P.numWarehouses
  | .newOrder param => param.iIds ≠ [] ∧
    (param.iWIds.length = param.iIds.length ∧ param.iQtys.length = param.iIds.length) ∧
    P.HasDistrict param.dId param.wId ∧ (1 ≤ param.cId ∧ param.cId ≤ P.numCustomersPerDistrict) ∧
    ∀ it ∈ param.items, (1 ≤ it.iId ∧ it.iId ≤ P.numItems) ∧ 1 ≤ it.wId ∧ it.wId ≤ P.numWarehouses
  | .payment param => P.HasDistrict param.dId param.wId ∧ P.HasDistrict param.cDId param.cWId ∧
    1 ≤ param.cId ∧ param.cId ≤ P.numCustomersPerDistrict
  | .endExecution => False

instance (P : ScaleParams) (d w : ℤ) : Decidable (P.HasDistrict d w) :=
  inferInstanceAs (Decidable (_ ∧ _ ∧ _ ∧ _))

instance (P : ScaleParams) : ∀ e : EventTuple, Decidable (e.InScale P)
  | .delivery _ => inferInstanceAs (Decidable (_ ∧ _))
  | .newOrder _ => inferInstanceAs (Decidable (_ ∧ (_ ∧ _) ∧ _ ∧ (_ ∧ _) ∧ _))
  | .payment _ => inferInstanceAs (Decidable (_ ∧ _ ∧ _ ∧ _))
  | .endExecution => inferInstanceAs (Decidable False)

/-- What a transaction does to the tables. -/
def Effect (K : Constants) (s : Tables) : EventTuple → Tables → Prop
  | .delivery param, s' =>
    DeliveryStage K param s (upTo DISTRICTS_PER_WAREHOUSE) (upTo DISTRICTS_PER_WAREHOUSE)
      (upTo DISTRICTS_PER_WAREHOUSE) (upTo DISTRICTS_PER_WAREHOUSE) s'
  | .newOrder param, s' => ∃ next first, OrderBook K s param.dId param.wId next first ∧
      NewOrderStage K param s next param.iIds.length param.iIds.length s'
  | .payment param, s' => Paid param s s'
  | .endExecution, s' => s' = s

variable {K : Constants} {P : ScaleParams} {s : Tables} {t : State} {txn : Txn}

theorem Ledger.valid_iff (h : Ledger K P s) {e : EventTuple} : e.Valid s ↔ e.InScale P := by
  cases e with
  | delivery param => exact h.warehouse _
  | newOrder param =>
    simp only [EventTuple.InScale, ← h.district, ← h.item]
    constructor
    · intro hv
      refine ⟨hv.nonempty, hv.lengths, hv.district, ((h.customer _ _ _).mp hv.customer).2, ?_⟩
      intro it hit
      exact ⟨hv.item it hit, ((h.stock _ _).mp (hv.stock it hit)).2.2⟩
    · rintro ⟨hne, hlen, hd, hc, hitems⟩
      have hd' := (h.district _ _).mp hd
      refine ⟨hne, hlen, (h.warehouse _).mpr hd'.2.2, hd, (h.customer _ _ _).mpr ⟨hd', hc⟩,
        fun it hit => (hitems it hit).1, fun it hit => (h.stock _ _).mpr ?_⟩
      obtain ⟨hi, hw⟩ := hitems it hit
      obtain ⟨hi₁, hi₂⟩ := (h.item _).mp hi
      exact ⟨hi₁, hi₂, hw⟩
  | payment param =>
    constructor
    · intro hv
      exact ⟨(h.district _ _).mp hv.district, (h.customer _ _ _).mp hv.customer⟩
    · rintro ⟨hd, hc⟩
      exact ⟨(h.warehouse _).mpr hd.2.2, (h.district _ _).mpr hd, (h.customer _ _ _).mpr hc⟩
  | endExecution => rfl

theorem Ledger.deliverable (h : Ledger K P s) {w : ℤ} (hw : (s.row .warehouse w).isSome) :
    ∀ d ∈ upTo DISTRICTS_PER_WAREHOUSE, Deliverable K s w d := by
  intro d hd
  obtain ⟨hd₁, hd₂⟩ := mem_upTo.mp hd
  obtain ⟨hw₁, hw₂⟩ := (h.warehouse w).mp hw
  obtain ⟨next, first, hbook⟩ := h.book d w ⟨hd₁, hd₂, hw₁, hw₂⟩
  exact hbook.deliverable

theorem Ledger.succeeds (h : Ledger K P t.1) (hv : txn.1.Valid t.1) :
    ∃ t', step K t txn = some t' ∧ Effect K t.1 txn.1 t'.1 ∧ Ledger K P t'.1 := by
  obtain ⟨s, rand⟩ := t
  obtain ⟨e, order⟩ := txn
  have hgo : ∀ {p : Program State Unit} {Q : State → Prop},
      Program.Ensures True p (s, rand) (fun _ t' => Q t') →
      ∃ t', (p.run (s, rand)).map Prod.snd = some t' ∧ Q t' := by
    intro p Q hp
    obtain ⟨_, t', hrun, hq⟩ := hp.exists_run trivial
    exact ⟨t', by rw [hrun]; rfl, hq⟩
  cases e with
  | delivery param =>
    obtain ⟨t', hrun, -, hstage⟩ := hgo (processDelivery_spec order (h.deliverable hv))
    exact ⟨t', hrun, hstage, h.delivery hstage⟩
  | newOrder param =>
    obtain ⟨next, first, hbook, hledger⟩ := h.newOrder hv
    obtain ⟨t', hrun, -, hstage⟩ := hgo (processNewOrder_spec (hbook.orderable hv))
    exact ⟨t', hrun, ⟨next, first, hbook, hstage⟩, hledger _ hstage⟩
  | payment param =>
    obtain ⟨t', hrun, hpaid⟩ := hgo (processPayment_spec hv.warehouse hv.district (h.charged hv))
    exact ⟨t', hrun, hpaid, h.payment hpaid⟩
  | endExecution => exact hv.elim

/-- Every transaction of the run is valid when its turn comes. -/
def ValidRun (K : Constants) (t : State) (txns : List Txn) : Prop :=
  Meets (step K) (fun t txn => txn.1.Valid t.1) t txns

/-- The run succeeds, and `Q` holds before, between and after its transactions. -/
def Throughout (K : Constants) (Q : Tables → Prop) (t : State) (txns : List Txn) : Prop :=
  Q t.1 ∧ Holds (step K) (fun _ _ t' => Q t'.1) t txns

variable {txns : List Txn} {I Q : Tables → Prop} {A : EventTuple → Prop}

/-- Where effects keep `I` on a condition that `Q` forces back, `Q` holds throughout exactly the
runs whose transactions all meet the condition. `A` is known of every transaction. -/
theorem Ledger.throughout_iff {cond : EventTuple → Prop} (h : Ledger K P t.1) (hI : I t.1)
    (hkeep : ∀ s e s', Ledger K P s → I s → e.Valid s → A e → cond e → Effect K s e s' → I s')
    (hback : ∀ s e s', Ledger K P s → I s → e.Valid s → A e → Effect K s e s' → Q s' → cond e)
    (hQ : ∀ s, Ledger K P s → I s → Q s) (hA : ∀ txn ∈ txns, A txn.1) (hv : ValidRun K t txns) :
    Throughout K Q t txns ↔ ∀ txn ∈ txns, cond txn.1 := by
  induction txns generalizing t with
  | nil => simpa [Throughout, Holds] using hQ _ h hI
  | cons txn txns ih =>
    obtain ⟨t', hstep, heffect, h'⟩ := h.succeeds hv.1
    obtain ⟨ha, hall⟩ := List.forall_mem_cons.mp hA
    have hrest := fun hI' => ih h' hI' hall (hv.2 t' hstep)
    rw [List.forall_mem_cons]
    constructor
    · rintro ⟨-, u, hu, hQu, hholds⟩
      rw [hstep] at hu
      cases hu
      have hcond := hback _ _ _ h hI hv.1 ha heffect hQu
      exact ⟨hcond, (hrest (hkeep _ _ _ h hI hv.1 ha hcond heffect)).mp ⟨hQu, hholds⟩⟩
    · rintro ⟨hcond, hconds⟩
      obtain ⟨hQ', hholds⟩ := (hrest (hkeep _ _ _ h hI hv.1 ha hcond heffect)).mpr hconds
      exact ⟨hQ _ h hI, t', hstep, hQ', hholds⟩

/-- What every effect keeps holds throughout a run. -/
theorem Ledger.throughout (h : Ledger K P t.1) (hI : I t.1)
    (hkeep : ∀ s e s', Ledger K P s → I s → e.Valid s → A e → Effect K s e s' → I s')
    (hQ : ∀ s, Ledger K P s → I s → Q s) (hA : ∀ txn ∈ txns, A txn.1) (hv : ValidRun K t txns) :
    Throughout K Q t txns :=
  (h.throughout_iff hI (fun s e s' h hI hv ha _ => hkeep s e s' h hI hv ha)
    (fun _ _ _ _ _ _ _ _ _ => trivial) hQ hA hv).mpr (fun _ _ => trivial)

/-- The state that a valid run reaches. -/
theorem Ledger.reached (h : Ledger K P t.1) (hI : I t.1)
    (hkeep : ∀ s e s', Ledger K P s → I s → e.Valid s → Effect K s e s' → I s')
    (hv : ValidRun K t txns) {t' : State} (hrun : run (step K) t txns = some t') :
    Ledger K P t'.1 ∧ I t'.1 := by
  induction txns generalizing t with
  | nil =>
    cases hrun
    exact ⟨h, hI⟩
  | cons txn txns ih =>
    obtain ⟨u, hstep, heffect, h'⟩ := h.succeeds hv.1
    rw [run, hstep, Option.bind_some] at hrun
    exact ih h' (hkeep _ _ _ h hI hv.1 heffect) (hv.2 u hstep) hrun

theorem Ledger.exists_run (h : Ledger K P t.1) (hv : ValidRun K t txns) :
    ∃ t', run (step K) t txns = some t' ∧ Ledger K P t'.1 := by
  induction txns generalizing t with
  | nil => exact ⟨t, rfl, h⟩
  | cons txn txns ih =>
    obtain ⟨u, hstep, -, h'⟩ := h.succeeds hv.1
    obtain ⟨t', hrun, hledger⟩ := ih h' (hv.2 u hstep)
    exact ⟨t', by rw [run, hstep, Option.bind_some, hrun], hledger⟩

/-- What is valid depends on the scale only. -/
theorem Ledger.validRun_iff (h : Ledger K P t.1) :
    ValidRun K t txns ↔ ∀ txn ∈ txns, txn.1.InScale P := by
  induction txns generalizing t with
  | nil => simp [ValidRun, Meets]
  | cons txn txns ih =>
    have hrest : ∀ u, txn.1.Valid t.1 → step K t txn = some u →
        (Meets (step K) (fun t txn => txn.1.Valid t.1) u txns ↔ ∀ txn ∈ txns, txn.1.InScale P) := by
      intro u hv hstep
      obtain ⟨u', hstep', -, h'⟩ := h.succeeds hv
      rw [hstep] at hstep'
      cases hstep'
      exact ih h'
    rw [ValidRun, Meets, List.forall_mem_cons, ← h.valid_iff]
    constructor
    · rintro ⟨hv, hnext⟩
      obtain ⟨u, hstep, -⟩ := h.succeeds hv
      exact ⟨hv, (hrest u hv hstep).mp (hnext u hstep)⟩
    · rintro ⟨hv, hall⟩
      exact ⟨hv, fun u hstep => (hrest u hv hstep).mpr hall⟩

/-- The processor's loop over a queue is the run of its transactions. -/
theorem run_start (orders : ℕ → IterationOrder) (queue rest : List EventTuple)
    (hqueue : ∀ e ∈ queue, e ≠ .endExecution) (n : ℕ) :
    ((start K orders n (queue ++ .endExecution :: rest)).run t).map Prod.snd =
      run (step K) t (queue.zipIdx n |>.map (fun e => (e.1, orders e.2))) := by
  induction queue generalizing n t with
  | nil => rfl
  | cons e queue ih =>
    have hrest := fun t => ih (fun e' he' => hqueue e' (List.mem_cons_of_mem e he')) (n + 1) (t := t)
    cases e with
    | endExecution => exact absurd rfl (hqueue _ List.mem_cons_self)
    | delivery param =>
      simp only [List.cons_append, start, Program.run_bind, List.zipIdx_cons, List.map_cons, run,
        step, process]
      cases hp : (processDelivery K (orders n) param).run t with
      | none => rfl
      | some r => exact hrest r.2
    | newOrder param =>
      simp only [List.cons_append, start, Program.run_bind, List.zipIdx_cons, List.map_cons, run,
        step, process]
      cases hp : (processNewOrder K param).run t with
      | none => rfl
      | some r => exact hrest r.2
    | payment param =>
      simp only [List.cons_append, start, Program.run_bind, List.zipIdx_cons, List.map_cons, run,
        step, process]
      cases hp : (processPayment param).run t with
      | none => rfl
      | some r => exact hrest r.2

/-- Two warehouses of which every district has one customer. -/
def ScaleParams.small : ScaleParams where
  numWarehouses := 2
  numItems := 1
  numCustomersPerDistrict := 1
  numNewOrdersPerDistrict := 1
  newOrders_le := le_refl 1

def Constants.unpartitioned : Constants where
  kParallelism := 1
  kPartition := false
  kPartitionCnt := 1
  parallelism_pos := by decide
  partitionCnt_pos := by decide
  partitionCnt_le := by decide

def IterationOrder.listed : IterationOrder := ⟨id, fun l => .refl l⟩

/-- A remote order, a delivery and a payment of another warehouse's customer. -/
def shortRun : List Txn :=
  [(.newOrder ⟨1, 1, 1, 5, [1], [2], [3]⟩, .listed), (.delivery ⟨1, 7, 6⟩, .listed),
   (.payment ⟨1, 1, 10, 2, 1, 1, 8⟩, .listed)]

theorem exists_small : ∃ t, PopulatedState .unpartitioned .small (fun _ => 0) t :=
  exists_populatedState .unpartitioned _ (by decide) (by decide)

theorem PopulatedState.ledger {clock : Clock} (h : PopulatedState K P clock t) : Ledger K P t.1 :=
  (h.stage (C := fun _ => True) (fun _ => trivial)).ledger

theorem PopulatedState.validRun_iff {clock : Clock} (h : PopulatedState K P clock t) :
    ValidRun K t txns ↔ ∀ txn ∈ txns, txn.1.InScale P := h.ledger.validRun_iff

theorem shortRun_inScale : ∀ txn ∈ shortRun, txn.1.InScale .small := by decide

end ImdbD.Benchmark.TPCC
