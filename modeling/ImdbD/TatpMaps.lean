import ImdbD.TatpPopulated

/-!
# The maps behind the tables of TATP

What the transactions mean: call forwardings are a map from a subscriber, a
facility and a start time, and three columns of other tables are maps too. A
transaction has an effect on these maps and on nothing else.
-/
namespace ImdbD.Benchmark.TATP
open ByteMemory StorageEngine AtomicProgram RecordStore
open KeyedStore (Store)

/-- End times and numbers of call forwardings, and the last values of three columns. -/
@[ext] structure Maps where
  callForwarding : Int32 × Int8 × Int8 → Option (Int8 × Bytes)
  vlrLocation : Int32 → Option Int32
  bit1 : Int32 → Option Int8
  dataA : Int32 × Int8 → Option Int16

/-- A new value where there is one already. -/
def assign {α β : Type} [DecidableEq α] (f : α → Option β) (a : α) (b : β) : α → Option β :=
  Function.update f a ((f a).map (fun _ => b))

/-- What a transaction does. -/
inductive Effect where
  | nothing
  | deleteForwarding (sId : Int32) (sfType startTime : Int8)
  | insertForwarding (sId : Int32) (sfType startTime endTime : Int8) (numberx : Bytes)
  | setLocation (sId vlrLocation : Int32)
  | setData (sId : Int32) (bit1 : Int8) (sfType : Int8) (dataA : Int16)

/-- Deletion if present, insertion if absent, and values that are written where there is a row. -/
def Effect.apply : Effect → Maps → Maps
  | nothing, m => m
  | deleteForwarding sId sfType startTime, m =>
    { m with callForwarding := Function.update m.callForwarding (sId, sfType, startTime) none }
  | insertForwarding sId sfType startTime endTime numberx, m =>
    { m with
      callForwarding := Function.update m.callForwarding (sId, sfType, startTime)
        ((m.callForwarding (sId, sfType, startTime)).or (some (endTime, numberx))) }
  | setLocation sId vlrLocation, m => { m with vlrLocation := assign m.vlrLocation sId vlrLocation }
  | setData sId bit1 sfType dataA, m =>
    { m with bit1 := assign m.bit1 sId bit1, dataA := assign m.dataA (sId, sfType) dataA }

/-- A subscriber has a number. -/
def Carries (s : Tables) (sId : Int32) (subNbr : CString) : Prop :=
  ∃ r, s.row .subscriber (subscriberKey sId) = some r ∧ r.getColumn 1 = subNbr.read 15

/-- The effect of a tuple that names subscribers of a database. -/
inductive Denotes (s : Tables) : EventTuple → Effect → Prop
  | deleteCallForwarding {param : DeleteCallForwardingParam} {sId : Int32}
      (h : Carries s sId param.subNbr) : Denotes s (.deleteCallForwarding param)
        (.deleteForwarding sId param.sfType param.startTime)
  | getAccessData (param : GetAccessDataParam) : Denotes s (.getAccessData param) .nothing
  | getNewDestination (param : GetNewDestinationParam) :
      Denotes s (.getNewDestination param) .nothing
  | getSubscriberData (param : GetSubscriberDataParam) :
      Denotes s (.getSubscriberData param) .nothing
  | insertCallForwarding {param : InsertCallForwardingParam} {sId : Int32}
      (h : Carries s sId param.subNbr) : Denotes s (.insertCallForwarding param)
        (.insertForwarding sId param.sfType param.startTime param.endTime (param.numberx.read 15))
  | updateLocation {param : UpdateLocationParam} {sId : Int32} (h : Carries s sId param.subNbr) :
      Denotes s (.updateLocation param) (.setLocation sId param.vlrLocation)
  | updateSubscriberData (param : UpdateSubscriberDataParam) :
      Denotes s (.updateSubscriberData param)
        (.setData param.sId param.bit1 param.sfType param.dataA)

/-- The maps that the tables hold. -/
def Maps.of (K : Constants) (s : Tables) : Maps where
  callForwarding n := (s.row (.callForwarding (K.offset n.1)) (callForwardingKey n.1 n.2.1 n.2.2)).map
    (fun r => (readInt8 (r.getColumn 3), r.getColumn 4))
  vlrLocation sId := (s.row .subscriber (subscriberKey sId)).map (fun r => readInt32 (r.getColumn 33))
  bit1 sId := (s.row .subscriber (subscriberKey sId)).map (fun r => readInt8 (r.getColumn 2))
  dataA n := (s.row (.specialFacility (K.offset n.1)) (typeKey n.1 n.2)).map
    (fun r => readInt16 (r.getColumn 4))

/-- The columns that are written after the population. -/
def written : TableId → List ℕ
  | .subscriber => [2, 33]
  | .specialFacility _ => [4]
  | .accessInfo _ | .callForwarding _ => []

def SameBut {S : BuiltSchema} (cols : List ℕ) (r r' : Record S) : Prop :=
  ∀ c < S.schema.columnCount, c ∉ cols → r'.getColumn c = r.getColumn c

/-- Outside the call forwardings the rows stay, with all columns that are not written. -/
structure Kept (s s' : Tables) : Prop where
  row : ∀ id, (∀ off, id ≠ .callForwarding off) → ∀ k,
    Option.Rel (SameBut (written id)) (s.row id k) (s'.row id k)
  groups : s'.groups = s.groups

/-- Every row has a name, and lies where its name says. -/
def Routed (K : Constants) (s : Tables) : Prop :=
  ∀ id k r, s.row id k = some r → r.primaryKey = some k ∧ ∃ n : RowName, n.place K = ⟨id, k⟩

variable {K : Constants} {s s' s'' : Tables} {n : RowName}

theorem SameBut.refl {S : BuiltSchema} {cols : List ℕ} (r : Record S) : SameBut cols r r :=
  fun _ _ _ => rfl

theorem SameBut.trans {S : BuiltSchema} {cols : List ℕ} {r r' r'' : Record S}
    (h : SameBut cols r r') (h' : SameBut cols r' r'') : SameBut cols r r'' :=
  fun c hc hcols => (h' c hc hcols).trans (h c hc hcols)

theorem SameBut.setColumn {S : BuiltSchema} {cols : List ℕ} {c : ℕ} (hlt : c < S.schema.columnCount)
    (hc : c ∈ cols) (r : Record S) (value : Bytes) : SameBut cols r (r.setColumn c value) :=
  fun _ hc' hcols => r.getColumn_setColumn_ne hlt hc' (ne_of_mem_of_not_mem hc hcols) value

theorem Kept.refl (s : Tables) : Kept s s where
  row id _ k := by
    cases s.row id k with
    | none => exact .none
    | some r => exact .some (.refl r)
  groups := rfl

theorem Kept.trans (h : Kept s s') (h' : Kept s' s'') : Kept s s'' where
  row id hid k := by
    have hrow := h.row id hid k
    have hrow' := h'.row id hid k
    generalize s.row id k = o at hrow
    generalize s'.row id k = o' at hrow hrow'
    generalize s''.row id k = o'' at hrow'
    cases hrow with
    | none =>
      cases hrow'
      exact .none
    | some hab =>
      cases hrow' with
      | some hbc => exact .some (hab.trans hbc)
  groups := h'.groups.trans h.groups

theorem Kept.of_callForwarding (h : ∀ id, (∀ off, id ≠ .callForwarding off) → s'.row id = s.row id)
    (hgroups : s'.groups = s.groups) : Kept s s' where
  row id hid k := by
    rw [h id hid]
    exact (Kept.refl s).row id hid k
  groups := hgroups

theorem Kept.changeRow (s : Tables) {id : TableId} (k : Bytes)
    {change : Record (layout id).schema → Record (layout id).schema}
    (hchange : ∀ r, SameBut (written id) r (change r)) : Kept s (s.changeRow id k change) where
  row id' hid' k' := by
    by_cases he : (⟨id', k'⟩ : Σ _ : TableId, Bytes) = ⟨id, k⟩
    · cases he
      rw [Store.row_changeRow_self]
      cases s.row id k with
      | none => exact .none
      | some r => exact .some (hchange r)
    · rw [Store.row_changeRow_of_ne s he]
      exact (Kept.refl s).row id' hid' k'
  groups := Store.groups_changeRow s

theorem Kept.isSome_row (h : Kept s s') {id : TableId} (hid : ∀ off, id ≠ .callForwarding off)
    {k : Bytes} : (s.row id k).isSome = (s'.row id k).isSome := by
  have hrow := h.row id hid k
  generalize s.row id k = o at hrow
  generalize s'.row id k = o' at hrow
  cases hrow <;> rfl

/-- The subscriber that is found for a number stays the same. -/
theorem Kept.subscriberId (h : Kept s s') (subNbr : CString) :
    subscriberId s' subNbr = subscriberId s subNbr := by
  unfold TATP.subscriberId
  rw [h.groups]
  split
  · rename_i k _
    have hrow := h.row .subscriber (fun _ => nofun) k
    generalize s.row .subscriber k = o at hrow
    generalize s'.row .subscriber k = o' at hrow
    cases hrow with
    | none => rfl
    | some hcols => exact congrArg (fun b => some (readInt32 b)) (hcols 0 (by decide) (by decide))
  · rfl

theorem Routed.eraseRow (h : Routed K s) (id : TableId) (k : Bytes) : Routed K (s.eraseRow id k) := by
  intro id' k' r hr
  by_cases he : (⟨id', k'⟩ : Σ _ : TableId, Bytes) = ⟨id, k⟩
  · cases he
    rw [Store.row_eraseRow_self] at hr
    cases hr
  · rw [Store.row_eraseRow_of_ne s he] at hr
    exact h id' k' r hr

theorem Routed.setRow (h : Routed K s) {id : TableId} {k : Bytes} {r : Record (layout id).schema}
    (hn : n.place K = ⟨id, k⟩) (hk : r.primaryKey = some k) : Routed K (s.setRow id k r) := by
  intro id' k' r' hr'
  by_cases he : (⟨id', k'⟩ : Σ _ : TableId, Bytes) = ⟨id, k⟩
  · cases he
    rw [Store.row_setRow_self] at hr'
    cases hr'
    exact ⟨hk, n, hn⟩
  · rw [Store.row_setRow_of_ne s r he] at hr'
    exact h id' k' r' hr'

/-- The written columns do not belong to the keys. -/
theorem primaryKey_of_sameBut {id : TableId} {r r' : Record (layout id).schema}
    (h : SameBut (written id) r r') : r'.primaryKey = r.primaryKey := by
  have hcols : ∀ c ∈ (layout id).schema.schema.primaryCols,
      c < (layout id).schema.schema.columnCount ∧ c ∉ written id := by
    cases id with
    | subscriber => exact (by decide : ∀ c ∈ TatpSchema.getSubscriberSchema.schema.primaryCols,
        c < TatpSchema.getSubscriberSchema.schema.columnCount ∧ c ∉ [2, 33])
    | accessInfo off => exact (by decide : ∀ c ∈ TatpSchema.getAccessInfoSchema.schema.primaryCols,
        c < TatpSchema.getAccessInfoSchema.schema.columnCount ∧ c ∉ [])
    | specialFacility off =>
      exact (by decide : ∀ c ∈ TatpSchema.getSpecialFacilitySchema.schema.primaryCols,
        c < TatpSchema.getSpecialFacilitySchema.schema.columnCount ∧ c ∉ [4])
    | callForwarding off =>
      exact (by decide : ∀ c ∈ TatpSchema.getCallForwardingSchema.schema.primaryCols,
        c < TatpSchema.getCallForwardingSchema.schema.columnCount ∧ c ∉ [])
  exact Record.primaryKey_congr (layout_keyed id).length
    (fun c hc => h c (hcols c hc).1 (hcols c hc).2)

theorem Routed.changeRow (h : Routed K s) {id : TableId} (k : Bytes)
    {change : Record (layout id).schema → Record (layout id).schema}
    (hchange : ∀ r, SameBut (written id) r (change r)) : Routed K (s.changeRow id k change) := by
  intro id' k' r' hr'
  by_cases he : (⟨id', k'⟩ : Σ _ : TableId, Bytes) = ⟨id, k⟩
  · cases he
    rw [Store.row_changeRow_self] at hr'
    obtain ⟨r, hr, rfl⟩ := Option.map_eq_some_iff.mp hr'
    rw [primaryKey_of_sameBut (hchange r)]
    exact h id k r hr
  · rw [Store.row_changeRow_of_ne s he] at hr'
    exact h id' k' r' hr'

/-- The rows of all other names stay. -/
def Elsewhere (K : Constants) (n : RowName) (s s' : Tables) : Prop :=
  ∀ n' ≠ n, s'.row (n'.table K) n'.key = s.row (n'.table K) n'.key

theorem place_ne {n' : RowName} (h : n' ≠ n) :
    (⟨n'.table K, n'.key⟩ : Σ _ : TableId, Bytes) ≠ ⟨n.table K, n.key⟩ :=
  fun he => h (RowName.place_injective K he)

theorem elsewhere_eraseRow (s : Tables) : Elsewhere K n s (s.eraseRow (n.table K) n.key) :=
  fun _ h => Store.row_eraseRow_of_ne s (place_ne h)

theorem elsewhere_setRow (s : Tables) (r : Record (layout (n.table K)).schema) :
    Elsewhere K n s (s.setRow (n.table K) n.key r) :=
  fun _ h => Store.row_setRow_of_ne s r (place_ne h)

theorem elsewhere_changeRow (s : Tables)
    (change : Record (layout (n.table K)).schema → Record (layout (n.table K)).schema) :
    Elsewhere K n s (s.changeRow (n.table K) n.key change) :=
  fun _ h => Store.row_changeRow_of_ne s (place_ne h)

namespace Elsewhere
variable (h : Elsewhere K n s s')
include h

theorem callForwarding {a : Int32 × Int8 × Int8} (ha : .callForwarding a.1 a.2.1 a.2.2 ≠ n) :
    (Maps.of K s').callForwarding a = (Maps.of K s).callForwarding a :=
  congrArg (Option.map _) (h _ ha)

theorem vlrLocation {a : Int32} (ha : .subscriber a ≠ n) :
    (Maps.of K s').vlrLocation a = (Maps.of K s).vlrLocation a :=
  congrArg (Option.map _) (h _ ha)

theorem bit1 {a : Int32} (ha : .subscriber a ≠ n) : (Maps.of K s').bit1 a = (Maps.of K s).bit1 a :=
  congrArg (Option.map _) (h _ ha)

theorem dataA {a : Int32 × Int8} (ha : .specialFacility a.1 a.2 ≠ n) :
    (Maps.of K s').dataA a = (Maps.of K s).dataA a :=
  congrArg (Option.map _) (h _ ha)

end Elsewhere

end ImdbD.Benchmark.TATP
