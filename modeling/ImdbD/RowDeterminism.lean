import ImdbD.TpccRecordBytes
import ImdbD.TatpProcedures
import ImdbD.RecordFootprint

/-!
# Whether inserted rows depend on what the memory held

One transaction is executed from one database with different leftovers: the old
contents of new record buffers and the memory behind local variables.
-/
namespace ImdbD.StorageEngine.RecordStore
open AtomicProgram KeyedStore ByteMemory
variable {ι : Type} [DecidableEq ι] {L : ι → TableLayout} {id : ι} {k : Bytes} {s t : RecordStore L}

private theorem agree_setRow (r r' : Record (L id).schema) :
    ∀ l, l ≠ .row id k () → (places L).Agree l (s.setRow id k r) (s.setRow id k r') := by
  intro l hl
  cases l with
  | row id' k' _ =>
    have hne : (⟨id', k'⟩ : Σ id, Bytes) ≠ ⟨id, k⟩ := by
      intro he
      cases he
      exact hl rfl
    change Option.map _ _ = Option.map _ _
    rw [Store.row_setRow_of_ne _ _ hne, Store.row_setRow_of_ne _ _ hne]
  | group id' g => rfl
  | heap id' => rfl

/-- One store cannot keep two different rows. -/
theorem row_unique {r r' : Record (L id).schema}
    (h : (places L).Agree (.row id k ()) (s.setRow id k r) t)
    (h' : (places L).Agree (.row id k ()) (s.setRow id k r') t) : r = r' := by
  have hrow := (row_of_agree h).trans (row_of_agree h').symm
  rw [Store.row_setRow_self, Store.row_setRow_self] at hrow
  exact Option.some.inj hrow

private theorem last_unique {r r' : Record (L id).schema}
    (h : (places L).Agree (.heap id) (s.append id r) t)
    (h' : (places L).Agree (.heap id) (s.append id r') t) : r = r' := by
  have hheap : (s.append id r).heap id = (s.append id r').heap id := h.trans h'.symm
  rw [Store.heap_append_self, Store.heap_append_self] at hheap
  exact List.singleton_inj.mp (List.append_cancel_left hheap)

private theorem agree_append (r r' : Record (L id).schema) :
    ∀ l, l ≠ .heap id → (places L).Agree l (s.append id r) (s.append id r') := by
  intro l hl
  cases l with
  | row id' k' _ => rfl
  | group id' g => rfl
  | heap id' =>
    have hne : id' ≠ id := fun he => hl (he ▸ rfl)
    change (s.append id r).heap id' = (s.append id r').heap id'
    rw [Store.heap_append_other _ _ hne, Store.heap_append_other _ _ hne]

end ImdbD.StorageEngine.RecordStore

namespace ImdbD.Benchmark
open ByteMemory StorageEngine AtomicProgram RecordStore
open KeyedStore (Store Place)

/-- What is reached does not depend on the leftovers. -/
def Determined {μ τ : Type} (execute : μ → Option τ) : Prop := ∀ m m', execute m = execute m'

namespace TPCC.RecordBytes
variable (K : Constants) (F : DoubleFormat)

/-- The tables after a new order. -/
def executeNewOrder (param : NewOrderParam) (s : RecordStore layout) (leftover : Leftover) :
    Option (RecordStore layout) :=
  ((processNewOrder (manager layout) K F leftover param).run s).map Prod.snd

/-- The tables and the remaining draws after a payment. -/
def executePayment (param : PaymentParam) (s : RecordStore layout × Rand) (leftover : Leftover) :
    Option (RecordStore layout × Rand) :=
  ((processPayment (manager layout) F leftover param).run s).map Prod.snd

section NewOrder
variable {K F} {leftover leftover' : Leftover} {param : NewOrderParam} {o : ℤ}

private theorem primaryKey_orderRecord :
    (orderRecord leftover param o).primaryKey = (orderRecord leftover' param o).primaryKey := by
  refine Record.primaryKey_congr (by decide) (fun c hc => ?_)
  have hvalue : ∃ value, (∀ m, (c, value) ∈ orderColumns m param o) ∧
      value.length = TpccSchema.getOrderSchema.schema.getColumnSize c := by
    have hc' : c ∈ [0, 2, 3] := hc
    simp only [List.mem_cons, List.not_mem_nil, or_false] at hc'
    obtain rfl | rfl | rfl := hc'
    · exact ⟨intBytes 4 o, fun _ => by simp [orderColumns], intBytes_length 4 o⟩
    · exact ⟨intBytes 4 param.dId, fun _ => by simp [orderColumns], intBytes_length 4 _⟩
    · exact ⟨intBytes 4 param.wId, fun _ => by simp [orderColumns], intBytes_length 4 _⟩
  obtain ⟨value, hmem, hsize⟩ := hvalue
  rw [getColumn_orderRecord (hmem _) hsize, getColumn_orderRecord (hmem _) hsize]

/-- What follows the insertion of the order; it does not look at the memory behind `all_local`. -/
def afterOrder (K : Constants) (F : DoubleFormat) (leftover : Leftover) (param : NewOrderParam)
    (dNextOId : ℤ) : Program (RecordStore layout) Unit := do
  neworderSubTxn3 (manager layout) K leftover param dNextOId
  let sDists ← neworderSubTxn4 (manager layout) param
  let olAmounts ← neworderSubTxn5 (manager layout) F param
  neworderSubTxn6 (manager layout) K leftover param dNextOId sDists olAmounts

variable {off : ℕ} {k : Bytes} {f : Footprint (RecordPlace layout)}

private theorem primaryKey_newOrderRecord (r : Record TpccSchema.getNewOrderSchema) :
    r.primaryKey = some ([0, 1, 2].flatMap r.getColumn) :=
  Record.primaryKey_eq r (by decide) (by decide)

private theorem primaryKey_orderLineRecord (r : Record TpccSchema.getOrderLineSchema) :
    r.primaryKey = some ([0, 1, 2, 3].flatMap r.getColumn) :=
  Record.primaryKey_eq r (by decide) (by decide)

theorem neworderSubTxn4Single_within {i : ℕ} (h : ∀ k, .row .stock k () ∈ f.writes) :
    (neworderSubTxn4Single (manager layout) param i).Within (places layout) f := by
  have ht : ∀ k, .row .stock k () ∈ f.touches := fun k => Or.inr (h k)
  refine .bind (.fetch _) (fun olSupplyWId => .bind (.fetch _) (fun olIId => .bind (.fetch _)
    (fun olQuantity => .bind (selectRecord_within rfl (ht _)) (fun stockRecord =>
      .bind (.fetch _) (fun record => .bind (getColumn_within (ht _)) (fun quantity =>
        .bind (getColumn_within (ht _)) (fun ytd => .bind (getColumn_within (ht _))
          (fun orderCnt => .bind (updateRecord_within (h _)) (fun _ => ?_)))))))))
  have hdist : ∀ c, (do
      Program.assert (decide (c < TpccSchema.getStockSchema.schema.columnCount))
      let sDist ← (manager layout).getColumn record c
      return sDist.takeWhile (fun b => b ≠ 0) : Program _ _).Within (places layout) f :=
    fun c => .bind (.assert _) (fun _ => .bind (getColumn_within (ht _)) (fun _ => .pure _))
  exact .ite (.bind (getColumn_within (ht _)) (fun _ => .bind (updateRecord_within (h _))
    (fun _ => hdist _))) (hdist _)

theorem neworderSubTxn5Single_within {i : ℕ} (h : ∀ k, .row .item k () ∈ f.touches) :
    (neworderSubTxn5Single (manager layout) F param i).Within (places layout) f :=
  .bind (.fetch _) (fun _ => .bind (selectRecord_within rfl (h _)) (fun _ =>
    .bind (.fetch _) (fun _ => .bind (.fetch _) (fun _ =>
      .bind (getColumn_within (h _)) (fun _ => .pure _)))))

theorem neworderSubTxn6_within {sDists olAmounts : List Bytes}
    (h : ∀ off k, .row (.orderLine off) k () ∈ f.writes)
    (hgroup : ∀ off g, .group (.orderLine off) g ∈ f.writes) :
    (neworderSubTxn6 (manager layout) K leftover param o sDists olAmounts).Within (places layout) f :=
  .each (fun _ _ => .bind (.fetch _) (fun _ => .bind (.fetch _) (fun _ => .bind (.fetch _) (fun _ =>
    .bind (.fetch _) (fun _ => .bind (.fetch _) (fun _ =>
      insertRecord_within (primaryKey_orderLineRecord _) (h _ _)
        (fun _ _ => hgroup _ _)))))))

/-- After the order was inserted its row is left alone. -/
theorem afterOrder_within : (afterOrder K F leftover param o).Within (places layout)
    (.except (.row (.order off) k ())) := by
  refine .bind ?_ (fun _ => .bind ?_ (fun _ => .bind ?_ (fun _ => ?_)))
  · exact insertRecord_within (primaryKey_newOrderRecord _) (Footprint.mem_except (by simp))
      (fun _ hcols => (nomatch hcols))
  · exact .collect (fun _ _ => neworderSubTxn4Single_within
      (fun k => Footprint.mem_except (by simp)))
  · exact .collect (fun _ _ => neworderSubTxn5Single_within
      (fun k => Or.inr (Footprint.mem_except (by simp))))
  · exact neworderSubTxn6_within (fun off k => Footprint.mem_except (by simp))
      (fun off g => Footprint.mem_except (by simp))

theorem newOrder_not_determined {s : RecordStore layout}
    (h : ∃ leftover, (executeNewOrder K F param s leftover).isSome) :
    ¬Determined (executeNewOrder K F param s) := by
  obtain ⟨leftover, hsome⟩ := h
  obtain ⟨t, ht⟩ := Option.isSome_iff_exists.mp hsome
  obtain ⟨⟨_, t⟩, hrun, rfl⟩ := Option.map_eq_some_iff.mp ht
  obtain ⟨o, s₁, h₁, hrun⟩ := Program.run_bind_eq_some.mp hrun
  obtain ⟨_, s₂, h₂, hrun⟩ := Program.run_bind_eq_some.mp hrun
  let leftover' : Leftover := { leftover with beside := fun i => leftover.beside i + 1 }
  obtain ⟨k, hk⟩ : ∃ k, (orderRecord leftover param o).primaryKey = some k :=
    ⟨_, Record.primaryKey_eq _ (by decide) (by decide)⟩
  obtain ⟨hnone, rfl⟩ := run_insertRecord_cases hk rfl h₂
  have hk' : (orderRecord leftover' param o).primaryKey = some k := primaryKey_orderRecord.trans hk
  have h₂' := run_insertRecord hk' rfl hnone
  obtain ⟨t', hrun', hrow, hrow'⟩ := afterOrder_within.differ (agree_setRow _ _) hrun
  have hexecute : executeNewOrder K F param s leftover' = some t' := by
    have hall : (processNewOrder (manager layout) K F leftover' param).run s = some ((), t') :=
      Program.run_bind_eq_some.mpr ⟨o, s₁, h₁, Program.run_bind_eq_some.mpr ⟨_, _, h₂', hrun'⟩⟩
    rw [executeNewOrder, hall]
    rfl
  intro hdetermined
  have heq := hdetermined leftover leftover'
  rw [ht, hexecute] at heq
  cases heq
  have hrecord : orderRecord leftover param o = orderRecord leftover' param o :=
    row_unique hrow hrow'
  have hbytes := congrArg (fun r => r.getColumn 7) hrecord
  simp only [getColumn_allLocal, List.append_cancel_left_eq] at hbytes
  have hbyte := read_inj.mp hbytes 0 (by decide)
  simp [leftover'] at hbyte

end NewOrder

section Payment
variable {F} {leftover leftover' : Leftover} {param : PaymentParam} {hData : String}

private theorem writes_historyColumns :
    Record.Writes TpccSchema.getHistorySchema (historyColumns F param hData) := by
  refine ⟨?_, ?_⟩ <;> simp only [historyColumns, List.map_cons, List.map_nil] <;> decide

theorem primaryKey_historyRecord (r : Record TpccSchema.getHistorySchema) : r.primaryKey = none :=
  if_pos rfl

private theorem getColumn_hData : (historyRecord F leftover param hData).getColumn 7 =
    (textBytes hData).take 32 ++
      ((Record.fresh TpccSchema.getHistorySchema (leftover.buffer 0)).getColumn 7).drop
        (textBytes hData).length :=
  Record.getColumn_setColumns writes_historyColumns (by simp [historyColumns])

/-- What follows the insertion of the history row. -/
theorem paymentSubTxn4_within :
    (paymentSubTxn4 (manager layout) F param).Within (places layout) (.except (.heap .history)) := by
  have hw : ∀ k, .row .customer k () ∈ (Footprint.except (.heap .history) :
      Footprint (RecordPlace layout)).writes := fun k => Footprint.mem_except (by simp)
  exact .bind (selectRecord_within rfl (Or.inr (hw _))) (fun _ => .bind (.fetch _) (fun _ =>
    .bind (getColumn_within (Or.inr (hw _))) (fun _ => .bind (getColumn_within (Or.inr (hw _)))
      (fun _ => .bind (getColumn_within (Or.inr (hw _))) (fun _ => updateRecord_within (hw _))))))

theorem payment_not_determined {s : RecordStore layout × Rand}
    (h : ∃ leftover, (executePayment F param s leftover).isSome) :
    ¬Determined (executePayment F param s) := by
  obtain ⟨leftover, hsome⟩ := h
  obtain ⟨t, ht⟩ := Option.isSome_iff_exists.mp hsome
  obtain ⟨⟨_, t⟩, hrun, rfl⟩ := Option.map_eq_some_iff.mp ht
  obtain ⟨_, s₁, h₁, hrun⟩ := Program.run_bind_eq_some.mp hrun
  obtain ⟨_, s₂, h₂, hrun⟩ := Program.run_bind_eq_some.mp hrun
  obtain ⟨_, s₃, h₃, hrun⟩ := Program.run_bind_eq_some.mp hrun
  obtain ⟨hData, s₄, hdraw, hinsert⟩ := Program.run_bind_eq_some.mp h₃
  obtain ⟨hinsert, hrand⟩ := Program.run_onFst_eq_some.mp hinsert
  obtain ⟨hrun, hrand'⟩ := Program.run_onFst_eq_some.mp hrun
  let leftover' : Leftover := { leftover with buffer := fun i a => leftover.buffer i a + 1 }
  have hs₃ : s₄.1.append .history (historyRecord F leftover param hData) = s₃.1 :=
    congrArg Prod.snd (Option.some.inj
      ((run_insertRecord_heap (primaryKey_historyRecord _)).symm.trans hinsert))
  rw [← hs₃] at hrun
  obtain ⟨t', hrun', hheap, hheap'⟩ := paymentSubTxn4_within.differ
    (agree_append _ (historyRecord F leftover' param hData)) hrun
  have hexecute : executePayment F param s leftover' = some (t', s₄.2) := by
    have hall : (processPayment (manager layout) F leftover' param).run s = some ((), (t', s₄.2)) := by
      refine Program.run_bind_eq_some.mpr ⟨_, s₁, h₁, Program.run_bind_eq_some.mpr ⟨_, s₂, h₂,
        Program.run_bind_eq_some.mpr ⟨(), (_, s₄.2), ?_, Program.run_onFst_of hrun' s₄.2⟩⟩⟩
      exact Program.run_bind_eq_some.mpr ⟨hData, s₄, hdraw, Program.run_onFst_eq_some.mpr
        ⟨run_insertRecord_heap (primaryKey_historyRecord _), rfl⟩⟩
    rw [executePayment, hall]
    rfl
  intro hdetermined
  have heq := hdetermined leftover leftover'
  rw [ht, hexecute] at heq
  cases heq
  have hbytes := congrArg (fun r => (r.getColumn 7)[31]?) (last_unique hheap hheap')
  have hlength := RandomGenerator.length_of_generateRandomString (by decide)
    (Program.run_onSnd_eq_some.mp hdraw).1
  have hdrop : ∀ m : Leftover, ((historyRecord F m param hData).getColumn 7)[31]? =
      some (m.buffer 0 (TpccSchema.getHistorySchema.schema.getColumnOffset 7 + 31)) := by
    intro m
    have hle : (textBytes hData).length ≤ 24 := by simpa using hlength
    rw [getColumn_hData, List.take_of_length_le (by omega), List.getElem?_append_right (by omega),
      List.getElem?_drop, show (textBytes hData).length + (31 - (textBytes hData).length) = 31 by omega,
      Record.getColumn_fresh (by decide)]
    rfl
  simp only [hdrop, Option.some.injEq] at hbytes
  simp [leftover'] at hbytes

end Payment
end TPCC.RecordBytes

namespace TATP
variable {K : Constants} {param : InsertCallForwardingParam} {s : Tables} {sId : Int32}

/-- What the transaction finds in memory: the new buffer and the bytes behind `numberx`. -/
structure Leftover where
  buffer : Memory
  beside : ℕ → UInt8

/-- The string with other bytes behind it. -/
def CString.besides (text : CString) (beside : ℕ → UInt8) : CString := ⟨text.chars, beside⟩

@[simp] theorem CString.chars_besides (text : CString) (beside : ℕ → UInt8) :
    (text.besides beside).chars = text.chars := rfl

def executeInsertCallForwarding (K : Constants) (param : InsertCallForwardingParam) (s : Tables)
    (leftover : Leftover) : Option Tables :=
  ((TatpSerialProcessor.processInsertCallForwarding (manager layout) K leftover.buffer
    { param with numberx := param.numberx.besides leftover.beside }).run s).map Prod.snd

/-- The row that the transaction would insert is there already. -/
def Taken (K : Constants) (param : InsertCallForwardingParam) (s : Tables) : Prop :=
  ∃ sId, subscriberId s param.subNbr = some sId ∧
    (s.row (.callForwarding (K.offset sId))
      (callForwardingKey sId param.sfType param.startTime)).isSome

theorem executeInsertCallForwarding_eq (h : subscriberId s param.subNbr = some sId)
    (leftover : Leftover) : executeInsertCallForwarding K param s leftover =
      some (if (s.row (.callForwarding (K.offset sId))
          (callForwardingKey sId param.sfType param.startTime)).isSome then s
        else s.setRow (.callForwarding (K.offset sId))
          (callForwardingKey sId param.sfType param.startTime)
          (callForwardingRecord sId param.sfType param.startTime param.endTime
            (param.numberx.besides leftover.beside))) := by
  have hsId : subscriberId s ({ param with
      numberx := param.numberx.besides leftover.beside } : InsertCallForwardingParam).subNbr =
      some sId := h
  rw [executeInsertCallForwarding, run_processInsertCallForwarding hsId]
  rfl

private theorem getColumn_numberx {sfType startTime endTime : Int8} {numberx : CString} :
    (callForwardingRecord sId sfType startTime endTime numberx).getColumn 4 = numberx.read 15 :=
  getColumn_callForwardingRecord (by simp [callForwardingColumns]) (by simp; rfl)

private theorem read_besides_ne {text : CString} (h : text.chars.length < 14) :
    (text.besides (fun _ => 0)).read 15 ≠ (text.besides (fun _ => 1)).read 15 := by
  intro he
  have hbyte : ∀ b : UInt8, ((text.besides (fun _ => b)).read 15)[text.chars.length + 1]? = some b := by
    intro b
    rw [CString.read, CString.chars_besides, List.getElem?_take_of_lt (by omega),
      List.getElem?_append_right (by omega), Nat.add_sub_cancel_left, List.getElem?_cons_succ]
    rfl
  have hzero := hbyte 0
  rw [he, hbyte 1] at hzero
  cases hzero

theorem insertCallForwarding_determined_iff (h : (subscriberId s param.subNbr).isSome) :
    Determined (executeInsertCallForwarding K param s) ↔
      Taken K param s ∨ 14 ≤ param.numberx.chars.length := by
  obtain ⟨sId, hsId⟩ := Option.isSome_iff_exists.mp h
  by_cases htaken : (s.row (.callForwarding (K.offset sId))
      (callForwardingKey sId param.sfType param.startTime)).isSome
  · refine iff_of_true (fun m m' => ?_) (Or.inl ⟨sId, hsId, htaken⟩)
    rw [executeInsertCallForwarding_eq hsId, executeInsertCallForwarding_eq hsId, if_pos htaken,
      if_pos htaken]
  · have hnot : ¬Taken K param s := by
      rintro ⟨sId', hsId', hrow⟩
      rw [hsId] at hsId'
      cases hsId'
      exact htaken hrow
    rw [or_iff_right hnot]
    constructor
    · intro hdetermined
      by_contra hshort
      have heq := hdetermined ⟨fun _ => 0, fun _ => 0⟩ ⟨fun _ => 0, fun _ => 1⟩
      rw [executeInsertCallForwarding_eq hsId, executeInsertCallForwarding_eq hsId, if_neg htaken,
        if_neg htaken] at heq
      have hrow := congrArg (fun t : Tables => t.row (.callForwarding (K.offset sId))
        (callForwardingKey sId param.sfType param.startTime)) (Option.some.inj heq)
      simp only [Store.row_setRow_self, Option.some.injEq] at hrow
      have hnumberx := congrArg (fun r => r.getColumn 4) hrow
      simp only [getColumn_numberx] at hnumberx
      exact read_besides_ne (by omega) hnumberx
    · intro hlong m m'
      rw [executeInsertCallForwarding_eq hsId, executeInsertCallForwarding_eq hsId]
      have hread : (param.numberx.besides m.beside).read 15 =
          (param.numberx.besides m'.beside).read 15 := CString.read_eq_of_le rfl (by
        rw [CString.chars_besides]
        omega)
      simp only [callForwardingRecord, callForwardingColumns, hread]

end TATP

/-- A transaction that inserts rows, with the database that it finds. -/
inductive Insertion where
  | newOrder (K : TPCC.Constants) (F : TPCC.DoubleFormat) (param : TPCC.NewOrderParam)
    (s : RecordStore TPCC.layout)
  | payment (F : TPCC.DoubleFormat) (param : TPCC.PaymentParam)
    (s : RecordStore TPCC.layout × TPCC.Rand)
  | insertCallForwarding (K : TATP.Constants) (param : TATP.InsertCallForwardingParam)
    (s : TATP.Tables)

namespace Insertion
open TPCC.RecordBytes TATP

/-- The transaction can come to its end. -/
def Completes : Insertion → Prop
  | newOrder K F param s => ∃ leftover, (executeNewOrder K F param s leftover).isSome
  | payment F param s => ∃ leftover, (executePayment F param s leftover).isSome
  | insertCallForwarding K param s =>
    ∃ leftover, (executeInsertCallForwarding K param s leftover).isSome

/-- The resulting tables are the same byte for byte, whatever the memory held. -/
def TablesDetermined : Insertion → Prop
  | newOrder K F param s => Determined (executeNewOrder K F param s)
  | payment F param s => Determined (executePayment F param s)
  | insertCallForwarding K param s => Determined (executeInsertCallForwarding K param s)

/-- Only a call forwarding can be copied in full: when its number has at least 14 characters, or
when there is nothing to insert. -/
def CopiedInFull : Insertion → Prop
  | newOrder .. | payment .. => False
  | insertCallForwarding K param s => Taken K param s ∨ 14 ≤ param.numberx.chars.length

private theorem isSome_subscriberId {K : Constants} {param : InsertCallForwardingParam} {s : Tables}
    (h : Completes (.insertCallForwarding K param s)) : (subscriberId s param.subNbr).isSome := by
  obtain ⟨leftover, h⟩ := h
  cases hsId : subscriberId s param.subNbr with
  | some _ => rfl
  | none =>
    rw [executeInsertCallForwarding, TatpSerialProcessor.processInsertCallForwarding,
      Program.run_bind, run_getSubscriberId, hsId] at h
    cases h

/-- When the rows a transaction inserts depend on the transaction and the database only. -/
theorem tablesDetermined_iff (txn : Insertion) (h : txn.Completes) :
    txn.TablesDetermined ↔ txn.CopiedInFull := by
  cases txn with
  | newOrder K F param s => exact iff_false_intro (newOrder_not_determined h)
  | payment F param s => exact iff_false_intro (payment_not_determined h)
  | insertCallForwarding K param s =>
    exact insertCallForwarding_determined_iff (isSome_subscriberId h)

end Insertion

namespace TPCC.RecordBytes
open ByteMemory

/-- The double format on whole numbers: sign, exponent and fraction. -/
def wholeNumbers : DoubleFormat where
  encode x :=
    let n := ⌊|x|⌋₊
    let magnitude := if n = 0 then 0
      else (1023 + Nat.log2 n) * 2 ^ 52 + (n - 2 ^ Nat.log2 n) * 2 ^ 52 / 2 ^ Nat.log2 n
    toBytes 8 (if x < 0 then 2 ^ 63 + magnitude else magnitude)
  decode bs :=
    let bits := ofBytes bs
    let magnitude := bits % 2 ^ 63
    let x : ℚ := if magnitude = 0 then 0
      else (magnitude % 2 ^ 52 + 2 ^ 52 : ℕ) * 2 ^ (magnitude / 2 ^ 52 : ℕ) / 2 ^ 1075
    if bits < 2 ^ 63 then x else -x
  length_encode _ := toBytes_length _ _

variable {F : DoubleFormat} {param : PaymentParam} {s : RecordStore layout}

theorem run_paymentSubTxn1 {r : Record TpccSchema.getWarehouseSchema}
    (h : s.row .warehouse (intBytes 4 param.wId) = some r) :
    ∃ r', (paymentSubTxn1 (manager layout) F param).run s =
      some ((), s.setRow .warehouse (intBytes 4 param.wId) r') := by
  have hkey : predicateKey TpccSchema.getWarehouseSchema [(0, intBytes 4 param.wId)] =
      intBytes 4 param.wId := by
    rw [predicateKey_eq (by simp; rfl)]
    simp
  refine ⟨r.setColumns [(8, F.encode (F.decode (r.getColumn 8) + param.hAmount))], ?_⟩
  rw [paymentSubTxn1, Program.run_bind, run_selectRecord rfl hkey, h]
  simp only [Option.map_some, Option.bind_some, Program.run_bind, Program.run_fetch,
    Program.run_atomic, h]
  exact run_updateRecord h

theorem run_paymentSubTxn2 {r : Record TpccSchema.getDistrictSchema}
    (h : s.row .district (intBytes 4 param.dId ++ intBytes 4 param.wId) = some r) :
    ∃ r', (paymentSubTxn2 (manager layout) F param).run s =
      some ((), s.setRow .district (intBytes 4 param.dId ++ intBytes 4 param.wId) r') := by
  have hkey : predicateKey TpccSchema.getDistrictSchema
      [(0, intBytes 4 param.dId), (1, intBytes 4 param.wId)] =
      intBytes 4 param.dId ++ intBytes 4 param.wId := by
    rw [predicateKey_eq (by simp; exact ⟨rfl, rfl⟩)]
    simp
  refine ⟨r.setColumns [(9, F.encode (F.decode (r.getColumn 9) + param.hAmount))], ?_⟩
  rw [paymentSubTxn2, Program.run_bind, run_selectRecord rfl hkey, h]
  simp only [Option.map_some, Option.bind_some, Program.run_bind, Program.run_fetch,
    Program.run_atomic, h]
  exact run_updateRecord h

theorem run_paymentSubTxn4 {r : Record TpccSchema.getCustomerSchema}
    (h : s.row .customer (intBytes 4 param.cId ++ intBytes 4 param.dId ++ intBytes 4 param.wId) =
      some r) : ∃ t, (paymentSubTxn4 (manager layout) F param).run s = some ((), t) := by
  have hkey : predicateKey TpccSchema.getCustomerSchema
      [(0, intBytes 4 param.cId), (1, intBytes 4 param.dId), (2, intBytes 4 param.wId)] =
      intBytes 4 param.cId ++ intBytes 4 param.dId ++ intBytes 4 param.wId := by
    rw [predicateKey_eq (by simp; exact ⟨rfl, rfl, rfl⟩)]
    simp
  rw [paymentSubTxn4, Program.run_bind, run_selectRecord rfl hkey, h]
  simp only [Option.map_some, Option.bind_some, Program.run_bind, Program.run_fetch,
    Program.run_atomic, h]
  exact ⟨_, run_updateRecord h⟩

/-- A payment whose rows are there comes to its end. -/
theorem executePayment_isSome {rand : Rand} (hw : (s.row .warehouse (intBytes 4 param.wId)).isSome)
    (hd : (s.row .district (intBytes 4 param.dId ++ intBytes 4 param.wId)).isSome)
    (hc : (s.row .customer
      (intBytes 4 param.cId ++ intBytes 4 param.dId ++ intBytes 4 param.wId)).isSome)
    (leftover : Leftover) : (executePayment F param (s, rand) leftover).isSome := by
  obtain ⟨w, hw⟩ := Option.isSome_iff_exists.mp hw
  obtain ⟨d, hd⟩ := Option.isSome_iff_exists.mp hd
  obtain ⟨c, hc⟩ := Option.isSome_iff_exists.mp hc
  obtain ⟨w', h₁⟩ := run_paymentSubTxn1 (F := F) hw
  obtain ⟨d', h₂⟩ := run_paymentSubTxn2 (F := F) ((Store.row_setRow_other s w' (by simp) _).trans hd)
  obtain ⟨hData, rand', hdraw⟩ := RandomGenerator.total_generateCString 12 24 rand
  obtain ⟨t, h₄⟩ : ∃ t, (paymentSubTxn4 (manager layout) F param).run _ = some ((), t) :=
    run_paymentSubTxn4 (s := ((s.setRow .warehouse (intBytes 4 param.wId) w').setRow .district
      (intBytes 4 param.dId ++ intBytes 4 param.wId) d').append .history
        (historyRecord F leftover param hData))
    (((Store.row_setRow_other _ d' (by simp) _).trans
      (Store.row_setRow_other s w' (by simp) _)).trans hc)
  have hrun : (processPayment (manager layout) F leftover param).run (s, rand) =
      some ((), (t, rand')) := by
    refine Program.run_bind_eq_some.mpr ⟨(), (_, rand), Program.run_onFst_of h₁ rand,
      Program.run_bind_eq_some.mpr ⟨(), (_, rand), Program.run_onFst_of h₂ rand,
        Program.run_bind_eq_some.mpr ⟨(), (_, rand'), ?_, Program.run_onFst_of h₄ rand'⟩⟩⟩
    exact Program.run_bind_eq_some.mpr ⟨hData, (_, rand'), Program.run_onSnd_eq_some.mpr ⟨hdraw, rfl⟩,
      Program.run_onFst_of (run_insertRecord_heap (primaryKey_historyRecord _)) rand'⟩
  rw [executePayment, hrun]
  rfl

/-- One warehouse with one district and one customer. -/
def oneCustomer : RecordStore layout :=
  ((Store.empty.setRow .warehouse (intBytes 4 1)
    ((Record.fresh _ (fun _ => 0)).setColumns [(0, intBytes 4 1)])).setRow .district
      (intBytes 4 1 ++ intBytes 4 1)
      ((Record.fresh _ (fun _ => 0)).setColumns [(0, intBytes 4 1), (1, intBytes 4 1)])).setRow
    .customer (intBytes 4 1 ++ intBytes 4 1 ++ intBytes 4 1)
    ((Record.fresh _ (fun _ => 0)).setColumns
      [(0, intBytes 4 1), (1, intBytes 4 1), (2, intBytes 4 1)])

/-- The customer pays five dollars. -/
def fiveDollars : PaymentParam where
  wId := 1
  dId := 1
  hAmount := 5
  cWId := 1
  cDId := 1
  cId := 1
  hDate := 20

end TPCC.RecordBytes

namespace Insertion
open TPCC.RecordBytes

theorem completes_fiveDollars :
    (Insertion.payment wholeNumbers fiveDollars (oneCustomer, fun _ => 0)).Completes := by
  refine ⟨⟨fun _ _ => 0, fun _ => 0⟩, executePayment_isSome ?_ ?_ ?_ _⟩
  · rw [oneCustomer, Store.row_setRow_other _ _ (by simp), Store.row_setRow_other _ _ (by simp)]
    simp [fiveDollars]
  · rw [oneCustomer, Store.row_setRow_other _ _ (by simp)]
    simp [fiveDollars]
  · simp [oneCustomer, fiveDollars]

/-- Two executions of one payment can leave different history rows. -/
theorem fiveDollars_not_determined : ¬∀ txn : Insertion, txn.Completes → txn.TablesDetermined :=
  fun h => payment_not_determined completes_fiveDollars (h _ completes_fiveDollars)

theorem tablesDetermined_fiveDollars :
    (Insertion.payment wholeNumbers fiveDollars (oneCustomer, fun _ => 0)).TablesDetermined ↔
      False :=
  tablesDetermined_iff _ completes_fiveDollars

end Insertion
end ImdbD.Benchmark
