import ImdbD.TpccProcessor
import ImdbD.KeyedFootprint

/-!
# What the sub-transactions of TPC-C touch

The row of a district is seen in two parts, the payments and the rest; every
other row is one part. Each sub-transaction stays within the few rows that its
parameters name.
-/
namespace ImdbD.Benchmark.TPCC
open AtomicProgram KeyedStore

inductive DistrictPart where
  | ytd
  | rest
  deriving DecidableEq

abbrev Part : TableId → Type
  | .district => DistrictPart
  | .item | .warehouse | .customer | .history | .stock | .districtNewOrder | .order _
  | .newOrder _ | .orderLine _ => Unit

abbrev PartValue : ∀ id, Part id → Type
  | .district, .ytd => ℚ
  | .district, .rest => DistrictRecord
  | .item, _ => ItemRecord
  | .warehouse, _ => WarehouseRecord
  | .customer, _ => CustomerRecord
  | .history, _ => HistoryRecord
  | .stock, _ => StockRecord
  | .districtNewOrder, _ => DistrictNewOrderRecord
  | .order _, _ => OrderRecord
  | .newOrder _, _ => NewOrderRecord
  | .orderLine _, _ => OrderLineRecord

def partView : ∀ id (p : Part id), Row id → PartValue id p
  | .district, .ytd, r => r.dYtd
  | .district, .rest, r => { r with dYtd := 0 }
  | .item, _, r | .warehouse, _, r | .customer, _, r | .history, _, r | .stock, _, r
  | .districtNewOrder, _, r | .order _, _, r | .newOrder _, _, r | .orderLine _, _, r => r

private theorem district_ext {r r' : DistrictRecord} (hytd : r.dYtd = r'.dYtd)
    (hrest : ({ r with dYtd := 0 } : DistrictRecord) = { r' with dYtd := 0 }) : r = r' := by
  cases r
  cases r'
  simp_all

abbrev parts : Division tpcc where
  Part := Part
  Value := PartValue
  view := partView
  ext := by
    intro id r r' h
    cases id with
    | district => exact district_ext (h .ytd) (h .rest)
    | _ => exact h ()
  nonempty
    | .district => ⟨.ytd⟩
    | .item | .warehouse | .customer | .history | .stock | .districtNewOrder | .order _
    | .newOrder _ | .orderLine _ => ⟨()⟩

theorem whole (id : TableId) (p : Part id) (h : id ≠ .district := by simp) : parts.Whole id p := by
  cases id with
  | district => exact absurd rfl h
  | _ => exact ⟨fun _ => rfl, fun he => he⟩

abbrev TablePlace := Place parts

/-- The places of the tables. -/
abbrev tablePlaces : Places Tables TablePlace := Store.places parts

variable {K : Constants} {f : Footprint TablePlace}

theorem deliverySubTxn1Single_within {param : DeliveryParam} {noDId : ℤ}
    (hpointer : .row .districtNewOrder (param.wId, noDId) () ∈ f.writes)
    (horder : ∀ o, .row (.newOrder (K.offset param.wId noDId)) (o, noDId, param.wId) () ∈ f.writes) :
    (deliverySubTxn1Single K param noDId).Within tablePlaces f := by
  refine .bind (selectRecord_whole (whole .districtNewOrder ()) (Or.inr hpointer)) (fun _ => ?_)
  refine .bind (.assert _) (fun _ => ?_)
  refine .bind (getColumn_whole (whole .districtNewOrder ()) (Or.inr hpointer)) (fun noOId => ?_)
  refine .bind (selectRecord_whole (whole (.newOrder _) ()) (Or.inr (horder noOId))) (fun _ => ?_)
  refine .ite (.bind (deleteRecord_within (fun _ => horder noOId) (fun _ => rfl)) (fun _ => ?_)) (.pure _)
  exact .bind (updateRecord_whole (whole .districtNewOrder ()) hpointer) (fun _ => .pure _)

theorem deliverySubTxn2Single_within {param : DeliveryParam} {noDId noOId : ℤ}
    (hgroup : .group (.orderLine (K.offset param.wId noDId)) (noOId, noDId, param.wId) ∈ f.touches)
    (hline : ∀ n, .row (.orderLine (K.offset param.wId noDId)) (noOId, noDId, param.wId, n) () ∈
      f.writes) :
    (deliverySubTxn2Single K param noDId noOId).Within tablePlaces f := by
  refine .bind (selectRecords_within hgroup) (fun _ => ?_)
  refine .bind (.assert _) (fun _ => .bind (.collect (fun n _ => ?_)) (fun _ => .pure _))
  refine .bind (updateRecord_whole (whole (.orderLine _) ()) (hline n)) (fun _ => ?_)
  exact getColumn_whole (whole (.orderLine _) ()) (Or.inr (hline n))

theorem deliverySubTxn3Single_within {param : DeliveryParam} {noDId noOId : ℤ}
    (horder : .row (.order (K.offset param.wId noDId)) (noOId, noDId, param.wId) () ∈ f.writes) :
    (deliverySubTxn3Single K param noDId noOId).Within tablePlaces f := by
  refine .bind (selectRecord_whole (whole (.order _) ()) (Or.inr horder)) (fun _ => ?_)
  refine .bind (.assert _) (fun _ => ?_)
  refine .bind (updateRecord_whole (whole (.order _) ()) horder) (fun _ => ?_)
  exact getColumn_whole (whole (.order _) ()) (Or.inr horder)

theorem deliverySubTxn4Single_within {param : DeliveryParam} {noDId cId : ℤ} {sum : ℚ}
    (hcustomer : .row .customer (cId, noDId, param.wId) () ∈ f.writes) :
    (deliverySubTxn4Single param noDId sum cId).Within tablePlaces f := by
  refine .bind (selectRecord_whole (whole .customer ()) (Or.inr hcustomer)) (fun _ => ?_)
  refine .bind (.assert _) (fun _ => ?_)
  refine .bind (getColumn_whole (whole .customer ()) (Or.inr hcustomer)) (fun _ => ?_)
  exact updateRecord_whole (whole .customer ()) hcustomer

theorem neworderSubTxn1_within {param : NewOrderParam}
    (hdistrict : .row .district (param.dId, param.wId) .rest ∈ f.writes) :
    (neworderSubTxn1 param).Within tablePlaces f := by
  refine .bind (selectRecord_within DistrictPart.rest (Or.inr hdistrict)) (fun _ => ?_)
  refine .bind (.assert _) (fun _ => ?_)
  refine .bind (getColumn_within DistrictPart.rest (Or.inr hdistrict) ?_) (fun dNextOId => ?_)
  · intro r r' h
    have hrest : ({ r with dYtd := 0 } : DistrictRecord) = { r' with dYtd := 0 } := h
    have hnext := congrArg DistrictRecord.dNextOId hrest
    exact hnext
  refine .bind (updateRecord_within DistrictPart.rest hdistrict ?_ ?_) (fun _ => .pure _)
  · intro q hq r
    cases q with
    | ytd => rfl
    | rest => exact absurd rfl hq
  · intro r r' h
    exact congrArg (fun r : DistrictRecord => { r with dNextOId := dNextOId + 1 }) h

theorem neworderSubTxn2_within {param : NewOrderParam} {dNextOId : ℤ}
    (horder : .row (.order (K.offset param.wId param.dId)) (dNextOId, param.dId, param.wId) () ∈
      f.writes) :
    (neworderSubTxn2 K param dNextOId).Within tablePlaces f :=
  insertRecord_within rfl (fun _ => horder) (fun _ _ h => (nomatch h))

theorem neworderSubTxn3_within {param : NewOrderParam} {dNextOId : ℤ}
    (horder : .row (.newOrder (K.offset param.wId param.dId)) (dNextOId, param.dId, param.wId) () ∈
      f.writes) :
    (neworderSubTxn3 K param dNextOId).Within tablePlaces f :=
  insertRecord_within rfl (fun _ => horder) (fun _ _ h => (nomatch h))

theorem neworderSubTxn4Single_within {param : NewOrderParam} {i : ℕ}
    (hstock : ∀ w o, param.iWIds[i]? = some w → param.iIds[i]? = some o →
      .row .stock (o, w) () ∈ f.writes) :
    (neworderSubTxn4Single param i).Within tablePlaces f := by
  refine .fetch_bind (fun w hw => .fetch_bind (fun o ho => .bind (.fetch _) (fun _ => ?_)))
  have h := hstock w o hw ho
  refine .bind (selectRecord_whole (whole .stock ()) (Or.inr h)) (fun _ => ?_)
  refine .bind (.assert _) (fun _ => ?_)
  refine .bind (getColumn_whole (whole .stock ()) (Or.inr h)) (fun _ => ?_)
  refine .bind (getColumn_whole (whole .stock ()) (Or.inr h)) (fun _ => ?_)
  refine .bind (getColumn_whole (whole .stock ()) (Or.inr h)) (fun _ => ?_)
  refine .bind (updateRecord_whole (whole .stock ()) h) (fun _ => ?_)
  refine .ite (.bind (getColumn_whole (whole .stock ()) (Or.inr h)) (fun _ => ?_))
    (getColumn_whole (whole .stock ()) (Or.inr h))
  exact .bind (updateRecord_whole (whole .stock ()) h) (fun _ =>
    getColumn_whole (whole .stock ()) (Or.inr h))

theorem neworderSubTxn5Single_within {param : NewOrderParam} {i : ℕ}
    (hitem : ∀ o, param.iIds[i]? = some o → .row .item o () ∈ f.touches) :
    (neworderSubTxn5Single param i).Within tablePlaces f := by
  refine .fetch_bind (fun o ho => ?_)
  refine .bind (selectRecord_whole (whole .item ()) (hitem o ho)) (fun _ => ?_)
  refine .bind (.assert _) (fun _ => .bind (.fetch _) (fun _ => ?_))
  exact .bind (getColumn_whole (whole .item ()) (hitem o ho)) (fun _ => .pure _)

theorem neworderSubTxn6_within {param : NewOrderParam} {dNextOId : ℤ} {sDists : List String}
    {olAmounts : List ℚ}
    (hgroup : .group (.orderLine (K.offset param.wId param.dId)) (dNextOId, param.dId, param.wId) ∈
      f.writes)
    (hline : ∀ n, .row (.orderLine (K.offset param.wId param.dId))
      (dNextOId, param.dId, param.wId, n) () ∈ f.writes) :
    (neworderSubTxn6 K param dNextOId sDists olAmounts).Within tablePlaces f := by
  refine .each (fun i _ => .bind (.fetch _) (fun _ => .bind (.fetch _) (fun _ => ?_)))
  refine .bind (.fetch _) (fun _ => .bind (.fetch _) (fun _ => .bind (.fetch _) (fun _ => ?_)))
  refine insertRecord_within rfl (fun _ => hline _) (fun g m h => ?_)
  cases h
  exact hgroup

theorem paymentSubTxn1_within {param : PaymentParam}
    (hwarehouse : .row .warehouse param.wId () ∈ f.writes) :
    (paymentSubTxn1 param).Within tablePlaces f := by
  refine .bind (selectRecord_whole (whole .warehouse ()) (Or.inr hwarehouse)) (fun _ => ?_)
  refine .bind (getColumn_whole (whole .warehouse ()) (Or.inr hwarehouse)) (fun _ => ?_)
  exact updateRecord_whole (whole .warehouse ()) hwarehouse

theorem paymentSubTxn2_within {param : PaymentParam}
    (hdistrict : .row .district (param.dId, param.wId) .ytd ∈ f.writes) :
    (paymentSubTxn2 param).Within tablePlaces f := by
  refine .bind (selectRecord_within DistrictPart.ytd (Or.inr hdistrict)) (fun _ => ?_)
  refine .bind (getColumn_within DistrictPart.ytd (Or.inr hdistrict) (fun _ _ => ?_)) (fun dYtd => ?_)
  · exact id
  refine updateRecord_within DistrictPart.ytd hdistrict ?_ (fun _ _ _ => rfl)
  intro q hq r
  cases q with
  | ytd => exact absurd rfl hq
  | rest => rfl

/-- Appending to the history touches the draws as well. -/
theorem paymentSubTxn3_within {param : PaymentParam} {f : Footprint (TablePlace ⊕ Unit)}
    (hhistory : .inl (.heap .history) ∈ f.writes) (hrand : .inr () ∈ f.writes) :
    (paymentSubTxn3 param).Within (tablePlaces.prod (.whole Rand)) f := by
  have hdraw : (RandomGenerator.generateCString 12 24).Within (.whole Rand) ⟨∅, Set.univ⟩ :=
    .whole (Set.mem_univ _) _
  refine .bind (.onSnd hdraw ?_ ?_) (fun hData => ?_)
  · exact fun _ h => h.elim
  · exact fun _ _ => hrand
  · have hinsert : ∀ r, (insertRecord (C := tpcc) .history r).Within tablePlaces
        ⟨∅, {.heap .history}⟩ := fun r => insertRecord_heap_within rfl (Set.mem_singleton _)
    refine .onFst (hinsert _) (fun _ h => h.elim) ?_
    rintro _ rfl
    exact hhistory

theorem paymentSubTxn4_within {param : PaymentParam}
    (hcustomer : .row .customer (param.cId, param.dId, param.wId) () ∈ f.writes) :
    (paymentSubTxn4 param).Within tablePlaces f := by
  refine .bind (selectRecord_whole (whole .customer ()) (Or.inr hcustomer)) (fun _ => ?_)
  refine .bind (getColumn_whole (whole .customer ()) (Or.inr hcustomer)) (fun _ => ?_)
  refine .bind (getColumn_whole (whole .customer ()) (Or.inr hcustomer)) (fun _ => ?_)
  refine .bind (getColumn_whole (whole .customer ()) (Or.inr hcustomer)) (fun _ => ?_)
  exact updateRecord_whole (whole .customer ()) hcustomer

end ImdbD.Benchmark.TPCC
