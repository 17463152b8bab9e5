import ImdbD.TpccBatchQueue
import ImdbD.TpccSerialRun

/-!
# The jobs of a tuple do what the serial processor does

From the same tables the jobs of a tuple and the serial processor come to the
same tables. What one job leaves in the vectors is what the next one needs.
-/
namespace ImdbD.Benchmark.TPCC.TpccBatchProcessor
open AtomicProgram KeyedStore

variable {K : Constants} {P : ScaleParams} {s : Tables} {rand : Rand} {v : Vectors} {ok : Prop}
  {batch : List EventTuple} {vec : Vec} {i : ℕ} {α : Type}

theorem run_assign {t : State} (vec : Vec) (x : Element vec) (h : i < (v vec).length) :
    (assign vec i x).run (t, v) = some ((), (t, Function.update v vec ((v vec).set i x))) := by
  rw [assign, Program.run_onSnd, Program.run_writeAt (V := Element) x h]
  rfl

theorem run_elementAt {t : State} (vec : Vec) {x : Element vec} (h : (v vec)[i]? = some x) :
    (elementAt vec i).run (t, v) = some (x, (t, v)) := by
  rw [elementAt, Program.run_onSnd, Program.run_readAt (V := Element) h]
  rfl

theorem run_passed {t : State} : (passed vec).run (t, v) = some (v vec, (t, v)) := rfl

theorem run_onTables_of {p : Program Tables α} {a : α} {s' : Tables} (h : p.run s = some (a, s')) :
    (onTables p).run ((s, rand), v) = some (a, ((s', rand), v)) :=
  Program.run_onFst_of (Program.run_onFst_of h rand) v

/-- A sub-transaction leaves the draws and the vectors alone. -/
theorem ensures_onTables {p : Program Tables α} {Q : α → Tables → Prop}
    (h : Program.Ensures ok p s Q) : Program.Ensures ok (onTables p) ((s, rand), v)
      (fun a w => ∃ s', w = ((s', rand), v) ∧ Q a s') := by
  refine (Program.Ensures.onFst (Program.Ensures.onFst h)).mono ?_
  rintro a ⟨⟨s', rand'⟩, v'⟩ ⟨⟨hq, hrand⟩, hv⟩
  obtain rfl : rand' = rand := hrand
  obtain rfl : v' = v := hv
  exact ⟨s', rfl, hq⟩

private theorem ensures_fill {p : α → Program Work Unit} {as : List α} (vec : Vec) (i : α → ℕ)
    (x : α → Element vec) (I : List α → Tables → Prop)
    (hround : ∀ before a after s ys, as = before ++ a :: after → ys.length = (v vec).length →
      I before s → Program.Ensures ok (p a) ((s, rand), Function.update v vec ys) (fun _ w =>
        ∃ s', w = ((s', rand), Function.update v vec (ys.set (i a) (x a))) ∧
          I (before ++ [a]) s'))
    (hs : I [] s) : Program.Ensures ok (Program.each p as) ((s, rand), v) (fun _ w =>
      ∃ s', w = ((s', rand), Function.update v vec (fill i x as (v vec))) ∧ I as s') := by
  refine .each (I := fun before w => ∃ s',
    w = ((s', rand), Function.update v vec (fill i x before (v vec))) ∧ I before s') ?_ ?_
  · rintro before a after _ has ⟨s', rfl, hinv⟩
    rw [fill_concat]
    exact hround before a after s' _ has length_fill hinv
  · exact ⟨s, by rw [fill_nil, Function.update_eq_self], hs⟩

section NewOrder
variable {param : NewOrderParam} {o : ℤ} {pos stocked : ℕ} {s' : Tables}

/-- The vectors after a new order. -/
def newOrderVectors (param : NewOrderParam) (s : Tables) (pos : ℕ) (o : ℤ) (v : Vectors) : Vectors :=
  Function.update (Function.update
    (Function.update v .dNextOIdVector ((v .dNextOIdVector).set pos o))
    (.sDistsVector pos) (param.items.map (distInfo param s)))
    (.olAmountsVector pos) (param.items.map (lineAmount s))

private theorem ensures_items (vec : Vec) (f : OrderItem → Element vec) (x : Element vec)
    (p : ℕ → Program Tables (Element vec)) (I : ℕ → Tables → Prop)
    (hround : ∀ i s', i < param.iIds.length → I i s' →
      Program.Ensures ok (p i) s' (fun y s'' => (param.items[i]?).map f = some y ∧ I (i + 1) s''))
    (hlen : (v vec).length = param.iIds.length) (hs : I 0 s) :
    Program.Ensures ok (Program.each (fun i => onTables (p i) >>= fun y => assign vec i y)
      (List.range param.iIds.length)) ((s, rand), v) (fun _ w =>
        ∃ s', w = ((s', rand), Function.update v vec (param.items.map f)) ∧
          I param.iIds.length s') := by
  refine (ensures_fill vec id (fun i => ((param.items.map f)[i]?).getD x)
    (fun before s' => I before.length s') ?_ hs).mono ?_
  · intro before i after s' ys hi hys hinv
    obtain ⟨rfl, hlt⟩ := range_split hi
    refine .bind (ensures_onTables (hround _ s' hlt hinv)) ?_
    rintro y _ ⟨s'', rfl, hy, hinv'⟩
    have hassign := run_assign (v := Function.update v vec ys) (t := (s'', rand))
      (i := before.length) vec y (by rw [Function.update_self, hys, hlen]; exact hlt)
    refine .of_run hassign ⟨s'', ?_, by simpa using hinv'⟩
    rw [Function.update_self, Function.update_idem, List.getElem?_map, hy]
    rfl
  · rintro _ w ⟨s', rfl, hinv⟩
    refine ⟨s', ?_, by simpa using hinv⟩
    rw [← hlen, fill_range x (by rw [List.length_map, param.length_items, hlen])]

private theorem run_neworder12 (hpos : pos < (v .dNextOIdVector).length) {s₁ s₂ : Tables}
    (h₁ : (neworderSubTxn1 param).run s = some (o, s₁))
    (h₂ : (neworderSubTxn2 K param o).run s₁ = some ((), s₂)) :
    (perform K batch (.neworder12 pos param o)).run ((s, rand), v) =
      some ((), ((s₂, rand), Function.update v .dNextOIdVector ((v .dNextOIdVector).set pos o))) := by
  have hset := run_assign (t := (s₁, rand)) .dNextOIdVector o hpos
  have hget := run_elementAt (i := pos) (x := o) (t := (s₁, rand))
    (v := Function.update v .dNextOIdVector ((v .dNextOIdVector).set pos o)) .dNextOIdVector
    (by rw [Function.update_self, List.getElem?_set_self hpos])
  simp only [perform, Program.run_bind, run_onTables_of h₁, hset, Program.run_expecting hget,
    Option.bind_some, run_onTables_of h₂]

private theorem run_neworder3 (ho : (v .dNextOIdVector)[pos]? = some o)
    (h : (neworderSubTxn3 K param o).run s = some ((), s')) :
    (perform K batch (.neworder3 pos param)).run ((s, rand), v) =
      some ((), ((s', rand), v)) := by
  simp only [perform, neworder3, Program.run_bind, run_elementAt _ ho, Option.bind_some,
    run_onTables_of h]

private theorem neworder6_spec (h : NewOrderStage K param s o stocked 0 s') (hs : Orderable K param s o)
    (hnil : s.groups (.orderLine (K.offset param.wId param.dId)) (o, param.dId, param.wId) = [])
    (ho : (v .dNextOIdVector)[pos]? = some o)
    (hdists : v (.sDistsVector pos) = param.items.map (distInfo param s))
    (hamounts : v (.olAmountsVector pos) = param.items.map (lineAmount s)) :
    Program.Ensures ok (perform K batch (.neworder6 pos param o)) ((s', rand), v) (fun _ w =>
      ∃ s'', w = ((s'', rand), v) ∧ NewOrderStage K param s o stocked param.iIds.length s'') := by
  have hlines :
      s'.groups (.orderLine (K.offset param.wId param.dId)) (o, param.dId, param.wId) = [] := by
    rw [h.groups, if_pos ⟨rfl, rfl⟩, hnil]
    rfl
  rw [perform]
  refine .expecting (run_elementAt _ ho) ?_
  refine .run_bind (run_onTables_of (run_selectRecords s' _ _)) ?_
  refine .assert_bind (decide_eq_true hlines) ?_
  refine .run_bind run_passed (.run_bind run_passed ?_)
  rw [hdists, hamounts]
  exact ensures_onTables (h.neworderSubTxn6 hs)

theorem newOrderJobs_spec (hs : Orderable K param s o)
    (hnil : s.groups (.orderLine (K.offset param.wId param.dId)) (o, param.dId, param.wId) = [])
    (hpos : pos < (v .dNextOIdVector).length)
    (hdists : (v (.sDistsVector pos)).length = param.iIds.length)
    (hamounts : (v (.olAmountsVector pos)).length = param.iIds.length) :
    Program.Ensures ok (Program.each (perform K batch) (newOrderJobs pos param o)) ((s, rand), v)
      (fun _ w => ∃ s', w = ((s', rand), newOrderVectors param s pos o v) ∧
        NewOrderStage K param s o param.iIds.length param.iIds.length s') := by
  obtain ⟨s₁, s₂, s₃, h₁, h₂, h₃, hstage⟩ := hs.opened
  have hnumber : (Function.update v .dNextOIdVector ((v .dNextOIdVector).set pos o)
      .dNextOIdVector)[pos]? = some o := by
    rw [Function.update_self, List.getElem?_set_self hpos]
  have hopened : (Program.each (perform K batch) [.neworder12 pos param o, .neworder3 pos param]).run
      ((s, rand), v) = some ((), ((s₃, rand),
        Function.update v .dNextOIdVector ((v .dNextOIdVector).set pos o))) := by
    simp only [Program.run_each_cons, run_neworder12 hpos h₁ h₂, Option.bind_some,
      run_neworder3 hnumber h₃, Program.run_each_nil]
  rw [newOrderJobs, Program.each_append, Program.each_append, Program.each_append, Program.each_map,
    Program.each_map, Program.bind_assoc, Program.bind_assoc]
  refine .run_bind hopened ?_
  refine .bind (ensures_items (.sDistsVector pos) (distInfo param s) "" (neworderSubTxn4Single param)
    (fun i s' => NewOrderStage K param s o i 0 s') ?_ ?_ hstage) ?_
  · intro i s' hlt h
    exact h.neworderSubTxn4Single hs hlt
  · rwa [Function.update_of_ne (by simp)]
  rintro _ _ ⟨s₄, rfl, h₄⟩
  refine .bind (ensures_items (.olAmountsVector pos) (lineAmount s) 0 (neworderSubTxn5Single param)
    (fun _ s' => s' = s₄) ?_ ?_ rfl) ?_
  · rintro i _ hlt rfl
    exact h₄.neworderSubTxn5Single hs hlt
  · rwa [Function.update_of_ne (by simp), Function.update_of_ne (by simp)]
  rintro _ _ ⟨_, rfl, rfl⟩
  refine .bind (neworder6_spec h₄ hs hnil ?_ ?_ ?_) (fun _ w hw => .pure hw)
  · rw [Function.update_of_ne (by simp), Function.update_of_ne (by simp)]
    exact hnumber
  · rw [Function.update_of_ne (by simp), Function.update_self]
  · rw [Function.update_self]

end NewOrder
section Delivery
variable {param : DeliveryParam} {pos : ℕ} {es : List (ℤ × ℤ)}

/-- The place of a district in the vectors of a delivery. -/
def districtAt (e : ℤ × ℤ) : ℕ := e.1.toNat

def sumOf (K : Constants) (param : DeliveryParam) (s : Tables) (e : ℤ × ℤ) : ℚ :=
  (lineAmounts K s e.2 e.1 param.wId).sum

def buyerOf (K : Constants) (param : DeliveryParam) (s : Tables) (e : ℤ × ℤ) : ℤ :=
  ((s.row (.order (K.offset param.wId e.1)) (e.2, e.1, param.wId)).map OrderRecord.oCId).getD 0

/-- The vectors after a delivery. -/
def deliveryVectors (K : Constants) (param : DeliveryParam) (s : Tables) (pos : ℕ) (v : Vectors) :
    Vectors :=
  Function.update (Function.update
    (Function.update v (.noOIdsVector pos)
      (fill districtAt Prod.snd (foundOrders K s param.wId) (v (.noOIdsVector pos))))
    (.sumsVector pos) (fill districtAt (sumOf K param s) (foundOrders K s param.wId)
      (v (.sumsVector pos))))
    (.cIdsVector pos) (fill districtAt (buyerOf K param s) (foundOrders K s param.wId)
      (v (.cIdsVector pos)))

theorem nodup_districtAt (K : Constants) (s : Tables) (w : ℤ) :
    ((foundOrders K s w).map districtAt).Nodup := by
  have hmap : (foundOrders K s w).map districtAt =
      ((foundOrders K s w).map Prod.fst).map Int.toNat := by
    rw [List.map_map]
    rfl
  have hpos : ∀ d ∈ (foundOrders K s w).map Prod.fst, 1 ≤ d := by
    intro d hd
    obtain ⟨e, he, rfl⟩ := List.mem_map.mp hd
    exact (mem_upTo.mp (mem_foundOrders.mp he).1).1
  rw [hmap]
  refine (nodup_foundOrders K s w).map_on (fun a ha b hb h => ?_)
  have := hpos a ha
  have := hpos b hb
  omega

theorem districtAt_lt {w : ℤ} {e : ℤ × ℤ} (he : e ∈ foundOrders K s w) : districtAt e < 11 := by
  have hle := (mem_upTo.mp (mem_foundOrders.mp he).1).2
  rw [DISTRICTS_PER_WAREHOUSE] at hle
  rw [districtAt]
  omega

/-- The first pass notes the orders that it finds. -/
theorem ensures_delivery1 (hs : ∀ d ∈ upTo DISTRICTS_PER_WAREHOUSE, Deliverable K s param.wId d)
    (hlen : (v (.noOIdsVector pos)).length = 11) :
    Program.Ensures ok (Program.each (fun d => perform K batch (.delivery1 pos param d))
      (upTo DISTRICTS_PER_WAREHOUSE)) ((s, rand), v) (fun _ w => ∃ s',
        w = ((s', rand), Function.update v (.noOIdsVector pos)
          (fill districtAt Prod.snd (foundOrders K s param.wId) (v (.noOIdsVector pos)))) ∧
        DeliveryStage K param s (upTo DISTRICTS_PER_WAREHOUSE) [] [] [] s') := by
  refine .each (I := fun before w => ∃ s', w = ((s', rand), Function.update v (.noOIdsVector pos)
    (fill districtAt Prod.snd ((before.map (fun d => (nextOrder K s param.wId d).map
      (fun o => (d, o)))).reduceOption) (v (.noOIdsVector pos)))) ∧
    DeliveryStage K param s before [] [] [] s') ?_ ?_
  · rintro before d after _ hds ⟨s', rfl, h⟩
    have hmem : d ∈ upTo DISTRICTS_PER_WAREHOUSE := by simp [hds]
    have hnodup := nodup_upTo DISTRICTS_PER_WAREHOUSE
    rw [hds, List.nodup_append] at hnodup
    have hd : d ∉ before := fun hd => hnodup.2.2 d hd d List.mem_cons_self rfl
    refine .bind (ensures_onTables (h.deliverySubTxn1Single hd (hs d hmem))) ?_
    rintro _ _ ⟨s'', rfl, rfl, h'⟩
    cases hnext : nextOrder K s param.wId d with
    | none => exact .pure ⟨s'', by simp [hnext, List.reduceOption_append], h'⟩
    | some o =>
      have hlt : d.toNat < 11 := by
        have hle := (mem_upTo.mp hmem).2
        rw [DISTRICTS_PER_WAREHOUSE] at hle
        omega
      refine .of_run (run_assign (.noOIdsVector pos) o ?_) ⟨s'', ?_, h'⟩
      · rw [Function.update_self, length_fill, hlen]
        exact hlt
      · rw [Function.update_self, Function.update_idem, List.map_append, List.reduceOption_append,
          List.map_singleton, hnext]
        rw [Option.map_some, List.reduceOption_singleton, Option.toList_some, fill_concat]
        rfl
  · exact ⟨s, by simp, .refl⟩

private theorem ensures_pass (vec : Vec) (x : ℤ × ℤ → Element vec) (p : ℤ → ℤ → Program Tables (Element vec))
    (I : List (ℤ × ℤ) → Tables → Prop) (hother : vec ≠ .noOIdsVector pos)
    (hround : ∀ before e after s', es = before ++ e :: after → I before s' →
      Program.Ensures ok (p e.1 e.2) s' (fun y s'' => y = x e ∧ I (before ++ [e]) s''))
    (hfound : ∀ e ∈ es, (v (.noOIdsVector pos))[districtAt e]? = some e.2)
    (hlt : ∀ e ∈ es, districtAt e < (v vec).length) (hs : I [] s) :
    Program.Ensures ok (Program.each (fun e =>
        (elementAt (.noOIdsVector pos) e.1.toNat).expecting e.2 (fun o =>
          onTables (p e.1 o) >>= fun y => assign vec e.1.toNat y)) es) ((s, rand), v)
      (fun _ w => ∃ s', w = ((s', rand), Function.update v vec (fill districtAt x es (v vec))) ∧
        I es s') := by
  refine ensures_fill vec districtAt x I (fun before e after s' ys hes hys hinv => ?_) hs
  have he : e ∈ es := by simp [hes]
  refine .expecting (run_elementAt (.noOIdsVector pos) ?_) ?_
  · rw [Function.update_of_ne (Ne.symm hother)]
    exact hfound e he
  refine .bind (ensures_onTables (hround before e after s' hes hinv)) ?_
  rintro _ _ ⟨s'', rfl, rfl, hinv'⟩
  refine .of_run (run_assign vec (x e) ?_) ⟨s'', ?_, hinv'⟩
  · rw [Function.update_self, hys]
    exact hlt e he
  · rw [Function.update_self, Function.update_idem]
    rfl

/-- The last pass reads what the two before it have left. -/
theorem ensures_delivery4 {s' : Tables} {taken marked carried : List ℤ}
    (hs : ∀ d ∈ upTo DISTRICTS_PER_WAREHOUSE, Deliverable K s param.wId d)
    (hsums : ∀ e ∈ foundOrders K s param.wId,
      (v (.sumsVector pos))[districtAt e]? = some (sumOf K param s e))
    (hbuyers : ∀ e ∈ foundOrders K s param.wId,
      (v (.cIdsVector pos))[districtAt e]? = some (buyerOf K param s e))
    (h : DeliveryStage K param s taken marked carried [] s') :
    Program.Ensures ok (Program.each (fun e : ℤ × ℤ => perform K batch (.delivery4 pos param e.1))
      (foundOrders K s param.wId)) ((s', rand), v) (fun _ w => ∃ s'', w = ((s'', rand), v) ∧
        DeliveryStage K param s taken marked carried ((foundOrders K s param.wId).map Prod.fst)
          s'') := by
  refine .each (I := fun before w => ∃ s'', w = ((s'', rand), v) ∧
    DeliveryStage K param s taken marked carried (before.map Prod.fst) s'') ?_ ⟨s', rfl, h⟩
  rintro before e after _ hes ⟨s'', rfl, h⟩
  have he : e ∈ foundOrders K s param.wId := by simp [hes]
  obtain ⟨hd, ho⟩ := mem_foundOrders.mp he
  obtain ⟨r, hr, hc⟩ := (hs e.1 hd).buyer e.2 ho
  have hbuyer : buyerOf K param s e = r.oCId := by
    rw [buyerOf, hr]
    rfl
  refine .run_bind (run_elementAt _ (hsums e he)) (.run_bind (run_elementAt _ (hbuyers e he)) ?_)
  rw [hbuyer]
  refine (ensures_onTables (h.deliverySubTxn4Single
    (fst_not_mem (nodup_foundOrders K s param.wId) hes) ho hr hc)).mono ?_
  rintro _ _ ⟨t, rfl, h'⟩
  exact ⟨t, rfl, by simpa using h'⟩

theorem deliveryJobs_spec (hs : ∀ d ∈ upTo DISTRICTS_PER_WAREHOUSE, Deliverable K s param.wId d)
    (hnoOIds : (v (.noOIdsVector pos)).length = 11) (hsums : (v (.sumsVector pos)).length = 11)
    (hcIds : (v (.cIdsVector pos)).length = 11) :
    Program.Ensures ok (Program.each (perform K batch)
      (deliveryJobs pos param (foundOrders K s param.wId))) ((s, rand), v) (fun _ w => ∃ s',
        w = ((s', rand), deliveryVectors K param s pos v) ∧
        DeliveryStage K param s (upTo DISTRICTS_PER_WAREHOUSE) (upTo DISTRICTS_PER_WAREHOUSE)
          (upTo DISTRICTS_PER_WAREHOUSE) (upTo DISTRICTS_PER_WAREHOUSE) s') := by
  have hnodup := nodup_foundOrders K s param.wId
  have hdistinct := nodup_districtAt K s param.wId
  have hfound : ∀ e ∈ foundOrders K s param.wId,
      nextOrder K s param.wId e.1 = some e.2 ∧ Deliverable K s param.wId e.1 := fun e he => by
    obtain ⟨hd, ho⟩ := mem_foundOrders.mp he
    exact ⟨ho, hs e.1 hd⟩
  rw [deliveryJobs, Program.each_append, Program.each_append, Program.each_append, Program.each_map,
    Program.each_map, Program.each_map, Program.each_map, Program.bind_assoc, Program.bind_assoc]
  refine .bind (ensures_delivery1 hs hnoOIds) ?_
  rintro _ _ ⟨s₁, rfl, h₁⟩
  refine .bind (ensures_pass (.sumsVector pos) (sumOf K param s) (deliverySubTxn2Single K param)
    (fun before s' => DeliveryStage K param s (upTo DISTRICTS_PER_WAREHOUSE)
      (before.map Prod.fst) [] [] s') (by simp) ?_ ?_ ?_ h₁) ?_
  · intro before e after s' hes h
    obtain ⟨ho, hd⟩ := hfound e (by simp [hes])
    refine (h.deliverySubTxn2Single (fst_not_mem hnodup hes) ho hd).mono ?_
    rintro _ t ⟨rfl, h'⟩
    exact ⟨rfl, by simpa using h'⟩
  · intro e he
    rw [Function.update_self]
    exact getElem?_fill hdistinct he (hnoOIds ▸ districtAt_lt he)
  · intro e he
    rw [Function.update_of_ne (by simp), hsums]
    exact districtAt_lt he
  rintro _ _ ⟨s₂, rfl, h₂⟩
  refine .bind (ensures_pass (.cIdsVector pos) (buyerOf K param s) (deliverySubTxn3Single K param)
    (fun before s' => DeliveryStage K param s (upTo DISTRICTS_PER_WAREHOUSE) _
      (before.map Prod.fst) [] s') (by simp) ?_ ?_ ?_ h₂) ?_
  · intro before e after s' hes h
    obtain ⟨ho, hd⟩ := hfound e (by simp [hes])
    obtain ⟨r, hr, -⟩ := hd.buyer e.2 ho
    refine (h.deliverySubTxn3Single (fst_not_mem hnodup hes) ho hr).mono ?_
    rintro _ t ⟨rfl, h'⟩
    exact ⟨by rw [buyerOf, hr]; rfl, by simpa using h'⟩
  · intro e he
    rw [Function.update_of_ne (by simp), Function.update_self]
    exact getElem?_fill hdistinct he (hnoOIds ▸ districtAt_lt he)
  · intro e he
    rw [Function.update_of_ne (by simp), Function.update_of_ne (by simp), hcIds]
    exact districtAt_lt he
  rintro _ _ ⟨s₃, rfl, h₃⟩
  refine (ensures_delivery4 hs (fun e he => ?_) (fun e he => ?_) h₃).mono ?_
  · rw [Function.update_of_ne (by simp), Function.update_self, Function.update_of_ne (by simp)]
    exact getElem?_fill hdistinct he (hsums ▸ districtAt_lt he)
  · rw [Function.update_self, Function.update_of_ne (by simp), Function.update_of_ne (by simp)]
    exact getElem?_fill hdistinct he (hcIds ▸ districtAt_lt he)
  · rintro _ _ ⟨s₄, rfl, h₄⟩
    refine ⟨s₄, ?_, h₄.all (.refl _)⟩
    rw [deliveryVectors, Function.update_of_ne (by simp), Function.update_of_ne (by simp),
      Function.update_of_ne (by simp)]

end Delivery
/-- The jobs of a payment are its sub-transactions. -/
theorem run_paymentJobs {param : PaymentParam} {t t' : State}
    (h : (TpccSerialProcessor.processPayment param).run t = some ((), t')) :
    (Program.each (perform K batch) (paymentJobs param)).run (t, v) = some ((), (t', v)) := by
  obtain ⟨_, t₁, h₁, h⟩ := Program.run_bind_eq_some.mp h
  obtain ⟨_, t₂, h₂, h⟩ := Program.run_bind_eq_some.mp h
  obtain ⟨_, t₃, h₃, h₄⟩ := Program.run_bind_eq_some.mp h
  have hfirst : (perform K batch (.payment1 param)).run (t, v) = some ((), (t₁, v)) :=
    Program.run_onFst_of h₁ v
  have hsecond : (perform K batch (.payment2 param)).run (t₁, v) = some ((), (t₂, v)) :=
    Program.run_onFst_of h₂ v
  have hthird : (perform K batch (.payment3 param)).run (t₂, v) = some ((), (t₃, v)) :=
    Program.run_onFst_of h₃ v
  have hfourth : (perform K batch (.payment4 param)).run (t₃, v) = some ((), (t', v)) :=
    Program.run_onFst_of h₄ v
  simp only [paymentJobs, Program.run_each_cons, hfirst, hsecond, hthird, hfourth, Option.bind_some,
    Program.run_each_nil]

end ImdbD.Benchmark.TPCC.TpccBatchProcessor
