import ImdbD.TpccProcessor
import ImdbD.KeyedLockstep

/-!
# Partitions of the order tables of TPC-C

Two runs with different partitions, beside each other. Every row has a name,
which tells its copy of the table; the rows of one name are the same in both
runs, and every row lies in the copy that its name tells and in no other.
-/
namespace ImdbD.Benchmark.TPCC
open AtomicProgram KeyedStore
open Program (Follows)

/-- A row by its primary key. -/
inductive RowName where
  | item (i : ℤ)
  | warehouse (w : ℤ)
  | district (d w : ℤ)
  | customer (c d w : ℤ)
  | stock (i w : ℤ)
  | districtNewOrder (w d : ℤ)
  | order (o d w : ℤ)
  | newOrder (o d w : ℤ)
  | orderLine (o d w number : ℤ)
  deriving DecidableEq

/-- The table that a row is routed to. -/
abbrev RowName.table (K : Constants) : RowName → TableId
  | item _ => .item
  | warehouse _ => .warehouse
  | district _ _ => .district
  | customer _ _ _ => .customer
  | stock _ _ => .stock
  | districtNewOrder _ _ => .districtNewOrder
  | order _ d w => .order (K.offset w d)
  | newOrder _ d w => .newOrder (K.offset w d)
  | orderLine _ d w _ => .orderLine (K.offset w d)

abbrev RowName.key (K : Constants) : ∀ n : RowName, Key (n.table K)
  | item i => i
  | warehouse w => w
  | district d w => (d, w)
  | customer c d w => (c, d, w)
  | stock i w => (i, w)
  | districtNewOrder w d => (w, d)
  | order o d w => (o, d, w)
  | newOrder o d w => (o, d, w)
  | orderLine o d w number => (o, d, w, number)

def RowName.place (K : Constants) (n : RowName) : Σ id, Key id := ⟨n.table K, n.key K⟩

theorem RowName.place_injective (K : Constants) : Function.Injective (place K) := by
  intro n n' h
  cases n <;> cases n' <;> simp_all [place, table, key]

/-- A row of any table, whatever copy it lies in. -/
inductive LogicalRow where
  | item (r : ItemRecord)
  | warehouse (r : WarehouseRecord)
  | district (r : DistrictRecord)
  | customer (r : CustomerRecord)
  | history (r : HistoryRecord)
  | stock (r : StockRecord)
  | districtNewOrder (r : DistrictNewOrderRecord)
  | order (r : OrderRecord)
  | newOrder (r : NewOrderRecord)
  | orderLine (r : OrderLineRecord)

abbrev logical : ∀ id, Row id → LogicalRow
  | .item, r => .item r
  | .warehouse, r => .warehouse r
  | .district, r => .district r
  | .customer, r => .customer r
  | .history, r => .history r
  | .stock, r => .stock r
  | .districtNewOrder, r => .districtNewOrder r
  | .order _, r => .order r
  | .newOrder _, r => .newOrder r
  | .orderLine _, r => .orderLine r

/-- The logical database: the rows of all tables, with the copies of a table put together. -/
def logicalRows (s : Tables) : Set LogicalRow :=
  { l | ∃ id, (∃ k r, s.row id k = some r ∧ logical id r = l) ∨ ∃ r ∈ s.heap id, logical id r = l }

/-- Every row lies where its name tells, in this copy of its table and in no other. -/
def Routed (K : Constants) (s : Tables) : Prop :=
  ∀ id k, (s.row id k).isSome → ∃ n : RowName, n.place K = ⟨id, k⟩

variable {K K' : Constants} {s t : Tables}

/-- The rows of one name are the same. -/
structure Alike (K K' : Constants) (s t : Tables) : Prop where
  row : ∀ n : RowName, (s.row (n.table K) (n.key K)).map (logical _) =
    (t.row (n.table K') (n.key K')).map (logical _)
  lines : ∀ o d w, s.groups (.orderLine (K.offset w d)) (o, d, w) =
    t.groups (.orderLine (K'.offset w d)) (o, d, w)
  heap : ∀ id, s.heap id = t.heap id
  left : Routed K s
  right : Routed K' t

theorem Alike.empty : Alike K K' (.empty : Tables) .empty where
  row _ := rfl
  lines _ _ _ := rfl
  heap _ := rfl
  left _ _ h := nomatch h
  right _ _ h := nomatch h

theorem Routed.setRow (h : Routed K s) (n : RowName) (r : Row (n.table K)) :
    Routed K (s.setRow (n.table K) (n.key K) r) := by
  intro id k hk
  by_cases he : (⟨id, k⟩ : Σ id, Key id) = n.place K
  · exact ⟨n, he.symm⟩
  · rw [Store.row_setRow_of_ne s r he] at hk
    exact h id k hk

theorem Routed.eraseRow (h : Routed K s) (n : RowName) :
    Routed K (s.eraseRow (n.table K) (n.key K)) := by
  intro id k hk
  by_cases he : (⟨id, k⟩ : Σ id, Key id) = n.place K
  · exact ⟨n, he.symm⟩
  · rw [Store.row_eraseRow_of_ne s he] at hk
    exact h id k hk

namespace Alike
variable (h : Alike K K' s t) (n : RowName)
include h

theorem isSome : (s.row (n.table K) (n.key K)).isSome = (t.row (n.table K') (n.key K')).isSome := by
  have hrow := congrArg Option.isSome (h.row n)
  simpa only [Option.isSome_map] using hrow

theorem setRow {r : Row (n.table K)} {r' : Row (n.table K')} (hr : logical _ r = logical _ r') :
    Alike K K' (s.setRow (n.table K) (n.key K) r) (t.setRow (n.table K') (n.key K') r') where
  row n' := by
    by_cases he : n' = n
    · subst he
      rw [Store.row_setRow_self, Store.row_setRow_self, Option.map_some, Option.map_some, hr]
    · rw [Store.row_setRow_of_ne s r (fun hp => he (RowName.place_injective K hp)),
        Store.row_setRow_of_ne t r' (fun hp => he (RowName.place_injective K' hp))]
      exact h.row n'
  lines := h.lines
  heap := h.heap
  left := h.left.setRow n r
  right := h.right.setRow n r'

theorem eraseRow : Alike K K' (s.eraseRow (n.table K) (n.key K)) (t.eraseRow (n.table K') (n.key K')) where
  row n' := by
    by_cases he : n' = n
    · subst he
      rw [Store.row_eraseRow_self, Store.row_eraseRow_self]
      rfl
    · rw [Store.row_eraseRow_of_ne s (fun hp => he (RowName.place_injective K hp)),
        Store.row_eraseRow_of_ne t (fun hp => he (RowName.place_injective K' hp))]
      exact h.row n'
  lines := h.lines
  heap := h.heap
  left := h.left.eraseRow n
  right := h.right.eraseRow n

theorem append (r : HistoryRecord) : Alike K K' (s.append .history r) (t.append .history r) where
  row := h.row
  lines := h.lines
  heap id := by
    by_cases he : id = .history
    · subst he
      rw [Store.heap_append_self, Store.heap_append_self, h.heap]
    · rw [Store.heap_append_other s r he, Store.heap_append_other t r he]
      exact h.heap id
  left := h.left
  right := h.right

theorem selectRecord : Follows SameAnswer (selectRecord (C := tpcc) (n.table K) (n.key K)) s
    (KeyedStore.selectRecord (C := tpcc) (n.table K') (n.key K')) t
    (fun r s' r' t' => r.found = r'.found ∧ s' = s ∧ t' = t) :=
  selectRecord_follows (h.isSome n)

variable {record : ConstRecord tpcc (n.table K) (n.key K)}
  {record' : ConstRecord tpcc (n.table K') (n.key K')}

theorem getColumn {β : Type} {column : Row (n.table K) → β} {column' : Row (n.table K') → β}
    (hfound : record.found = record'.found)
    (hcolumn : ∀ r r', logical _ r = logical _ r' → column r = column' r') :
    Follows SameAnswer (getColumn record column) s (KeyedStore.getColumn record' column') t
      (fun x s' y t' => x = y ∧ s' = s ∧ t' = t) := by
  refine getColumn_follows hfound ?_
  have hrow := h.row n
  cases hs : s.row (n.table K) (n.key K) with
  | none =>
    rw [hs, Option.map_none] at hrow
    rw [Option.map_eq_none_iff.mp hrow.symm]
    rfl
  | some r =>
    rw [hs, Option.map_some] at hrow
    obtain ⟨r', ht, hr⟩ := Option.map_eq_some_iff.mp hrow.symm
    rw [ht, Option.map_some, Option.map_some, hcolumn r r' hr.symm]

theorem updateRecord {change : Row (n.table K) → Row (n.table K)}
    {change' : Row (n.table K') → Row (n.table K')} (hfound : record.found = record'.found)
    (hchange : ∀ r r', logical _ r = logical _ r' → logical _ (change r) = logical _ (change' r')) :
    Follows SameAnswer (updateRecord record change) s (KeyedStore.updateRecord record' change') t
      (fun _ s _ t => Alike K K' s t) := by
  refine updateRecord_follows hfound (h.isSome n) (fun r r' hr hr' => h.setRow n (hchange r r' ?_))
  have hrow := h.row n
  rw [hr, hr'] at hrow
  exact Option.some.inj hrow

theorem deleteRecord (hfound : record.found = record'.found)
    (hi : ∀ r, tpcc.indexed (n.table K) r = none) (hi' : ∀ r, tpcc.indexed (n.table K') r = none) :
    Follows SameAnswer (deleteRecord record) s (KeyedStore.deleteRecord record') t
      (fun _ s _ t => Alike K K' s t) := by
  refine deleteRecord_follows hfound (h.isSome n) (fun r r' _ _ => ?_)
  rw [hi, hi']
  exact h.eraseRow n

variable {r : Row (n.table K)} {r' : Row (n.table K')}

theorem insertRecord (hk : primaryKey _ r = some (n.key K)) (hk' : primaryKey _ r' = some (n.key K'))
    (hi : tpcc.indexed (n.table K) r = none) (hi' : tpcc.indexed (n.table K') r' = none)
    (hr : logical _ r = logical _ r') :
    Follows SameAnswer (insertRecord (C := tpcc) (n.table K) r) s
      (KeyedStore.insertRecord (C := tpcc) (n.table K') r') t (fun _ s _ t => Alike K K' s t) := by
  refine insertRecord_follows hk hk' (h.isSome n) ?_
  rw [hi, hi']
  exact h.setRow n hr

omit n in
theorem insertHistory (r : HistoryRecord) :
    Follows SameAnswer (KeyedStore.insertRecord (C := tpcc) .history r) s
      (KeyedStore.insertRecord (C := tpcc) .history r) t (fun _ s _ t => Alike K K' s t) :=
  insertRecord_heap_follows rfl rfl (h.append r)

omit n in
theorem selectLines (o d w : ℤ) :
    Follows SameAnswer (selectRecords (C := tpcc) (.orderLine (K.offset w d)) (o, d, w)) s
      (selectRecords (C := tpcc) (.orderLine (K'.offset w d)) (o, d, w)) t
      (fun r s' r' t' => r = r' ∧ s' = s ∧ t' = t) := by
  have hm : tpcc.Member (.orderLine (K.offset w d)) = tpcc.Member (.orderLine (K'.offset w d)) := rfl
  have hselect := selectRecords_follows hm (heq_of_eq (h.lines o d w))
  exact hselect.mono (fun _ _ _ _ hr => ⟨eq_of_heq hr.1, hr.2⟩)

end Alike

private theorem groups_enterLine (s : Tables) (o d w i o' d' w' : ℤ) :
    (s.enter (.orderLine (K.offset w d)) (some ((o, d, w), i))).groups (.orderLine (K.offset w' d'))
      (o', d', w') = if (o', d', w') = (o, d, w) then i :: s.groups (.orderLine (K.offset w d)) (o, d, w)
        else s.groups (.orderLine (K.offset w' d')) (o', d', w') := by
  split
  · rename_i he
    obtain ⟨rfl, rfl, rfl⟩ : o' = o ∧ d' = d ∧ w' = w := by simpa using he
    exact Store.groups_enter_self s _ _
  · rename_i hne
    by_cases hoff : K.offset w' d' = K.offset w d
    · rw [hoff]
      exact Store.groups_enter_ne s _ hne
    · have hid : (.orderLine (K.offset w' d') : TableId) ≠ .orderLine (K.offset w d) :=
        fun he => hoff (TableId.orderLine.inj he)
      exact Store.groups_enter_other s hid _ _

theorem Alike.insertLine (h : Alike K K' s t) (r : OrderLineRecord) :
    Follows SameAnswer (KeyedStore.insertRecord (C := tpcc) (.orderLine (K.offset r.olWId r.olDId)) r) s
      (KeyedStore.insertRecord (C := tpcc) (.orderLine (K'.offset r.olWId r.olDId)) r) t
      (fun _ s _ t => Alike K K' s t) := by
  have hset : Alike K K' (s.setRow (.orderLine (K.offset r.olWId r.olDId)) _ r)
      (t.setRow (.orderLine (K'.offset r.olWId r.olDId)) _ r) :=
    h.setRow (.orderLine r.olOId r.olDId r.olWId r.olNumber) rfl
  have hrow := h.isSome (.orderLine r.olOId r.olDId r.olWId r.olNumber)
  refine insertRecord_follows rfl rfl hrow ⟨fun n => ?_, fun o d w => ?_, fun id => ?_, ?_, ?_⟩
  · rw [Store.row_enter, Store.row_enter]
    exact hset.row n
  · refine (groups_enterLine _ r.olOId r.olDId r.olWId r.olNumber o d w).trans (Eq.trans ?_
      (groups_enterLine _ r.olOId r.olDId r.olWId r.olNumber o d w).symm)
    rw [hset.lines, hset.lines]
  · rw [Store.heap_enter, Store.heap_enter]
    exact hset.heap id
  · intro id k hk
    rw [Store.row_enter] at hk
    exact hset.left id k hk
  · intro id k hk
    rw [Store.row_enter] at hk
    exact hset.right id k hk

end ImdbD.Benchmark.TPCC
