import ImdbD.TpccStored

/-!
# Calls on the slot tables of TPC-C

The registered tables show the tables of values when they hold a store of records
that does. Every call of a transaction on the bytes of the slots follows the same
call on the values, and a record that was found stays where it is until it is
deleted.
-/
namespace ImdbD.Benchmark.TPCC
open ByteMemory StorageEngine AtomicProgram KeyedStore
open Program (Follows)
open SchemaTables (anyAnswers)

namespace TpccPopulator
variable (K : Constants)

/-- The copies of the partitioned tables. -/
def copies : List TableId :=
  if K.kPartition then
    (List.range K.kPartitionCnt).flatMap (fun i => [.order i, .newOrder i, .orderLine i])
  else [.order 0, .newOrder 0, .orderLine 0]

/-- The tables that `init` registers. -/
def registeredTables : List TableId :=
  [.item, .warehouse, .district, .customer] ++ copies K ++ [.history, .stock, .districtNewOrder]

def init : SchemaTables TableId :=
  (registeredTables K).foldl (fun t id => SchemaTables.registerTable (layout id) t id) (fun _ => none)

variable {K}

theorem mem_copies (w d : ℤ) : (.order (K.offset w d) : TableId) ∈ copies K ∧
    .newOrder (K.offset w d) ∈ copies K ∧ .orderLine (K.offset w d) ∈ copies K := by
  have hcnt : getOrderLineTableOffset w d % K.kPartitionCnt < K.kPartitionCnt :=
    Nat.mod_lt _ K.partitionCnt_pos
  unfold copies Constants.offset
  cases K.kPartition <;> simp [hcnt]

theorem order_registered (w d : ℤ) : .order (K.offset w d) ∈ registeredTables K := by
  simp [registeredTables, (mem_copies w d).1]

theorem newOrder_registered (w d : ℤ) : .newOrder (K.offset w d) ∈ registeredTables K := by
  simp [registeredTables, (mem_copies w d).2.1]

theorem orderLine_registered (w d : ℤ) : .orderLine (K.offset w d) ∈ registeredTables K := by
  simp [registeredTables, (mem_copies w d).2.2]

theorem fixed_registered {id : TableId} (hid : id ∈ [.item, .warehouse, .district, .customer, .history,
    .stock, .districtNewOrder]) : id ∈ registeredTables K := by
  unfold registeredTables
  simp only [List.mem_append, List.mem_cons, List.not_mem_nil, or_false] at hid ⊢
  tauto

end TpccPopulator
open TpccPopulator

namespace RecordBytes

/-- The calls on the slot tables. -/
abbrev Slots : RecordsManager layout (SchemaTables TableId) := SchemaTables.recordsManager layout

/-- The slot tables show the tables of values. -/
def TablesShow (K : Constants) (B : ℤ) (t : SchemaTables TableId) (s : Tables) : Prop :=
  ∃ db, SchemaTables.RepresentsAll layout (· ∈ registeredTables K) t db ∧ Stored B db s

/-- An address that the key leads to. -/
structure Refers (t : SchemaTables TableId) (id : TableId) (k : Key id) (a : Ptr) : Prop where
  fits : KeyFits id k
  located : t.Located id a (keyBytes id k)

/-- The columns written exist, are written once and in full, and belong to no key. -/
structure Overwrites (id : TableId) (params : List (ℕ × Bytes)) : Prop where
  writes : Record.Writes (layout id).schema params
  sizes : ∀ e ∈ params, (layout id).schema.schema.getColumnSize e.1 ≤ e.2.length
  keys : ∀ c ∈ params.map Prod.fst, c ∉ (layout id).schema.schema.primaryCols

/-- The address of a record of a table. -/
abbrev slotAt (id : TableId) (a : Ptr) : Slots.Found id := a

theorem ne_history {id : TableId} (k : Key id) : id ≠ .history := by
  rintro rfl
  exact k.elim

theorem not_keyless {id : TableId} (hid : id ≠ .history) : ¬(layout id).Keyless :=
  (layout_keyed id hid).primary

variable {K : Constants} {B B' : ℤ} {t : SchemaTables TableId} {s : Tables} {id : TableId} {k : Key id}
  {a : Ptr}

namespace TablesShow

theorem mono (h : TablesShow K B t s) (hB : B ≤ B') : TablesShow K B' t s := by
  obtain ⟨db, hrep, hstored⟩ := h
  exact ⟨db, hrep, hstored.mono hB⟩

/-- A program that follows one on a store of records. -/
private theorem follows_trans {α β γ : Type} {p : Program (SchemaTables TableId) α}
    {q : Program (RecordStore layout) β} {r : Program Tables γ} {db : RecordStore layout}
    {Q : α → SchemaTables TableId → β → RecordStore layout → Prop}
    {Q' : β → RecordStore layout → γ → Tables → Prop} {R : α → SchemaTables TableId → γ → Tables → Prop}
    (h : Follows anyAnswers p t q db Q) (h' : Follows anyAnswers q db r s Q')
    (hR : ∀ a t' b db' c s', Q a t' b db' → Q' b db' c s' → R a t' c s') :
    Follows anyAnswers p t r s R := by
  refine ((h.trans h').mono ?_).weaken (fun _ _ _ => trivial)
  rintro a t' c s' ⟨b, db', hq, hq'⟩
  exact hR a t' b db' c s' hq hq'

variable (h : TablesShow K B t s) (hid : id ∈ registeredTables K)
include h hid

/-- A selection by key finds the record of the row, if there is one. -/
theorem selectRecord_follows {params : List (ℕ × Bytes)} (hparams : params = keyParams id k)
    (hk : KeyFits id k) :
    Follows anyAnswers (Slots.selectRecord id params) t (selectRecord (C := tpcc) id k) s
      (fun r t' r' s' => t' = t ∧ s' = s ∧
        if r'.found then ∃ a, r = some a ∧ Refers t id k a ∧ ∃ row, Fitting B id k row else r = none) := by
  subst hparams
  obtain ⟨db, hrep, hstored⟩ := h
  have hslots := SchemaTables.selectRecord_follows hrep.keyed (layout_keyed id (ne_history k))
    ⟨hid, not_keyless (ne_history k)⟩ (valid_keyParams id k)
  refine follows_trans hslots (hstored.selectRecord_follows hk) ?_
  rintro r t' b db' r' s' ⟨rfl, rfl, hrel⟩ ⟨-, rfl, hsome, rfl⟩
  refine ⟨rfl, rfl, ?_⟩
  cases hfound : r'.found with
  | true =>
    obtain ⟨row, hrow⟩ := Option.isSome_iff_exists.mp (hsome.symm.trans hfound)
    rw [hfound, if_pos rfl] at hrel
    cases hrel with
    | some hlocated => exact ⟨_, rfl, ⟨hk, hlocated⟩, row, hstored.fitting id k row hrow⟩
  | false =>
    rw [hfound] at hrel
    cases hrel
    rfl

/-- A record that must be there, or nothing is done. -/
theorem select_bind {γ δ : Type} {f : Slots.Found id → Program (SchemaTables TableId) γ}
    {g : ConstRecord tpcc id k → Program Tables δ} {Q : γ → SchemaTables TableId → δ → Tables → Prop}
    {params : List (ℕ × Bytes)} (hparams : params = keyParams id k) (hnone : (g ⟨false⟩).run s = none)
    (hf : ∀ a, Refers t id k a → Follows anyAnswers (f a) t (g ⟨true⟩) s Q) :
    Follows anyAnswers (Slots.selectRecord id params >>= fun r => Program.fetch r >>= f) t
      (selectRecord (C := tpcc) id k >>= g) s Q := by
  subst hparams
  by_cases hk : KeyFits id k
  · refine .bind (h.selectRecord_follows hid rfl hk) ?_
    rintro r _ ⟨found⟩ _ ⟨rfl, rfl, hr⟩
    cases found with
    | true =>
      obtain ⟨a, rfl, ha, -⟩ := hr
      exact hf a ha
    | false => exact .of_none hnone
  · obtain ⟨db, -, hstored⟩ := h
    refine .of_none ?_
    rw [Program.run_bind, run_selectRecord, hstored.row_eq_none hk]
    exact hnone

theorem select_assert_bind {γ δ : Type} {f : Slots.Found id → Program (SchemaTables TableId) γ}
    {g : ConstRecord tpcc id k → Program Tables δ} {Q : γ → SchemaTables TableId → δ → Tables → Prop}
    {params : List (ℕ × Bytes)} (hparams : params = keyParams id k)
    (hf : ∀ a, Refers t id k a → Follows anyAnswers (f a) t (g ⟨true⟩) s Q) :
    Follows anyAnswers (Slots.selectRecord id params >>= fun r => Program.fetch r >>= f) t
      (selectRecord (C := tpcc) id k >>= fun r => Program.assert r.found >>= fun _ => g r) s Q :=
  h.select_bind hid hparams rfl hf

/-- A column of a record that was found. -/
theorem getColumn_follows (ha : Refers t id k a) {β : Type} {column : Row id → β} (c : ℕ)
    (S : Bytes → β → Prop)
    (hS : ∀ row r, Fitting B id k row → Shows id row r → S (r.getColumn c) (column row)) :
    Follows anyAnswers (Slots.getColumn (slotAt id a) c) t
      (getColumn (⟨true⟩ : ConstRecord tpcc id k) column) s
      (fun b t' x s' => S b x ∧ t' = t ∧ s' = s) := by
  obtain ⟨db, hrep, hstored⟩ := h
  have hslots := SchemaTables.getColumn_follows hrep.keyed ⟨hid, not_keyless (ne_history k)⟩ ha.located c
  refine follows_trans hslots (hstored.getColumn_follows (c := c) (S := S) ?_) ?_
  · exact fun row r hrow hshows => hS row r (hstored.fitting id k row hrow) hshows
  · rintro b t' b' db' x s' ⟨rfl, rfl, -⟩ ⟨hs, -, rfl⟩
    exact ⟨hs, rfl, rfl⟩

theorem getColumn_bind (ha : Refers t id k a) {β γ δ : Type} {column : Row id → β} (c : ℕ)
    (S : Bytes → β → Prop) {f : Bytes → Program (SchemaTables TableId) γ} {g : β → Program Tables δ}
    {Q : γ → SchemaTables TableId → δ → Tables → Prop}
    (hS : ∀ row r, Fitting B id k row → Shows id row r → S (r.getColumn c) (column row))
    (hf : ∀ b x, S b x → Follows anyAnswers (f b) t (g x) s Q) :
    Follows anyAnswers (Slots.getColumn (slotAt id a) c >>= f) t
      (getColumn (⟨true⟩ : ConstRecord tpcc id k) column >>= g) s Q := by
  refine .bind (h.getColumn_follows hid ha c S hS) ?_
  rintro b _ x _ ⟨hs, rfl, rfl⟩
  exact hf b x hs

/-- Writing columns leaves every record where it is. -/
theorem updateRecord_follows (ha : Refers t id k a) {params : List (ℕ × Bytes)}
    (ho : Overwrites id params) {change : Row id → Row id}
    (hchange : ∀ row, Fitting B id k row → Stored.Rewrites B id params row (change row)) :
    Follows anyAnswers (Slots.updateRecord (slotAt id a) params) t
      (updateRecord (⟨true⟩ : ConstRecord tpcc id k) change) s
      (fun _ t' _ s' => TablesShow K B t' s' ∧
        ∀ id' (k' : Key id') b, Refers t id' k' b → Refers t' id' k' b) := by
  obtain ⟨db, hrep, hstored⟩ := h
  have hslots := hrep.updateRecord (layout_keyed id (ne_history k)) hid ha.located
    (fun e he => ⟨ho.writes.2 _ (List.mem_map_of_mem he), ho.sizes e he⟩) ho.keys
  refine follows_trans hslots (hstored.updateRecord_follows ho.writes
    (fun row hrow => hchange row (hstored.fitting id k row hrow))) ?_
  rintro _ t' _ db' _ s' ⟨hrep', hkept⟩ hstored'
  exact ⟨⟨db', hrep', hstored'⟩, fun id' k' b hb => ⟨hb.fits, hkept id' b _ hb.located⟩⟩

/-- Deleting a record leaves those of other tables where they are. -/
theorem deleteRecord_follows (ha : Refers t id k a) (hindex : (layout id).indexCols = none)
    (hplain : ∀ row, indexed id row = none) :
    Follows anyAnswers (Slots.deleteRecord (slotAt id a)) t
      (deleteRecord (⟨true⟩ : ConstRecord tpcc id k)) s
      (fun _ t' _ s' => TablesShow K B t' s' ∧
        ∀ id' (k' : Key id') b, id' ≠ id → Refers t id' k' b → Refers t' id' k' b) := by
  obtain ⟨db, hrep, hstored⟩ := h
  have hslots := hrep.deleteRecord (layout_keyed id (ne_history k)) hid ha.located hindex
  refine follows_trans hslots (hstored.deleteRecord_follows hindex hplain) ?_
  rintro _ t' _ db' _ s' ⟨hrep', hkept⟩ hstored'
  exact ⟨⟨db', hrep', hstored'⟩, fun id' k' b hne hb => ⟨hb.fits, hkept id' b _ hne hb.located⟩⟩

/-- A row of a table without a secondary index. -/
theorem insertRecord_follows {row : Row id} {r : Record (layout id).schema} (hfit : Fitting B id k row)
    (hshows : Shows id row r) (hindex : (layout id).indexCols = none) (hplain : indexed id row = none) :
    Follows anyAnswers (Slots.insertRecord id r) t (insertRecord (C := tpcc) id row) s
      (fun _ t' _ s' => TablesShow K B t' s') := by
  obtain ⟨db, hrep, hstored⟩ := h
  refine follows_trans (hrep.insertRecord (layout_keyed id (ne_history k)) hid r)
    (hstored.insertRecord_follows hfit hshows hindex hplain) ?_
  exact fun _ _ _ db' _ _ hrep' hstored' => ⟨db', hrep', hstored'⟩

omit hid

theorem insertLine_follows {off : ℕ} (hid : .orderLine off ∈ registeredTables K) {row : OrderLineRecord}
    {r : Record (layout (.orderLine off)).schema} (hshows : Shows (.orderLine off) row r)
    (hk : KeyFits (.orderLine off) (row.olOId, row.olDId, row.olWId, row.olNumber)) :
    Follows anyAnswers (Slots.insertRecord (.orderLine off) r) t
      (insertRecord (C := tpcc) (.orderLine off) row) s (fun _ t' _ s' => TablesShow K B t' s') := by
  obtain ⟨db, hrep, hstored⟩ := h
  refine follows_trans (hrep.insertRecord (layout_keyed _ (by simp)) hid r)
    (hstored.insertLine_follows hshows hk) ?_
  exact fun _ _ _ db' _ _ hrep' hstored' => ⟨db', hrep', hstored'⟩

theorem insertHistory_follows {row : HistoryRecord} {r : Record (layout .history).schema}
    (hshows : Shows .history row r) :
    Follows anyAnswers (Slots.insertRecord .history r) t (insertRecord (C := tpcc) .history row) s
      (fun _ t' _ s' => TablesShow K B t' s') := by
  obtain ⟨db, hrep, hstored⟩ := h
  refine follows_trans
    (hrep.insertRecord_keyless (show (layout .history).Keyless from rfl) (fixed_registered (by simp)) r)
    (hstored.insertHistory_follows hshows) ?_
  exact fun _ _ _ db' _ _ hrep' hstored' => ⟨db', hrep', hstored'⟩

/-- The lines of an order that has any. -/
theorem selectLines_follows {off : ℕ} (hid : .orderLine off ∈ registeredTables K) {g : ℤ × ℤ × ℤ}
    (hg : GroupFits g) :
    Follows anyAnswers (Slots.selectRecords (.orderLine off) (keyParams (.newOrder 0) g)) t
      (selectRecords (C := tpcc) (.orderLine off) g) s (fun r t' numbers s' => t' = t ∧ s' = s ∧
        List.Forall₂ (fun a number => Refers t (.orderLine off) (lineKey off g number) a) r numbers) := by
  obtain ⟨db, hrep, hstored⟩ := h
  have hv : (StorageEngine.ColumnPredicates.mk (keyParams (.newOrder 0) g)).Valid
      (layout (.orderLine off)).schema.schema :=
    fun e he => ⟨(groupParams_sizes e he).1, (groupParams_sizes e he).2.ge⟩
  have hslots := SchemaTables.selectRecords_follows hrep.keyed ⟨hid, not_keyless (by simp)⟩ hv
  refine follows_trans hslots (hstored.selectLines_follows hg) ?_
  rintro r t' bs db' numbers s' ⟨rfl, -, hlocated⟩ ⟨-, rfl, rfl, hfits⟩
  refine ⟨rfl, rfl, ?_⟩
  have hboth := (List.forall₂_and_left numbers r).mpr ⟨hfits, (List.forall₂_map_right_iff.mp hlocated).flip⟩
  exact hboth.flip.imp (fun _ _ hline => ⟨hline.1, hline.2⟩)

/-- The lines of an order, which has some, or nothing is done. -/
theorem selectLines_bind {off : ℕ} (hid : .orderLine off ∈ registeredTables K) {g : ℤ × ℤ × ℤ}
    {params : List (ℕ × Bytes)} (hparams : params = keyParams (.newOrder 0) g) {γ δ : Type}
    {f : List (Slots.Found (.orderLine off)) → Program (SchemaTables TableId) γ}
    {f' : List ℤ → Program Tables δ} {Q : γ → SchemaTables TableId → δ → Tables → Prop}
    (hnone : (f' []).run s = none)
    (hf : ∀ r numbers, List.Forall₂ (fun a number => Refers t (.orderLine off) (lineKey off g number) a)
      r numbers → Follows anyAnswers (f r) t (f' numbers) s Q) :
    Follows anyAnswers (Slots.selectRecords (.orderLine off) params >>= f) t
      (selectRecords (C := tpcc) (.orderLine off) g >>= f') s Q := by
  subst hparams
  by_cases hg : GroupFits g
  · refine .bind (h.selectLines_follows hid hg) ?_
    rintro r _ numbers _ ⟨rfl, rfl, hrel⟩
    exact hf r numbers hrel
  · obtain ⟨db, -, hstored⟩ := h
    have hempty : s.groups (.orderLine off) g = [] := by
      refine List.eq_nil_iff_forall_not_mem.mpr (fun number hmem => hg (fun e he => ?_))
      exact hstored.numbers off g number hmem e
        (List.mem_of_mem_dropLast (l := keyInts (.orderLine off) _) he)
    refine .of_none ?_
    rw [Program.run_bind, run_selectRecords, hempty]
    exact hnone

end TablesShow
end RecordBytes
end ImdbD.Benchmark.TPCC
