import ImdbD.TatpSimulation

/-!
# TATP over tables with slots and indexes

The tables that `init` registers take every call of the populator and of the
transactions, and answer as the store of records does.
-/
namespace ImdbD.Benchmark.TATP
open ByteMemory StorageEngine AtomicProgram TatpPopulator

variable {K : Constants}

/-- Every subscriber is routed to registered tables. -/
theorem Constants.route_registered (K : Constants) (kind : TableKind) (sId : Int32) :
    K.route kind sId ∈ registered K := by
  have hcnt : toSize sId % K.kPartitionCnt < K.kPartitionCnt := Nat.mod_lt _ K.partitionCnt_pos
  cases kind with
  | subscriber => exact List.mem_cons_self
  | accessInfo | specialFacility | callForwarding =>
    simp only [registered, Constants.route, Constants.offset]
    cases K.kPartition <;> simp [hcnt]

/-- Every row belongs to a registered table. -/
theorem RowName.table_registered (K : Constants) (n : RowName) : n.table K ∈ registered K := by
  cases n with
  | subscriber sId => exact K.route_registered .subscriber sId
  | accessInfo sId _ => exact K.route_registered .accessInfo sId
  | specialFacility sId _ => exact K.route_registered .specialFacility sId
  | callForwarding sId _ _ => exact K.route_registered .callForwarding sId

private theorem valid_cons {S : BuiltSchema} {id : ℕ} {value : Bytes} {entries : List (ℕ × Bytes)}
    (hcount : id < S.schema.columnCount) (hsize : S.schema.getColumnSize id ≤ value.length)
    (h : (ColumnPredicates.mk entries).Valid S.schema) :
    (ColumnPredicates.mk ((id, value) :: entries)).Valid S.schema :=
  List.forall_mem_cons.mpr ⟨⟨hcount, hsize⟩, h⟩

private theorem valid_nil {S : BuiltSchema} : (ColumnPredicates.mk []).Valid S.schema :=
  List.forall_mem_nil _

theorem Selection.valid {kind : TableKind} {sId : Int32} {params : List (ℕ × Bytes)}
    (h : Selection kind sId params) :
    (ColumnPredicates.mk params).Valid (layout (K.route kind sId)).schema.schema := by
  cases h with
  | subNbr _ subNbr =>
    exact valid_cons (S := TatpSchema.getSubscriberSchema) (by decide)
      (subNbr.length_read 15).ge valid_nil
  | subscriber =>
    exact valid_cons (S := TatpSchema.getSubscriberSchema) (by decide)
      (length_int32Bytes sId).ge valid_nil
  | accessInfo _ aiType =>
    exact valid_cons (S := TatpSchema.getAccessInfoSchema) (by decide)
      (length_int32Bytes sId).ge (valid_cons (by decide) (length_int8Bytes aiType).ge valid_nil)
  | facilities =>
    exact valid_cons (S := TatpSchema.getSpecialFacilitySchema) (by decide)
      (length_int32Bytes sId).ge valid_nil
  | specialFacility _ sfType =>
    exact valid_cons (S := TatpSchema.getSpecialFacilitySchema) (by decide)
      (length_int32Bytes sId).ge (valid_cons (by decide) (length_int8Bytes sfType).ge valid_nil)
  | callForwarding _ sfType startTime =>
    exact valid_cons (S := TatpSchema.getCallForwardingSchema) (by decide)
      (length_int32Bytes sId).ge (valid_cons (by decide) (length_int8Bytes sfType).ge
        (valid_cons (by decide) (length_int8Bytes startTime).ge valid_nil))

theorem Overwrite.valid {kind : TableKind} {params : List (ℕ × Bytes)} (h : Overwrite kind params)
    (sId : Int32) : (ColumnPredicates.mk params).Valid (layout (K.route kind sId)).schema.schema := by
  cases h with
  | vlrLocation vlrLocation =>
    exact valid_cons (S := TatpSchema.getSubscriberSchema) (by decide)
      (length_int32Bytes vlrLocation).ge valid_nil
  | bit1 bit1 =>
    exact valid_cons (S := TatpSchema.getSubscriberSchema) (by decide)
      (length_int8Bytes bit1).ge valid_nil
  | dataA dataA =>
    exact valid_cons (S := TatpSchema.getSpecialFacilitySchema) (by decide)
      (length_int16Bytes dataA).ge valid_nil

private theorem Overwrite.notPrimary {kind : TableKind} {params : List (ℕ × Bytes)}
    (h : Overwrite kind params) (sId : Int32) :
    ∀ c ∈ params.map Prod.fst, c ∉ (layout (K.route kind sId)).schema.schema.primaryCols := by
  cases h with
  | vlrLocation =>
    exact (by decide : ∀ c ∈ [33], c ∉ TatpSchema.getSubscriberSchema.schema.primaryCols)
  | bit1 =>
    exact (by decide : ∀ c ∈ [2], c ∉ TatpSchema.getSubscriberSchema.schema.primaryCols)
  | dataA =>
    exact (by decide : ∀ c ∈ [4], c ∉ TatpSchema.getSpecialFacilitySchema.schema.primaryCols)

/-- The registered tables follow the store of records. -/
def tableSimulation (K : Constants) :
    Simulation SchemaTables.anyAnswers (SchemaTables.manager layout) K (RecordStore.manager layout) K
      (SchemaTables.Represents layout (· ∈ registered K)) where
  Same kind sId t _ a k := SchemaTables.Located t (K.route kind sId) a k
  selectRecord hsel h :=
    SchemaTables.selectRecord_follows h (layout_keyed _) (K.route_registered _ _) hsel.valid
  getColumn h ha column := SchemaTables.getColumn_follows h (K.route_registered _ _) ha column
  updateRecord h ha hover :=
    SchemaTables.updateRecord_follows h (layout_keyed _) (K.route_registered _ _) ha (hover.valid _)
      (hover.notPrimary _)
  deleteRecord h ha :=
    SchemaTables.deleteRecord_follows h (K.route_registered .callForwarding _) ha rfl
  insertRecord n e e' s t h he he' hdata _ := by
    obtain ⟨id, r⟩ := e
    obtain ⟨id', r'⟩ := e'
    obtain rfl : id = id' := he.trans he'.symm
    obtain rfl : r = r' := Record.data_injective hdata
    obtain rfl : id = n.table K := he
    exact SchemaTables.insertRecord_follows h (layout_keyed _) (n.table_registered K) r

theorem represents_init (K : Constants) :
    SchemaTables.Represents layout (· ∈ registered K) (init K) (.empty : Tables) :=
  SchemaTables.registerTables_induct
    (R := fun used t => SchemaTables.Represents layout used t (.empty : Tables))
    (fun _ hused => hused.elim)
    (fun _ _ id h => h.registerTable (layout_keyed id) (fun _ => rfl) (fun _ => rfl)) (registered K)

end ImdbD.Benchmark.TATP
