import ImdbD.RangeRegistry
import ImdbD.TatpTables
import ImdbD.TpccSchema
import ImdbD.TableStorage

/-!
# The tables registered for a partition count

`main` takes the partition count from the command line as it stands. `init`
registers that many copies of every partitioned table, and a copy is reached
through the remainder by the same count.
-/
namespace ImdbD.Benchmark
open StorageEngine RangeRegistry

/-- `kPartitionCnt = atoi(argv[3])`, an `int` put into a `size_t`. -/
def kPartitionCnt (partitionNum : Int32) : ℕ := (partitionNum.toInt % 2 ^ 64).toNat

/-- `kPartition = atoi(argv[3]) == 1 ? false : true`. -/
def kPartition (partitionNum : Int32) : Bool := if partitionNum = 1 then false else true

/-- `kPartition ? n % kPartitionCnt : 0`; a remainder by zero is undefined. -/
def partitionOffset (partitionNum : Int32) (n : ℕ) : Option ℕ :=
  if kPartition partitionNum then
    if kPartitionCnt partitionNum = 0 then none else some (n % kPartitionCnt partitionNum)
  else some 0

private theorem kPartitionCnt_lt (partitionNum : Int32) : kPartitionCnt partitionNum < 2 ^ 64 := by
  have hnonneg := Int.emod_nonneg partitionNum.toInt (b := 2 ^ 64) (by decide)
  have hlt := Int.emod_lt_of_pos partitionNum.toInt (b := 2 ^ 64) (by decide)
  unfold kPartitionCnt
  omega

private theorem kPartitionCnt_eq_iff (partitionNum : Int32) {cnt : ℕ} (h : cnt < 2 ^ 31) :
    kPartitionCnt partitionNum = cnt ↔ partitionNum.toInt = cnt := by
  have hlower := Int32.le_toInt partitionNum
  have hupper := Int32.toInt_lt partitionNum
  unfold kPartitionCnt
  omega

private theorem partitionCnt_range_iff (partitionNum : Int32) :
    (0 < kPartitionCnt partitionNum ∧ kPartitionCnt partitionNum ≤ 100) ↔
      1 ≤ partitionNum.toInt ∧ partitionNum.toInt ≤ 100 := by
  have hlower := Int32.le_toInt partitionNum
  have hupper := Int32.toInt_lt partitionNum
  unfold kPartitionCnt
  omega

theorem kPartitionCnt_one : kPartitionCnt 1 = 1 := by decide

/-- One partition counts as none, and its remainder is zero as well. -/
theorem partitionOffset_eq (partitionNum : Int32) (n : ℕ) :
    partitionOffset partitionNum n =
      if kPartitionCnt partitionNum = 0 then none else some (n % kPartitionCnt partitionNum) := by
  unfold partitionOffset kPartition
  by_cases h : partitionNum = 1
  · subst h
    simp [kPartitionCnt_one, Nat.mod_one]
  · simp [h]

section
variable {ι : Type} (number : ι → ℕ) (layout : ι → TableLayout)

/-- The table that is registered for an identifier. -/
def registered (id : ι) : SchemaTable :=
  SchemaTable.new (layout id).schema.schema (layout id).indexCols.toList

/-- `registerTable` under the number of a table, a `size_t`. -/
def register (t : SchemaTables ℕ) (id : ι) : SchemaTables ℕ :=
  SchemaTables.registerTable (layout id) t (number id % 2 ^ 64)

/-- Under the number of a table a table of its own family is found. -/
def Reaches (t : SchemaTables ℕ) (id : ι) : Prop :=
  t (number id % 2 ^ 64) = some (registered layout id)

variable {number layout} {t : SchemaTables ℕ} {id id' : ι}

/-- A table is told from another by its schema. -/
theorem registered_ne (h : (layout id).schema.schema ≠ (layout id').schema.schema) :
    registered layout id ≠ registered layout id' :=
  fun he => h (congrArg SchemaTable.schema he)

end

end ImdbD.Benchmark

namespace ImdbD.Benchmark.TPCC
open StorageEngine RangeRegistry

namespace TableNumbers

def init (partitionNum : Int32) : SchemaTables ℕ :=
  let add := register TableId.number layout
  let t := [.item, .warehouse, .district, .customer].foldl add (fun _ => none)
  let t :=
    if kPartition partitionNum then
      (List.range (kPartitionCnt partitionNum)).foldl
        (fun t i => [.order i, .newOrder i, .orderLine i].foldl add t) t
    else [.order 0, .newOrder 0, .orderLine 0].foldl add t
  [.history, .stock, .districtNewOrder].foldl add t

/-- The partitioned tables. -/
def ranges : Ranges SchemaTable where
  word := 2 ^ 64
  base := 7
  width := MAX_PARTITION_CNT
  first := registered layout (.order 0)
  second := registered layout (.newOrder 0)
  third := registered layout (.orderLine 0)

def leading : SchemaTables ℕ :=
  [.item, .warehouse, .district, .customer].foldl (register TableId.number layout) (fun _ => none)

def trailing (t : SchemaTables ℕ) : SchemaTables ℕ :=
  [.history, .stock, .districtNewOrder].foldl (register TableId.number layout) t

/-- Unpartitioned tables are those of one round. -/
theorem init_eq (partitionNum : Int32) :
    init partitionNum = trailing (ranges.fill leading (kPartitionCnt partitionNum)) := by
  unfold init kPartition
  by_cases h : partitionNum = 1
  · subst h
    rw [if_pos rfl, kPartitionCnt_one]
    rfl
  · rw [if_neg h]
    rfl

private theorem trailing_of_le {t : SchemaTables ℕ} {id : ℕ} (h : 7 ≤ id) : trailing t id = t id := by
  have hne : ∀ id' ∈ [4, 5, 6], id ≠ id' := by
    simp only [List.mem_cons, List.not_mem_nil, or_false, forall_eq_or_imp, forall_eq]
    omega
  simp only [List.mem_cons, List.not_mem_nil, or_false, forall_eq_or_imp, forall_eq] at hne
  obtain ⟨hhistory, hstock, hdistrict⟩ := hne
  exact (Function.update_of_ne hdistrict ..).trans
    ((Function.update_of_ne hstock ..).trans (Function.update_of_ne hhistory ..))

private theorem trailing_of_lt {t : SchemaTables ℕ} {id : ℕ} (h : id < 4) : trailing t id = t id :=
  (Function.update_of_ne (by omega : id ≠ 6) ..).trans
    ((Function.update_of_ne (by omega : id ≠ 5) ..).trans
      (Function.update_of_ne (by omega : id ≠ 4) ..))

/-- What the loop left under the number of a partitioned table. -/
theorem init_of_le (partitionNum : Int32) {id : ℕ} (h : 7 ≤ id) :
    init partitionNum id = ranges.fill leading (kPartitionCnt partitionNum) id := by
  rw [init_eq, trailing_of_le h]

variable {partitionNum : Int32}

/-- No partitioned table comes to lie on a table without copies. -/
theorem reaches_fixed (h : kPartitionCnt partitionNum ≤ MAX_PARTITION_CNT) {id : TableId}
    (hid : id ∈ [.item, .warehouse, .district, .customer, .history, .stock, .districtNewOrder]) :
    Reaches TableId.number layout (init partitionNum) id := by
  have hword : ranges.base + ranges.width * 2 + kPartitionCnt partitionNum ≤ ranges.word := by
    simp only [ranges, MAX_PARTITION_CNT] at h ⊢
    omega
  have hlead : ∀ id < 4, init partitionNum id = leading id := by
    intro id hid
    rw [init_eq, trailing_of_lt hid]
    exact Ranges.fill_below hword (hid.trans (by decide))
  simp only [List.mem_cons, List.not_mem_nil, or_false] at hid
  rcases hid with rfl | rfl | rfl | rfl | rfl | rfl | rfl
  · exact hlead 0 (by decide)
  · exact hlead 1 (by decide)
  · exact hlead 2 (by decide)
  · exact hlead 3 (by decide)
  all_goals
    rw [init_eq]
    rfl

/-- Every copy is registered while no range reaches the next. -/
theorem reaches_copies (h : kPartitionCnt partitionNum ≤ MAX_PARTITION_CNT) {offset : ℕ}
    (hoffset : offset < kPartitionCnt partitionNum) {id : TableId}
    (hid : id ∈ [.order offset, .newOrder offset, .orderLine offset]) :
    Reaches TableId.number layout (init partitionNum) id := by
  have hle : kPartitionCnt partitionNum ≤ ranges.width + offset := h.trans (Nat.le_add_right _ _)
  unfold MAX_PARTITION_CNT at h
  have hword : ranges.base + ranges.width * 2 + kPartitionCnt partitionNum ≤ ranges.word := by
    simp only [ranges, MAX_PARTITION_CNT]
    omega
  have hmod : ∀ base ≤ 300, (base + offset) % 2 ^ 64 = base + offset :=
    fun base hbase => Nat.mod_eq_of_lt (by omega)
  simp only [List.mem_cons, List.not_mem_nil, or_false] at hid
  rcases hid with rfl | rfl | rfl
  · rw [Reaches, show TableId.number (.order offset) = 7 + offset from rfl, hmod _ (by decide),
      init_of_le _ (by omega)]
    exact Ranges.fill_first (by decide) hword hoffset
  · rw [Reaches, show TableId.number (.newOrder offset) = 107 + offset from rfl,
      hmod _ (by decide), init_of_le _ (by omega)]
    exact Ranges.fill_second (by decide) hword hoffset hle
  · rw [Reaches, show TableId.number (.orderLine offset) = 207 + offset from rfl,
      hmod _ (by decide), init_of_le _ (by omega)]
    exact Ranges.fill_third hword hoffset hle

/-- Beyond, the new orders of the first copy lie in a table of another family. -/
theorem not_reaches_newOrder (h : MAX_PARTITION_CNT < kPartitionCnt partitionNum) :
    ¬ Reaches TableId.number layout (init partitionNum) (.newOrder 0) := by
  intro hreaches
  have hreaches : init partitionNum 107 = some (registered layout (.newOrder 0)) := hreaches
  rw [init_of_le _ (by decide)] at hreaches
  rcases Ranges.fill_overrun ranges leading 0 (by decide) (by decide) h
    (kPartitionCnt_lt partitionNum).le with hfirst | hthird
  · have he := Option.some.inj (hfirst.symm.trans hreaches)
    exact registered_ne (show TpccSchema.getOrderSchema.schema ≠
      TpccSchema.getNewOrderSchema.schema by decide) he
  · have he := Option.some.inj (hthird.symm.trans hreaches)
    exact registered_ne (show TpccSchema.getOrderLineSchema.schema ≠
      TpccSchema.getNewOrderSchema.schema by decide) he

end TableNumbers

/-- Every table that the processors and the populator use is one of its family; those of a
district are reached through the offset of its copy. -/
structure RoutesWell (params : ScaleParams) (partitionNum : Int32) : Prop where
  fixed : ∀ id ∈ [.item, .warehouse, .district, .customer, .history, .stock, .districtNewOrder],
    Reaches TableId.number layout (TableNumbers.init partitionNum) id
  district : ∀ wId dId : ℤ, 1 ≤ wId → wId ≤ params.numWarehouses → 1 ≤ dId →
    dId ≤ DISTRICTS_PER_WAREHOUSE →
    ∃ offset, partitionOffset partitionNum (getOrderLineTableOffset wId dId) = some offset ∧
      ∀ id ∈ [.order offset, .newOrder offset, .orderLine offset],
        Reaches TableId.number layout (TableNumbers.init partitionNum) id

theorem routesWell_of_le {params : ScaleParams} {partitionNum : Int32}
    (hpos : 0 < kPartitionCnt partitionNum)
    (hle : kPartitionCnt partitionNum ≤ MAX_PARTITION_CNT) : RoutesWell params partitionNum where
  fixed _ hid := TableNumbers.reaches_fixed hle hid
  district wId dId _ _ _ _ := by
    refine ⟨getOrderLineTableOffset wId dId % kPartitionCnt partitionNum, ?_, fun id hid => ?_⟩
    · rw [partitionOffset_eq, if_neg (Nat.ne_of_gt hpos)]
    · exact TableNumbers.reaches_copies hle (Nat.mod_lt _ hpos) hid

/-- The first district alone already needs a count in range. -/
theorem RoutesWell.partitionCnt {params : ScaleParams} {partitionNum : Int32}
    (h : RoutesWell params partitionNum) (hwarehouse : 1 ≤ params.numWarehouses) :
    0 < kPartitionCnt partitionNum ∧ kPartitionCnt partitionNum ≤ MAX_PARTITION_CNT := by
  obtain ⟨offset, hoffset, hreaches⟩ := h.district 1 1 (by decide) (by exact_mod_cast hwarehouse)
    (by decide) (by decide)
  rw [partitionOffset_eq] at hoffset
  split at hoffset
  · cases hoffset
  · rename_i hne
    have hzero : offset = 0 := by
      rw [← Option.some.inj hoffset]
      exact Nat.zero_mod _
    subst hzero
    refine ⟨Nat.pos_of_ne_zero hne, Nat.le_of_not_lt fun hlt => ?_⟩
    exact TableNumbers.not_reaches_newOrder hlt
      (hreaches (.newOrder 0) (List.mem_cons_of_mem _ List.mem_cons_self))

end ImdbD.Benchmark.TPCC

namespace ImdbD.Benchmark.TATP
open StorageEngine RangeRegistry

namespace TableNumbers

def init (partitionNum : Int32) : SchemaTables ℕ :=
  let add := register TableId.number layout
  let t := add (fun _ => none) .subscriber
  if kPartition partitionNum then
    (List.range (kPartitionCnt partitionNum)).foldl
      (fun t i => [.accessInfo i, .specialFacility i, .callForwarding i].foldl add t) t
  else [.accessInfo 0, .specialFacility 0, .callForwarding 0].foldl add t

/-- The partitioned tables. -/
def ranges : Ranges SchemaTable where
  word := 2 ^ 64
  base := MAX_PARTITION_CNT
  width := MAX_PARTITION_CNT
  first := registered layout (.accessInfo 0)
  second := registered layout (.specialFacility 0)
  third := registered layout (.callForwarding 0)

def leading : SchemaTables ℕ := register TableId.number layout (fun _ => none) .subscriber

/-- Unpartitioned tables are those of one round. -/
theorem init_eq (partitionNum : Int32) :
    init partitionNum = ranges.fill leading (kPartitionCnt partitionNum) := by
  unfold init kPartition
  by_cases h : partitionNum = 1
  · subst h
    rw [if_pos rfl, kPartitionCnt_one]
    rfl
  · rw [if_neg h]
    rfl

variable {partitionNum : Int32}

/-- Below the word the loop registers nothing under the number of the subscribers. -/
theorem reaches_subscriber (h : kPartitionCnt partitionNum ≤ MAX_PARTITION_CNT + 1) :
    Reaches TableId.number layout (init partitionNum) .subscriber := by
  rw [Reaches, init_eq]
  refine (Ranges.fill_below ?_ (by decide)).trans rfl
  simp only [ranges, MAX_PARTITION_CNT] at h ⊢
  omega

/-- A copy is registered while no range reaches it. -/
theorem reaches_copies (h : kPartitionCnt partitionNum ≤ MAX_PARTITION_CNT + 1) {offset : ℕ}
    (hoffset : offset < kPartitionCnt partitionNum)
    (hle : kPartitionCnt partitionNum ≤ MAX_PARTITION_CNT + offset) {id : TableId}
    (hid : id ∈ [.accessInfo offset, .specialFacility offset, .callForwarding offset]) :
    Reaches TableId.number layout (init partitionNum) id := by
  unfold MAX_PARTITION_CNT at h
  have hword : ranges.base + ranges.width * 2 + kPartitionCnt partitionNum ≤ ranges.word := by
    simp only [ranges, MAX_PARTITION_CNT]
    omega
  have hmod : ∀ base ≤ 300, (base + offset) % 2 ^ 64 = base + offset :=
    fun base hbase => Nat.mod_eq_of_lt (by omega)
  rw [Reaches, init_eq]
  simp only [List.mem_cons, List.not_mem_nil, or_false] at hid
  rcases hid with rfl | rfl | rfl
  · rw [show TableId.number (.accessInfo offset) = 100 + offset from rfl, hmod _ (by decide)]
    exact Ranges.fill_first (by decide) hword hoffset
  · rw [show TableId.number (.specialFacility offset) = 200 + offset from rfl, hmod _ (by decide)]
    exact Ranges.fill_second (by decide) hword hoffset hle
  · rw [show TableId.number (.callForwarding offset) = 300 + offset from rfl, hmod _ (by decide)]
    exact Ranges.fill_third hword hoffset hle

/-- Where the first range reaches it, a facility copy lies in a table of another family. -/
theorem not_reaches_specialFacility {offset : ℕ} (hoffset : offset ≤ MAX_PARTITION_CNT)
    (h : MAX_PARTITION_CNT + offset < kPartitionCnt partitionNum) :
    ¬ Reaches TableId.number layout (init partitionNum) (.specialFacility offset) := by
  intro hreaches
  unfold MAX_PARTITION_CNT at hoffset
  have hmod : TableId.number (.specialFacility offset) % 2 ^ 64 =
      ranges.base + ranges.width + offset :=
    Nat.mod_eq_of_lt (by simp only [TableId.number, MAX_PARTITION_CNT]; omega)
  rw [Reaches, hmod, init_eq] at hreaches
  have hword : ranges.base + ranges.width * 3 + offset < ranges.word := by
    simp only [ranges, MAX_PARTITION_CNT]
    omega
  rcases Ranges.fill_overrun ranges leading offset (by decide) hword h
    (kPartitionCnt_lt partitionNum).le with hfirst | hthird
  · have he := Option.some.inj (hfirst.symm.trans hreaches)
    exact registered_ne (show TatpSchema.getAccessInfoSchema.schema ≠
      TatpSchema.getSpecialFacilitySchema.schema by decide) he
  · have he := Option.some.inj (hthird.symm.trans hreaches)
    exact registered_ne (show TatpSchema.getCallForwardingSchema.schema ≠
      TatpSchema.getSpecialFacilitySchema.schema by decide) he

end TableNumbers

/-- Every table that the processors and the populator use is one of its family; those of a
subscriber are reached through the offset of its copy. -/
structure RoutesWell (subscriberSize partitionNum : Int32) : Prop where
  fixed : Reaches TableId.number layout (TableNumbers.init partitionNum) .subscriber
  subscriber : ∀ sId : Int32, 1 ≤ sId.toInt → sId.toInt ≤ subscriberSize.toInt →
    ∃ offset, partitionOffset partitionNum (toSize sId) = some offset ∧
      ∀ id ∈ [.accessInfo offset, .specialFacility offset, .callForwarding offset],
        Reaches TableId.number layout (TableNumbers.init partitionNum) id

private theorem toSize_of_nonneg {n : Int32} (h : 0 ≤ n.toInt) : toSize n = n.toInt.toNat := by
  have hlt := Int32.toInt_lt n
  unfold toSize
  omega

private theorem exists_int32 (n : ℕ) (h : n < 2 ^ 31) : ∃ sId : Int32, sId.toInt = n ∧ toSize sId = n := by
  have hint : (Int32.ofInt n).toInt = n := Int32.toInt_ofInt_of_le (by omega) (by omega)
  refine ⟨Int32.ofInt n, hint, ?_⟩
  rw [toSize_of_nonneg (by omega), hint]
  exact Int.toNat_natCast n

section
variable {subscriberSize partitionNum : Int32}

theorem routesWell_of_le (hpos : 0 < kPartitionCnt partitionNum)
    (hle : kPartitionCnt partitionNum ≤ MAX_PARTITION_CNT) :
    RoutesWell subscriberSize partitionNum where
  fixed := TableNumbers.reaches_subscriber (hle.trans (Nat.le_succ _))
  subscriber sId _ _ := by
    refine ⟨toSize sId % kPartitionCnt partitionNum, ?_, fun id hid => ?_⟩
    · rw [partitionOffset_eq, if_neg (Nat.ne_of_gt hpos)]
    · exact TableNumbers.reaches_copies (hle.trans (Nat.le_succ _)) (Nat.mod_lt _ hpos)
        (hle.trans (Nat.le_add_right _ _)) hid

private theorem routesWell_of_few (hcnt : kPartitionCnt partitionNum = MAX_PARTITION_CNT + 1)
    (hfew : subscriberSize.toInt ≤ MAX_PARTITION_CNT) : RoutesWell subscriberSize partitionNum where
  fixed := TableNumbers.reaches_subscriber hcnt.le
  subscriber sId hlower hupper := by
    have hsize : toSize sId = sId.toInt.toNat := toSize_of_nonneg (by omega)
    have hmod : toSize sId % kPartitionCnt partitionNum = sId.toInt.toNat := by
      rw [hsize, hcnt]
      exact Nat.mod_eq_of_lt (by omega)
    refine ⟨sId.toInt.toNat, ?_, fun id hid => ?_⟩
    · rw [partitionOffset_eq, if_neg (by omega), hmod]
    · exact TableNumbers.reaches_copies hcnt.le (by omega) (by omega) hid

/-- The copy of one subscriber is reached by no other range. -/
theorem RoutesWell.partitionCnt (h : RoutesWell subscriberSize partitionNum) (sId : ℕ)
    (hpos : 1 ≤ sId) (hle : (sId : ℤ) ≤ subscriberSize.toInt)
    (hoff : sId % kPartitionCnt partitionNum ≤ MAX_PARTITION_CNT) :
    0 < kPartitionCnt partitionNum ∧
      kPartitionCnt partitionNum ≤ MAX_PARTITION_CNT + sId % kPartitionCnt partitionNum := by
  have hlt := Int32.toInt_lt subscriberSize
  obtain ⟨sId', hint, hsize⟩ := exists_int32 sId (by omega)
  obtain ⟨offset, hoffset, hreaches⟩ := h.subscriber sId' (by omega) (by omega)
  rw [partitionOffset_eq, hsize] at hoffset
  split at hoffset
  · cases hoffset
  · rename_i hne
    cases hoffset
    refine ⟨Nat.pos_of_ne_zero hne, Nat.le_of_not_lt fun hlt => ?_⟩
    exact TableNumbers.not_reaches_specialFacility hoff hlt
      (hreaches (.specialFacility _) (List.mem_cons_of_mem _ List.mem_cons_self))

/-- Subscriber 1 bounds the count by 101, and there subscriber 101 must not exist. -/
theorem RoutesWell.le (h : RoutesWell subscriberSize partitionNum) (hsize : 1 ≤ subscriberSize.toInt) :
    0 < kPartitionCnt partitionNum ∧ (kPartitionCnt partitionNum ≤ MAX_PARTITION_CNT ∨
      kPartitionCnt partitionNum = MAX_PARTITION_CNT + 1 ∧
        subscriberSize.toInt ≤ MAX_PARTITION_CNT) := by
  obtain ⟨hpos, hle⟩ := h.partitionCnt 1 le_rfl (by exact_mod_cast hsize)
    ((Nat.mod_le _ _).trans (by decide))
  have hone : 1 % kPartitionCnt partitionNum ≤ 1 := Nat.mod_le _ _
  refine ⟨hpos, ?_⟩
  rcases Nat.lt_or_ge MAX_PARTITION_CNT (kPartitionCnt partitionNum) with hlt | hge
  · right
    have hcnt : kPartitionCnt partitionNum = MAX_PARTITION_CNT + 1 := by omega
    refine ⟨hcnt, Int.not_lt.mp fun hmany => ?_⟩
    have hself : (MAX_PARTITION_CNT + 1) % kPartitionCnt partitionNum = 0 := by
      rw [hcnt, Nat.mod_self]
    obtain ⟨-, hle'⟩ := h.partitionCnt (MAX_PARTITION_CNT + 1) (by decide)
      (by exact_mod_cast hmany) (by omega)
    omega
  · exact .inl hge

end

end ImdbD.Benchmark.TATP

namespace ImdbD.Benchmark

/-- Which partition counts lead every district and every subscriber to tables of the right
family. -/
theorem routesWell_iff (params : TPCC.ScaleParams) (subscriberSize partitionNum : Int32)
    (hwarehouse : 1 ≤ params.numWarehouses) (hsize : 1 ≤ subscriberSize.toInt) :
    (TPCC.RoutesWell params partitionNum ↔ 1 ≤ partitionNum.toInt ∧ partitionNum.toInt ≤ 100) ∧
    (TATP.RoutesWell subscriberSize partitionNum ↔
      (1 ≤ partitionNum.toInt ∧ partitionNum.toInt ≤ 100) ∨
        (partitionNum.toInt = 101 ∧ subscriberSize.toInt ≤ 100)) := by
  have hrange := partitionCnt_range_iff partitionNum
  have hnext := kPartitionCnt_eq_iff partitionNum (show 101 < 2 ^ 31 by decide)
  constructor
  · rw [← hrange]
    constructor
    · intro h
      exact h.partitionCnt hwarehouse
    · rintro ⟨hpos, hle⟩
      exact TPCC.routesWell_of_le hpos hle
  · rw [← hrange]
    constructor
    · intro h
      obtain ⟨hpos, hle | ⟨hcnt, hfew⟩⟩ := h.le hsize
      · exact .inl ⟨hpos, hle⟩
      · exact .inr ⟨hnext.mp hcnt, hfew⟩
    · rintro (⟨hpos, hle⟩ | ⟨hcnt, hfew⟩)
      · exact TATP.routesWell_of_le hpos hle
      · exact TATP.routesWell_of_few (hnext.mpr hcnt) hfew

/-- The scale of `main`. -/
theorem routesWell_iff_main :
    (TPCC.RoutesWell (.new 10 1 (by decide)) 8 ↔ (1 : ℤ) ≤ 8 ∧ (8 : ℤ) ≤ 100) ∧
    (TATP.RoutesWell 1000000 8 ↔
      ((1 : ℤ) ≤ 8 ∧ (8 : ℤ) ≤ 100) ∨ ((8 : ℤ) = 101 ∧ (1000000 : ℤ) ≤ 100)) :=
  routesWell_iff (.new 10 1 (by decide)) 1000000 8 (by decide) (by decide)

/-- With 101 copies the orders of the last one take the number of the first new orders. -/
theorem hundredOne_not_routesWell :
    ¬ TPCC.RoutesWell (.new 10 1 (by decide)) 101 ∧ ¬ TATP.RoutesWell 1000000 101 ∧
    ¬ TPCC.RoutesWell (.new 10 1 (by decide)) 0 := by
  refine ⟨fun h => ?_, fun h => ?_, fun h => ?_⟩
  · exact absurd (h.partitionCnt (by decide)).2 (by decide)
  · exact absurd (h.le (by decide)).2 (by decide)
  · exact absurd (h.partitionCnt (by decide)).1 (by decide)

end ImdbD.Benchmark
