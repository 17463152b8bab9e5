import ImdbD.RecordStore

/-!
# The tables and the tuples of TATP

The rows are records of bytes. Integers have the widths of the source.
-/
namespace ImdbD.Benchmark.TATP
open ByteMemory StorageEngine StorageEngine.ColumnInfo

/-- All but `subscriber` are numbered from their base by an offset. -/
inductive TableId where
  | subscriber
  | accessInfo (offset : ℕ)
  | specialFacility (offset : ℕ)
  | callForwarding (offset : ℕ)
  deriving DecidableEq

def MAX_PARTITION_CNT : ℕ := 100

/-- The number under which a table is registered. -/
def TableId.number : TableId → ℕ
  | subscriber => 0
  | accessInfo offset => MAX_PARTITION_CNT + offset
  | specialFacility offset => MAX_PARTITION_CNT * 2 + offset
  | callForwarding offset => MAX_PARTITION_CNT * 3 + offset

/-- The offsets in use. -/
def TableId.InRange : TableId → Prop
  | subscriber => True
  | accessInfo offset | specialFacility offset | callForwarding offset => offset < MAX_PARTITION_CNT

theorem TableId.number_inj {id id' : TableId} (h : id.InRange) (h' : id'.InRange)
    (he : id.number = id'.number) : id = id' := by
  cases id <;> cases id' <;>
    simp only [number, InRange, MAX_PARTITION_CNT, TableId.accessInfo.injEq,
      TableId.specialFacility.injEq, TableId.callForwarding.injEq, reduceCtorEq] at h h' he ⊢ <;>
    omega

namespace TatpSchema

def getSubscriberSchema : BuiltSchema := .ofColumns ([
  ofType "s_id" .int32 true,
  some (sized "sub_nbr" .varchar 15 false)] ++
  (["bit_1", "bit_2", "bit_3", "bit_4", "bit_5", "bit_6", "bit_7", "bit_8", "bit_9", "bit_10"].map
    (fun name => ofType name .int8 false)) ++
  (["hex_1", "hex_2", "hex_3", "hex_4", "hex_5", "hex_6", "hex_7", "hex_8", "hex_9", "hex_10"].map
    (fun name => ofType name .int8 false)) ++
  (["byte2_1", "byte2_2", "byte2_3", "byte2_4", "byte2_5", "byte2_6", "byte2_7",
    "byte2_8", "byte2_9", "byte2_10"].map
    (fun name => ofType name .int16 false)) ++ [
  ofType "msc_location" .int32 false,
  ofType "vlr_location" .int32 false]) rfl

def getAccessInfoSchema : BuiltSchema := .ofColumns [
  ofType "s_id" .int32 true,
  ofType "ai_type" .int8 true,
  ofType "data1" .int16 false,
  ofType "data2" .int16 false,
  some (sized "data3" .varchar 3 false),
  some (sized "data4" .varchar 5 false)] rfl

def getSpecialFacilitySchema : BuiltSchema := .ofColumns [
  ofType "s_id" .int32 true,
  ofType "sf_type" .int8 true,
  ofType "is_active" .int8 false,
  ofType "error_cntrl" .int16 false,
  ofType "data_a" .int16 false,
  some (sized "data_b" .varchar 5 false)] rfl

def getCallForwardingSchema : BuiltSchema := .ofColumns [
  ofType "s_id" .int32 true,
  ofType "sf_type" .int8 true,
  ofType "start_time" .int8 true,
  ofType "end_time" .int8 false,
  some (sized "numberx" .varchar 15 false)] rfl

end TatpSchema

/-- The tables as they are registered. -/
abbrev layout : TableId → TableLayout
  | .subscriber => ⟨TatpSchema.getSubscriberSchema, some [1]⟩
  | .accessInfo _ => ⟨TatpSchema.getAccessInfoSchema, none⟩
  | .specialFacility _ => ⟨TatpSchema.getSpecialFacilitySchema, some [0]⟩
  | .callForwarding _ => ⟨TatpSchema.getCallForwardingSchema, none⟩

/-- The tables of the benchmark. -/
abbrev Tables := RecordStore layout

/-- The constants of a run. -/
structure Constants where
  kParallelism : ℕ
  kPartition : Bool
  kPartitionCnt : ℕ
  parallelism_pos : 0 < kParallelism
  partitionCnt_pos : 0 < kPartitionCnt
  partitionCnt_le : kPartitionCnt ≤ MAX_PARTITION_CNT

/-- An `int` used as a `size_t`. -/
def toSize (n : Int32) : ℕ := (n.toInt % 2 ^ 64).toNat

/-- The copy of the partitioned tables that holds a subscriber. -/
def Constants.offset (K : Constants) (sId : Int32) : ℕ :=
  if K.kPartition then toSize sId % K.kPartitionCnt else 0

theorem Constants.offset_lt (K : Constants) (sId : Int32) : K.offset sId < MAX_PARTITION_CNT := by
  unfold offset
  split
  · exact lt_of_lt_of_le (Nat.mod_lt _ K.partitionCnt_pos) K.partitionCnt_le
  · exact lt_of_lt_of_le K.partitionCnt_pos K.partitionCnt_le

/-- A `std::string` with what lies behind its terminator in memory. -/
structure CString where
  chars : Bytes
  beside : ℕ → UInt8

/-- The bytes that a copy from `c_str()` takes. -/
def CString.read (text : CString) (n : ℕ) : Bytes :=
  (text.chars ++ 0 :: ByteMemory.read text.beside 0 n).take n

@[simp] theorem CString.length_read (text : CString) (n : ℕ) : (text.read n).length = n := by
  simp only [read, List.length_take, List.length_append, List.length_cons, read_length]
  omega

/-- From a string with its terminator nothing else is read. -/
theorem CString.read_eq_of_le {text text' : CString} {n : ℕ} (hchars : text.chars = text'.chars)
    (h : n ≤ text.chars.length + 1) : text.read n = text'.read n := by
  have hcopied : ∀ t : CString, n ≤ t.chars.length + 1 → t.read n = (t.chars ++ [0]).take n := by
    intro t ht
    have hlen : n ≤ (t.chars ++ [0]).length := by simpa using ht
    rw [read, ← List.singleton_append (l := ByteMemory.read t.beside 0 n), ← List.append_assoc,
      List.take_append_of_le_length hlen]
  rw [hcopied text h, hcopied text' (hchars ▸ h), hchars]

def int32Bytes (n : Int32) : Bytes := intBytes 4 n.toInt
def int16Bytes (n : Int16) : Bytes := intBytes 2 n.toInt
def int8Bytes (n : Int8) : Bytes := intBytes 1 n.toInt

@[simp] theorem length_int32Bytes (n : Int32) : (int32Bytes n).length = 4 := intBytes_length _ _
@[simp] theorem length_int16Bytes (n : Int16) : (int16Bytes n).length = 2 := intBytes_length _ _
@[simp] theorem length_int8Bytes (n : Int8) : (int8Bytes n).length = 1 := intBytes_length _ _

/-- The integer that an object of four bytes holds. -/
def readInt32 (bs : Bytes) : Int32 := .ofInt (readInt bs)
def readInt16 (bs : Bytes) : Int16 := .ofInt (readInt bs)
def readInt8 (bs : Bytes) : Int8 := .ofInt (readInt bs)

@[simp] theorem readInt32_int32Bytes (n : Int32) : readInt32 (int32Bytes n) = n := by
  have hlow := n.le_toInt
  have hhigh := n.toInt_lt
  have hsize : ((256 ^ 4 : ℕ) : ℤ) = 2 ^ 32 := rfl
  rw [readInt32, int32Bytes, readInt_intBytes_of_fits (by omega) (by omega), Int32.ofInt_toInt]

@[simp] theorem readInt16_int16Bytes (n : Int16) : readInt16 (int16Bytes n) = n := by
  have hlow := n.le_toInt
  have hhigh := n.toInt_lt
  have hsize : ((256 ^ 2 : ℕ) : ℤ) = 2 ^ 16 := rfl
  rw [readInt16, int16Bytes, readInt_intBytes_of_fits (by omega) (by omega), Int16.ofInt_toInt]

@[simp] theorem readInt8_int8Bytes (n : Int8) : readInt8 (int8Bytes n) = n := by
  have hlow := n.le_toInt
  have hhigh := n.toInt_lt
  have hsize : ((256 ^ 1 : ℕ) : ℤ) = 2 ^ 8 := rfl
  rw [readInt8, int8Bytes, readInt_intBytes_of_fits (by omega) (by omega), Int8.ofInt_toInt]

/-- An object of four bytes holds one integer. -/
theorem int32Bytes_readInt32 {bs : Bytes} (h : bs.length = 4) : int32Bytes (readInt32 bs) = bs := by
  have hlen : (int32Bytes (readInt32 bs)).length = bs.length := by rw [length_int32Bytes, h]
  refine (ofBytes_inj hlen).mp ?_
  have hlt := ofBytes_lt bs
  rw [h] at hlt
  rw [int32Bytes, readInt32, intBytes, Int32.toInt_ofInt, readInt, h, ofBytes_toBytes]
  · have hsize : (Int32.size : ℕ) = 256 ^ 4 := rfl
    rw [hsize, Int.bmod_bmod, Int.bmod_emod, Int.emod_eq_of_lt (by omega) (by omega)]
    rfl
  · omega

theorem int32Bytes_injective : Function.Injective int32Bytes :=
  Function.LeftInverse.injective readInt32_int32Bytes

theorem int8Bytes_injective : Function.Injective int8Bytes :=
  Function.LeftInverse.injective readInt8_int8Bytes

structure DeleteCallForwardingParam where
  subNbr : CString
  sfType : Int8
  startTime : Int8

structure GetAccessDataParam where
  sId : Int32
  aiType : Int8

structure GetNewDestinationParam where
  sId : Int32
  sfType : Int8
  startTime : Int8
  endTime : Int8

structure GetSubscriberDataParam where
  sId : Int32

structure InsertCallForwardingParam where
  subNbr : CString
  sfType : Int8
  startTime : Int8
  endTime : Int8
  numberx : CString

structure UpdateLocationParam where
  vlrLocation : Int32
  subNbr : CString

structure UpdateSubscriberDataParam where
  sId : Int32
  bit1 : Int8
  dataA : Int16
  sfType : Int8

inductive EventTuple where
  | deleteCallForwarding (param : DeleteCallForwardingParam)
  | getAccessData (param : GetAccessDataParam)
  | getNewDestination (param : GetNewDestinationParam)
  | getSubscriberData (param : GetSubscriberDataParam)
  | insertCallForwarding (param : InsertCallForwardingParam)
  | updateLocation (param : UpdateLocationParam)
  | updateSubscriberData (param : UpdateSubscriberDataParam)
  | endExecution

end ImdbD.Benchmark.TATP
