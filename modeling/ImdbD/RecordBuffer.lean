import ImdbD.TableSession
import Mathlib.Data.Int.ModEq

/-!
# Records that are filled column by column

A record is a buffer of the size of its schema. It begins with whatever the
memory held before and is then written one column at a time, from objects that
may be shorter than the column.
-/
namespace ImdbD.ByteMemory

/-- An integer object of the given size, in two's complement. -/
def intBytes (size : ℕ) (n : ℤ) : Bytes := toBytes size (n % (256 ^ size : ℕ)).toNat

/-- The integer that an object holds. -/
def readInt (bs : Bytes) : ℤ := Int.bmod (ofBytes bs) (256 ^ bs.length)

/-- The characters of a text, without a terminator. -/
def textBytes (text : String) : Bytes := text.toList.map (fun c => UInt8.ofNat c.toNat)

@[simp] theorem intBytes_length (size : ℕ) (n : ℤ) : (intBytes size n).length = size := by
  simp [intBytes]

@[simp] theorem textBytes_length (text : String) :
    (textBytes text).length = text.toList.length := by
  simp [textBytes]

theorem readInt_intBytes (size : ℕ) (n : ℤ) : readInt (intBytes size n) = n.bmod (256 ^ size) := by
  have hpos : (0 : ℤ) < (256 ^ size : ℕ) := Int.natCast_pos.mpr (Nat.pow_pos (by decide))
  have hnn := Int.emod_nonneg n hpos.ne'
  have hlt := Int.emod_lt_of_pos n hpos
  rw [readInt, intBytes_length, intBytes, ofBytes_toBytes _ _ (by omega), Int.toNat_of_nonneg hnn,
    Int.emod_bmod]

/-- An integer that fits its object is read back. -/
theorem readInt_intBytes_of_fits {size : ℕ} {n : ℤ} (hlow : -(256 ^ size : ℕ) ≤ n * 2)
    (hhigh : n * 2 < (256 ^ size : ℕ)) : readInt (intBytes size n) = n := by
  rw [readInt_intBytes, Int.bmod_eq_of_le_mul_two hlow hhigh]

theorem ofBytes_lt (bs : Bytes) : ofBytes bs < 256 ^ bs.length := by
  induction bs with
  | nil => simp [ofBytes]
  | cons b bs ih =>
    have hb := b.toNat_lt
    rw [ofBytes, List.length_cons, Nat.pow_succ]
    omega

theorem ofBytes_inj {bs bs' : Bytes} (hlen : bs.length = bs'.length) :
    ofBytes bs = ofBytes bs' ↔ bs = bs' := by
  refine ⟨fun h => ?_, fun h => by rw [h]⟩
  induction bs generalizing bs' with
  | nil => exact (List.length_eq_zero_iff.mp hlen.symm).symm
  | cons b bs ih =>
    cases bs' with
    | nil => cases hlen
    | cons b' bs' =>
      have hb := b.toNat_lt
      have hb' := b'.toNat_lt
      rw [ofBytes, ofBytes] at h
      rw [ih (Nat.succ.inj hlen) (by omega), UInt8.toNat_inj.mp (by omega : b.toNat = b'.toNat)]

/-- Objects of one size that hold the same integer are the same bytes. -/
theorem readInt_inj {bs bs' : Bytes} (hlen : bs.length = bs'.length) :
    readInt bs = readInt bs' ↔ bs = bs' := by
  have hmod : ∀ bs : Bytes, readInt bs % (256 ^ bs.length : ℕ) = ofBytes bs := by
    intro bs
    have hlt : (ofBytes bs : ℤ) < (256 ^ bs.length : ℕ) := Int.ofNat_lt.mpr (ofBytes_lt bs)
    rw [readInt, Int.bmod_emod, Int.emod_eq_of_lt (Int.natCast_nonneg _) hlt]
  refine ⟨fun h => (ofBytes_inj hlen).mp (Int.ofNat_inj.mp ?_), fun h => by rw [h]⟩
  rw [← hmod bs, ← hmod bs', h, hlen]

private theorem slice_overwrite_short (bs new : Bytes) (off n : ℕ) (hn : new.length ≤ n)
    (h : off + n ≤ bs.length) :
    slice (overwrite bs off new) off n = new ++ (slice bs off n).drop new.length := by
  apply List.ext_getElem?
  intro i
  rw [getElem?_slice, getElem?_overwrite _ _ _ _ (by omega)]
  by_cases hi : i < new.length
  · rw [if_pos (by omega), if_pos (by omega), List.getElem?_append_left hi, Nat.add_sub_cancel_left]
  · rw [List.getElem?_append_right (by omega), List.getElem?_drop, getElem?_slice,
      show new.length + (i - new.length) = i by omega]
    split
    · rw [if_neg (by omega)]
    · rfl

end ImdbD.ByteMemory

namespace ImdbD.StorageEngine
open ByteMemory

namespace Schema
variable {s : Schema} {data data' : Bytes}

/-- The columns up to `n` are the beginning of the record. -/
private theorem Layout.flatMap_getColumn (h : s.Layout) (data : Bytes) {n : ℕ}
    (hn : n ≤ s.columnCount) : (List.range n).flatMap (s.getColumn data) =
      data.take (((s.columns.take n).map ColumnInfo.columnSize).sum) := by
  induction n with
  | zero => simp
  | succ n ih =>
    have hoff := h.getColumnOffset_eq hn
    rw [List.range_succ, List.flatMap_append, ih (by omega), ← h.column_end hn, List.take_add, hoff]
    simp [getColumn, slice, hoff]

/-- Records of one size are equal when all their columns are. -/
theorem Layout.ext_columns (h : s.Layout) (hd : data.length = s.getSchemaSize)
    (hd' : data'.length = s.getSchemaSize)
    (hc : ∀ id < s.columnCount, s.getColumn data id = s.getColumn data' id) : data = data' := by
  have hall : ∀ {bs : Bytes}, bs.length = s.getSchemaSize →
      (List.range s.columnCount).flatMap (s.getColumn bs) = bs := by
    intro bs hbs
    rw [h.flatMap_getColumn bs (le_refl _), h.count, List.take_length, ← h.size,
      show s.columnOffset = bs.length from hbs.symm, List.take_length]
  rw [← hall hd, ← hall hd']
  exact List.flatMap_congr (fun id hid => hc id (List.mem_range.mp hid))

end Schema

/-- A schema made by inserting columns. -/
structure BuiltSchema where
  schema : Schema
  built : schema.Built

/-- Insert columns into a new schema; a column that cannot be made fails. -/
def Schema.ofColumns (columns : List (Option ColumnInfo)) : Option Schema :=
  (columns.mapM id).bind Schema.empty.insertColumns

def BuiltSchema.ofColumns (columns : List (Option ColumnInfo))
    (h : (Schema.ofColumns columns).isSome) : BuiltSchema where
  schema := (Schema.ofColumns columns).get h
  built := by
    obtain ⟨cs, -, hcs⟩ := Option.bind_eq_some_iff.mp (Option.some_get h).symm
    exact Schema.Built.empty.insertColumns hcs

structure Record (S : BuiltSchema) where
  data : Bytes
  size : data.length = S.schema.getSchemaSize
  deriving DecidableEq

namespace Record
variable {S : BuiltSchema}

/-- A new buffer, with what the memory held there. -/
def fresh (S : BuiltSchema) (memory : ℕ → UInt8) : Record S :=
  ⟨read memory 0 S.schema.getSchemaSize, read_length _ _ _⟩

def getColumn (r : Record S) (id : ℕ) : Bytes := S.schema.getColumn r.data id

theorem getColumn_fresh {id : ℕ} (hid : id < S.schema.columnCount) (memory : ℕ → UInt8) :
    (fresh S memory).getColumn id =
      read memory (S.schema.getColumnOffset id) (S.schema.getColumnSize id) := by
  have hslice := slice_read memory 0 _ _ _ (S.built.layout.column_le hid)
  rwa [Nat.zero_add] at hslice

private theorem length_setColumn (r : Record S) (id : ℕ) (value : Bytes) :
    (S.schema.setColumn r.data id value).length = S.schema.getSchemaSize := by
  by_cases hid : id < S.schema.columnCount
  · exact S.built.layout.setColumn_length r.size hid
  · rw [S.built.layout.count] at hid
    have hsize : S.schema.getColumnSize id = 0 := by
      simp [Schema.getColumnSize, List.getElem?_eq_none (Nat.le_of_not_lt hid)]
    simp [Schema.setColumn, hsize, overwrite, r.size]

/-- Copy an object, or the part of it that the column takes, to the beginning of the column. -/
def setColumn (r : Record S) (id : ℕ) (value : Bytes) : Record S :=
  ⟨S.schema.setColumn r.data id value, r.length_setColumn id value⟩

/-- Write several columns, one after another. -/
def setColumns (r : Record S) (entries : List (ℕ × Bytes)) : Record S :=
  entries.foldl (fun r e => r.setColumn e.1 e.2) r

variable {r r' : Record S} {id id' : ℕ} {value : Bytes} {entries : List (ℕ × Bytes)}

@[ext] theorem ext_columns (h : ∀ id < S.schema.columnCount, r.getColumn id = r'.getColumn id) :
    r = r' := by
  obtain ⟨data, size⟩ := r
  obtain ⟨data', size'⟩ := r'
  congr
  exact S.built.layout.ext_columns size size' h

theorem length_getColumn (r : Record S) (hid : id < S.schema.columnCount) :
    (r.getColumn id).length = S.schema.getColumnSize id :=
  Schema.getColumn_length S.built.layout r.size hid

/-- What a write leaves in its column. -/
theorem getColumn_setColumn (r : Record S) (hid : id < S.schema.columnCount) (value : Bytes) :
    (r.setColumn id value).getColumn id =
      value.take (S.schema.getColumnSize id) ++ (r.getColumn id).drop value.length := by
  have hle := S.built.layout.column_le hid
  have hlen := r.length_getColumn hid
  have hshort := slice_overwrite_short r.data (value.take (S.schema.getColumnSize id))
    (S.schema.getColumnOffset id) (S.schema.getColumnSize id) (List.length_take_le _ _)
    (by rw [r.size]; exact hle)
  refine hshort.trans (congrArg _ ?_)
  rw [List.length_take]
  change (r.getColumn id).drop _ = _
  by_cases hv : value.length ≤ S.schema.getColumnSize id
  · rw [Nat.min_eq_right hv]
  · rw [Nat.min_eq_left (by omega), List.drop_eq_nil_of_le hlen.le,
      List.drop_eq_nil_of_le (by rw [hlen]; omega)]

theorem getColumn_setColumn_full (r : Record S) (hid : id < S.schema.columnCount) {value : Bytes}
    (hsize : value.length = S.schema.getColumnSize id) :
    (r.setColumn id value).getColumn id = value := by
  rw [getColumn_setColumn r hid, List.take_of_length_le hsize.le,
    List.drop_eq_nil_of_le (by rw [length_getColumn _ hid, hsize]), List.append_nil]

theorem getColumn_setColumn_ne (r : Record S) (hid : id < S.schema.columnCount)
    (hid' : id' < S.schema.columnCount) (h : id ≠ id') (value : Bytes) :
    (r.setColumn id value).getColumn id' = r.getColumn id' :=
  S.built.layout.getColumn_setColumn_ne r.size hid hid' h

/-- A write changes nothing when the column holds the value already. -/
theorem setColumn_eq_self_iff (hid : id < S.schema.columnCount)
    (hsize : value.length = S.schema.getColumnSize id) :
    r.setColumn id value = r ↔ r.getColumn id = value := by
  constructor
  · intro h
    rw [← h, r.getColumn_setColumn_full hid hsize]
  · intro h
    refine ext_columns (fun id' hid' => ?_)
    by_cases he : id = id'
    · subst he
      rw [r.getColumn_setColumn_full hid hsize, h]
    · exact r.getColumn_setColumn_ne hid hid' he value

/-- The columns named exist, and none is named twice. -/
def Writes (S : BuiltSchema) (entries : List (ℕ × Bytes)) : Prop :=
  (entries.map Prod.fst).Nodup ∧ ∀ id ∈ entries.map Prod.fst, id < S.schema.columnCount

instance (entries : List (ℕ × Bytes)) : Decidable (Writes S entries) :=
  inferInstanceAs (Decidable (_ ∧ _))

theorem getColumn_setColumns_of_notMem (h : Writes S entries) (hid : id < S.schema.columnCount)
    (hn : id ∉ entries.map Prod.fst) : (r.setColumns entries).getColumn id = r.getColumn id := by
  induction entries generalizing r with
  | nil => rfl
  | cons e es ih =>
    obtain ⟨hnodup, hlt⟩ := h
    rw [List.map_cons, List.mem_cons, not_or] at hn
    refine (ih ⟨hnodup.of_cons, fun i hi => hlt i (List.mem_cons_of_mem _ hi)⟩ hn.2).trans ?_
    exact r.getColumn_setColumn_ne (hlt _ List.mem_cons_self) hid (Ne.symm hn.1) _

theorem getColumn_setColumns (h : Writes S entries) (hmem : (id, value) ∈ entries) :
    (r.setColumns entries).getColumn id =
      value.take (S.schema.getColumnSize id) ++ (r.getColumn id).drop value.length := by
  induction entries generalizing r with
  | nil => cases hmem
  | cons e es ih =>
    obtain ⟨hnodup, hlt⟩ := h
    have hes : Writes S es := ⟨hnodup.of_cons, fun i hi => hlt i (List.mem_cons_of_mem _ hi)⟩
    have he := List.nodup_cons.mp hnodup
    rcases List.mem_cons.mp hmem with rfl | hin
    · exact (getColumn_setColumns_of_notMem hes (hlt _ List.mem_cons_self) he.1).trans
        (r.getColumn_setColumn (hlt _ List.mem_cons_self) value)
    · have hid : id ∈ es.map Prod.fst := List.mem_map_of_mem (f := Prod.fst) hin
      have hne : e.1 ≠ id := by
        rintro rfl
        exact he.1 hid
      rw [← r.getColumn_setColumn_ne (hlt _ List.mem_cons_self) (hes.2 _ hid) hne e.2]
      exact ih hes hin

/-- Every column is written, and from an object at least as large. -/
def Covers (S : BuiltSchema) (entries : List (ℕ × Bytes)) : Prop :=
  Writes S entries ∧ ∀ id < S.schema.columnCount,
    ∃ value, (id, value) ∈ entries ∧ S.schema.getColumnSize id ≤ value.length

/-- Columns written in the order of the schema. -/
theorem writes_of_range (h : entries.map Prod.fst = List.range S.schema.columnCount) :
    Writes S entries := by
  rw [Writes, h]
  exact ⟨List.nodup_range, fun _ hid => List.mem_range.mp hid⟩

theorem covers_of_range (h : entries.map Prod.fst = List.range S.schema.columnCount)
    (hsize : ∀ e ∈ entries, S.schema.getColumnSize e.1 ≤ e.2.length) : Covers S entries := by
  refine ⟨writes_of_range h, fun id hid => ?_⟩
  have hmem : id ∈ entries.map Prod.fst := by
    rw [h]
    exact List.mem_range.mpr hid
  obtain ⟨e, he, rfl⟩ := List.mem_map.mp hmem
  exact ⟨e.2, he, hsize e he⟩

/-- Nothing of the old buffer is left. -/
theorem setColumns_congr (h : Covers S entries) (r r' : Record S) :
    r.setColumns entries = r'.setColumns entries := by
  refine ext_columns (fun id hid => ?_)
  obtain ⟨value, hmem, hle⟩ := h.2 id hid
  rw [getColumn_setColumns h.1 hmem, getColumn_setColumns h.1 hmem,
    List.drop_eq_nil_of_le (by rw [length_getColumn _ hid]; exact hle),
    List.drop_eq_nil_of_le (by rw [length_getColumn _ hid]; exact hle)]

/-- A column that is written in full. -/
theorem getColumn_setColumns_full (h : Writes S entries) (hmem : (id, value) ∈ entries)
    (hsize : value.length = S.schema.getColumnSize id) :
    (r.setColumns entries).getColumn id = value := by
  have hid : id < S.schema.columnCount := h.2 _ (List.mem_map_of_mem (f := Prod.fst) hmem)
  rw [getColumn_setColumns h hmem, List.take_of_length_le hsize.le,
    List.drop_eq_nil_of_le (by rw [length_getColumn _ hid, hsize]), List.append_nil]

/-- A number written from an object as large as its column is read back as that object holds it. -/
theorem readInt_getColumn {size : ℕ} {n : ℤ} (h : Writes S entries)
    (hmem : (id, intBytes size n) ∈ entries) (hsize : size = S.schema.getColumnSize id) :
    readInt ((r.setColumns entries).getColumn id) = n.bmod (256 ^ size) := by
  rw [getColumn_setColumns_full h hmem (by rw [intBytes_length, hsize]), readInt_intBytes]

end Record
end ImdbD.StorageEngine
