import ImdbD.RecordBuffer

/-!
# Strings in VARCHAR columns

A string is copied into its column without its length and without a terminator.
It is read back through a C string, which ends at the first zero byte wherever
that lies, and is then cut to the width of the column.
-/
namespace ImdbD.ByteMemory

/-- The C string at the beginning of the readable bytes; without a zero there is none. -/
def cString : Bytes → Option Bytes
  | [] => none
  | b :: bs => if b = 0 then some [] else (cString bs).map (b :: ·)

theorem cString_eq_some_iff {bs text : Bytes} :
    cString bs = some text ↔ 0 ∉ text ∧ ∃ rest, bs = text ++ 0 :: rest := by
  induction bs generalizing text with
  | nil => simp [cString]
  | cons b bs ih =>
    rw [cString]
    split
    · rename_i hzero
      subst hzero
      constructor
      · intro h
        cases h
        exact ⟨List.not_mem_nil, bs, rfl⟩
      · rintro ⟨hzero, rest, he⟩
        cases text with
        | nil => rfl
        | cons c text =>
          cases he
          exact absurd List.mem_cons_self hzero
    · rename_i hne
      rw [Option.map_eq_some_iff]
      constructor
      · rintro ⟨tail, htail, rfl⟩
        obtain ⟨hzero, rest, rfl⟩ := ih.mp htail
        exact ⟨by simpa using ⟨Ne.symm hne, hzero⟩, rest, rfl⟩
      · rintro ⟨hzero, rest, he⟩
        cases text with
        | nil =>
          cases he
          exact absurd rfl hne
        | cons c text =>
          cases he
          exact ⟨text, ih.mpr ⟨fun hmem => hzero (List.mem_cons_of_mem _ hmem), rest, rfl⟩, rfl⟩

private theorem cString_of_notMem {bs : Bytes} (h : 0 ∉ bs) : cString bs = none := by
  apply Option.eq_none_iff_forall_ne_some.mpr
  intro text htext
  obtain ⟨-, rest, rfl⟩ := cString_eq_some_iff.mp htext
  exact h (by simp)

private theorem drop_overwrite {bs new : Bytes} {off c : ℕ} (hb : off + new.length ≤ bs.length)
    (h : off + new.length ≤ c) : (overwrite bs off new).drop c = bs.drop c := by
  apply List.ext_getElem?
  intro i
  rw [List.getElem?_drop, List.getElem?_drop, getElem?_overwrite _ _ _ _ hb, if_neg (by omega)]

end ImdbD.ByteMemory

namespace ImdbD.StorageEngine
open ByteMemory

/-- `getColumnType(column_id) == ValueType::VARCHAR`. -/
def BuiltSchema.IsVarchar (S : BuiltSchema) (id : ℕ) : Prop :=
  S.schema.columns[id]?.map ColumnInfo.columnType = some .varchar

instance (S : BuiltSchema) (id : ℕ) : Decidable (S.IsVarchar id) :=
  inferInstanceAs (Decidable (S.schema.columns[id]?.map ColumnInfo.columnType = some .varchar))

theorem BuiltSchema.IsVarchar.lt {S : BuiltSchema} {id : ℕ} (h : S.IsVarchar id) :
    id < S.schema.columnCount := by
  rw [S.built.layout.count]
  obtain ⟨c, hc, -⟩ := Option.map_eq_some_iff.mp h
  exact (List.getElem?_eq_some_iff.mp hc).1

namespace Record
variable {S : BuiltSchema}

/-- `setColumn` with a `std::string`; a string that is too long fails the assertion. -/
def setColumnString (r : Record S) (id : ℕ) (data : Bytes) : Option (Record S) :=
  if S.IsVarchar id ∧ data.length ≤ S.schema.getColumnSize id then some (r.setColumn id data)
  else none

/-- `data.assign(data_ptr + offset, 0, size)`: the pointer becomes a string first. `behind` are
the bytes that may be read behind the record. -/
def getColumnString (r : Record S) (behind : Bytes) (id : ℕ) : Option Bytes :=
  if S.IsVarchar id then
    (cString ((r.data ++ behind).drop (S.schema.getColumnOffset id))).map
      (List.take (S.schema.getColumnSize id))
  else none

end Record

/-- The same call on a record that may only be read. -/
def ConstRecord.getColumnString {S : BuiltSchema} (r : Record S) (behind : Bytes) (id : ℕ) :
    Option Bytes :=
  if S.IsVarchar id then
    (cString ((r.data ++ behind).drop (S.schema.getColumnOffset id))).map
      (List.take (S.schema.getColumnSize id))
  else none

namespace Record
variable {S : BuiltSchema} {r r' q : Record S} {id : ℕ} {behind s : Bytes}

/-- The string read from the record that was written is the one given, whatever the column held
and whatever lies around it. -/
structure RoundTrips (r r' : Record S) (behind : Bytes) (id : ℕ) (s : Bytes) : Prop where
  record : r'.getColumnString behind id = some s
  constRecord : ConstRecord.getColumnString r' behind id = some s
  independent : ∀ (q q' : Record S) (behind' : Bytes), q.getColumn id = r.getColumn id →
    q.setColumnString id s = some q' →
    q'.getColumnString behind' id = r'.getColumnString behind id ∧
      ConstRecord.getColumnString q' behind' id = ConstRecord.getColumnString r' behind id

theorem setColumnString_eq_some (h : r.setColumnString id s = some r') :
    S.IsVarchar id ∧ s.length ≤ S.schema.getColumnSize id ∧ r' = r.setColumn id s := by
  unfold setColumnString at h
  split at h
  · rename_i hcond
    cases h
    exact ⟨hcond.1, hcond.2, rfl⟩
  · cases h

private theorem drop_column (r : Record S) (behind : Bytes) (hid : id < S.schema.columnCount) :
    (r.data ++ behind).drop (S.schema.getColumnOffset id) = r.getColumn id ++
      (r.data.drop (S.schema.getColumnOffset id + S.schema.getColumnSize id) ++ behind) := by
  have hle := S.built.layout.column_le hid
  rw [List.drop_append_of_le_length (by rw [r.size]; omega), getColumn, Schema.getColumn, slice,
    ← List.append_assoc, ← List.drop_drop, List.take_append_drop]

/-- What a column reads as after a string was written to it. -/
theorem getColumnString_setColumn (r : Record S) (behind : Bytes) (hv : S.IsVarchar id)
    (hs : s.length ≤ S.schema.getColumnSize id) :
    (r.setColumn id s).getColumnString behind id =
      (cString (s ++ ((r.getColumn id).drop s.length ++
        (r.data.drop (S.schema.getColumnOffset id + S.schema.getColumnSize id) ++ behind)))).map
          (List.take (S.schema.getColumnSize id)) := by
  have hle := S.built.layout.column_le hv.lt
  have htake : s.take (S.schema.getColumnSize id) = s := List.take_of_length_le hs
  have hdrop : (r.setColumn id s).data.drop
      (S.schema.getColumnOffset id + S.schema.getColumnSize id) =
      r.data.drop (S.schema.getColumnOffset id + S.schema.getColumnSize id) := by
    change (overwrite r.data _ (s.take (S.schema.getColumnSize id))).drop _ = _
    rw [htake]
    exact drop_overwrite (by rw [r.size]; omega) (by omega)
  rw [getColumnString, if_pos hv, drop_column _ _ hv.lt, r.getColumn_setColumn hv.lt, htake, hdrop,
    List.append_assoc]

/-- With a zero behind it in the column, a string without zeros is read as it is. -/
theorem getColumnString_of_terminated (h : r.setColumnString id s = some r') (hzero : 0 ∉ s)
    (hstale : (r.getColumn id)[s.length]? = some 0) : r'.getColumnString behind id = some s := by
  obtain ⟨hv, hs, rfl⟩ := setColumnString_eq_some h
  obtain ⟨hlt, hget⟩ := List.getElem?_eq_some_iff.mp hstale
  rw [getColumnString_setColumn r behind hv hs, List.drop_eq_getElem_cons hlt, hget,
    List.cons_append, cString_eq_some_iff.mpr ⟨hzero, _, rfl⟩, Option.map_some,
    List.take_of_length_le hs]

/-- A string shorter than its column is read only if a zero follows it there; a string with a
zero in it never. -/
private theorem terminated_of_getColumnString (h : r.setColumnString id s = some r')
    (hread : r'.getColumnString behind id = some s) :
    0 ∉ s ∧ (s.length < S.schema.getColumnSize id → (r.getColumn id)[s.length]? = some 0) := by
  obtain ⟨hv, hs, rfl⟩ := setColumnString_eq_some h
  rw [getColumnString_setColumn r behind hv hs] at hread
  obtain ⟨text, htext, htake⟩ := Option.map_eq_some_iff.mp hread
  obtain ⟨hzero, rest, he⟩ := cString_eq_some_iff.mp htext
  refine ⟨fun hmem => hzero (List.mem_of_mem_take (htake ▸ hmem)), fun hlt => ?_⟩
  have hself : text = s := by
    rw [← htake, List.length_take] at hlt
    rw [← htake, List.take_of_length_le (by omega)]
  subst hself
  have hnext := congrArg (fun bs : Bytes => bs[text.length]?) he
  have hcol : text.length < (r.getColumn id).length := by rwa [r.length_getColumn hv.lt]
  rw [List.getElem?_append_right le_rfl, List.getElem?_append_right le_rfl, Nat.sub_self,
    List.drop_eq_getElem_cons hcol] at hnext
  rw [List.getElem?_eq_getElem hcol]
  exact hnext

/-- A text that is written last to a new record is read back exactly if the memory of the record has
a zero behind it. -/
theorem getColumnString_fresh_iff {memory : ℕ → UInt8} {entries : List (ℕ × Bytes)}
    (hw : Writes S (entries ++ [(id, s)])) (hv : S.IsVarchar id) (hzero : 0 ∉ s)
    (hlt : s.length < S.schema.getColumnSize id) :
    ((fresh S memory).setColumns (entries ++ [(id, s)])).getColumnString behind id = some s ↔
      memory (S.schema.getColumnOffset id + s.length) = 0 := by
  obtain ⟨hnodup, hall⟩ := hw
  rw [List.map_append, List.map_singleton] at hnodup hall
  have hbefore : Writes S entries :=
    ⟨(List.nodup_append.mp hnodup).1, fun c hc => hall c (List.mem_append_left _ hc)⟩
  have hnot : id ∉ entries.map Prod.fst := fun hc =>
    (List.nodup_append.mp hnodup).2.2 id hc id List.mem_cons_self rfl
  have hset : ((fresh S memory).setColumns entries).setColumnString id s =
      some ((fresh S memory).setColumns (entries ++ [(id, s)])) := by
    rw [setColumnString, if_pos ⟨hv, hlt.le⟩, setColumns, setColumns, List.foldl_append]
    rfl
  have hbyte : (((fresh S memory).setColumns entries).getColumn id)[s.length]? =
      some (memory (S.schema.getColumnOffset id + s.length)) := by
    rw [getColumn_setColumns_of_notMem hbefore hv.lt hnot, getColumn_fresh hv.lt, ByteMemory.read,
      List.getElem?_map, List.getElem?_range hlt, Option.map_some]
  constructor
  · intro hread
    have hterminated := (terminated_of_getColumnString hset hread).2 hlt
    rw [hbyte] at hterminated
    exact Option.some.inj hterminated
  · intro hend
    exact getColumnString_of_terminated hset hzero (by rw [hbyte, hend])

/-- The same column in a record that holds no zero elsewhere. -/
def isolated (r : Record S) (id : ℕ) : Record S :=
  Record.setColumn ⟨List.replicate S.schema.getSchemaSize 1, List.length_replicate⟩ id
    (r.getColumn id)

private theorem getColumn_isolated (r : Record S) (hid : id < S.schema.columnCount) :
    (r.isolated id).getColumn id = r.getColumn id :=
  getColumn_setColumn_full _ hid (r.length_getColumn hid)

private theorem drop_isolated (r : Record S) (hid : id < S.schema.columnCount) :
    (r.isolated id).data.drop (S.schema.getColumnOffset id + S.schema.getColumnSize id) =
      List.replicate
        (S.schema.getSchemaSize - (S.schema.getColumnOffset id + S.schema.getColumnSize id)) 1 := by
  have hle := S.built.layout.column_le hid
  have hlen := r.length_getColumn hid
  change (overwrite (List.replicate S.schema.getSchemaSize 1) _
    ((r.getColumn id).take (S.schema.getColumnSize id))).drop _ = _
  rw [List.take_of_length_le hlen.le, drop_overwrite (by rw [List.length_replicate]; omega)
    (by omega), List.drop_replicate]

/-- A string as wide as its column has no end there: reading it leaves the column. -/
theorem getColumnString_isolated (hv : S.IsVarchar id) (hs : s.length = S.schema.getColumnSize id)
    (hzero : 0 ∉ s) : ((r.isolated id).setColumn id s).getColumnString [] id = none := by
  have hlen := (r.isolated id).length_getColumn hv.lt
  rw [getColumnString_setColumn _ _ hv hs.le, List.drop_eq_nil_of_le (by omega),
    drop_isolated r hv.lt, cString_of_notMem, Option.map_none]
  simp [hzero]

/-- The round trip works for the strings without zeros that are shorter than their column and
that the column's previous content happens to end. -/
theorem roundTrips_iff (h : r.setColumnString id s = some r') :
    RoundTrips r r' behind id s ↔
      0 ∉ s ∧ s.length < S.schema.getColumnSize id ∧ (r.getColumn id)[s.length]? = some 0 := by
  obtain ⟨hv, hs, rfl⟩ := setColumnString_eq_some h
  constructor
  · intro htrip
    obtain ⟨hzero, hshort⟩ := terminated_of_getColumnString h htrip.record
    have hlt : s.length < S.schema.getColumnSize id := by
      refine lt_of_le_of_ne hs fun hfull => ?_
      have haccepted : (r.isolated id).setColumnString id s =
          some ((r.isolated id).setColumn id s) := if_pos ⟨hv, hs⟩
      have hsame := (htrip.independent _ _ [] (r.getColumn_isolated hv.lt) haccepted).1
      rw [getColumnString_isolated hv hfull hzero, htrip.record] at hsame
      cases hsame
    exact ⟨hzero, hlt, hshort hlt⟩
  · rintro ⟨hzero, -, hstale⟩
    have hread : (r.setColumn id s).getColumnString behind id = some s :=
      getColumnString_of_terminated h hzero hstale
    refine ⟨hread, hread, fun q q' behind' hcol hq => ?_⟩
    have hread' : q'.getColumnString behind' id = some s :=
      getColumnString_of_terminated hq hzero (by rw [hcol, hstale])
    exact ⟨hread'.trans hread.symm, hread'.trans hread.symm⟩

/-- One VARCHAR column of four bytes. -/
def shortText : BuiltSchema := .ofColumns [some (.sized "text" .varchar 4 false)] rfl

theorem roundTrips_shortText :
    RoundTrips (S := shortText) ⟨[7, 7, 0, 7], rfl⟩ ⟨[65, 66, 0, 7], rfl⟩ [] 0 [65, 66] ↔
      0 ∉ ([65, 66] : Bytes) ∧ [65, 66].length < shortText.schema.getColumnSize 0 ∧
        (Record.getColumn (S := shortText) ⟨[7, 7, 0, 7], rfl⟩ 0)[2]? = some 0 :=
  roundTrips_iff (by decide : Record.setColumnString (S := shortText) ⟨[7, 7, 0, 7], rfl⟩ 0 [65, 66] =
    some ⟨[65, 66, 0, 7], rfl⟩)

/-- A byte left over behind a shorter string, a zero inside a string, and a string of full width. -/
theorem shortText_not_roundTrips :
    ¬ RoundTrips (S := shortText) ⟨[7, 7, 7, 7], rfl⟩ ⟨[65, 66, 7, 7], rfl⟩ [0] 0 [65, 66] ∧
    ¬ RoundTrips (S := shortText) ⟨[0, 0, 0, 0], rfl⟩ ⟨[65, 0, 66, 0], rfl⟩ [0] 0 [65, 0, 66] ∧
    ¬ RoundTrips (S := shortText) ⟨[7, 7, 7, 7], rfl⟩ ⟨[65, 66, 67, 68], rfl⟩ [] 0
      [65, 66, 67, 68] := by
  refine ⟨fun h => ?_, fun h => ?_, fun h => ?_⟩
  · exact absurd h.record (by decide)
  · exact absurd h.record (by decide)
  · exact absurd h.record (by decide)

end Record

end ImdbD.StorageEngine
