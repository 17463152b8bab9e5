import Mathlib.Data.List.Basic
import Mathlib.Data.List.GetD
import Mathlib.Algebra.Ring.Nat

/-!
# Byte ranges of a flat memory

A memory is a total function from addresses to bytes. Copies out of it, copies
into it, and the overwriting of a range inside a byte string are related once
here, together with the little-endian words in which lists of sizes are kept as
byte strings.
-/
namespace ImdbD.ByteMemory

abbrev Bytes := List UInt8

/-- Copy `n` bytes out of the memory, from address `off` on. -/
def read (m : ℕ → UInt8) (off n : ℕ) : Bytes := (List.range n).map (fun i => m (off + i))

/-- Copy a byte string into the memory, from address `off` on. -/
def write (m : ℕ → UInt8) (off : ℕ) (bs : Bytes) : ℕ → UInt8 :=
  fun a => if off ≤ a then (bs[a - off]?).getD (m a) else m a

/-- The `n` bytes of a byte string from position `off` on. -/
def slice (bs : Bytes) (off n : ℕ) : Bytes := (bs.drop off).take n

/-- Replace the bytes of `bs` from position `off` on by `new`. -/
def overwrite (bs : Bytes) (off : ℕ) (new : Bytes) : Bytes :=
  bs.take off ++ new ++ bs.drop (off + new.length)

@[simp] theorem read_length (m : ℕ → UInt8) (off n : ℕ) : (read m off n).length = n := by
  simp [read]

@[simp] theorem getElem_read (m : ℕ → UInt8) (off n i : ℕ) (h : i < (read m off n).length) :
    (read m off n)[i] = m (off + i) := by
  simp [read]

theorem write_outside (m : ℕ → UInt8) (off a : ℕ) (bs : Bytes)
    (h : a < off ∨ off + bs.length ≤ a) : write m off bs a = m a := by
  unfold write
  split
  · rw [List.getElem?_eq_none (by omega)]
    rfl
  · rfl

theorem write_inside (m : ℕ → UInt8) (off a : ℕ) (bs : Bytes) (hlo : off ≤ a)
    (hhi : a - off < bs.length) : write m off bs a = bs[a - off] := by
  simp [write, hlo, List.getElem?_eq_getElem hhi]

@[simp] theorem write_nil (m : ℕ → UInt8) (off : ℕ) : write m off [] = m := by
  funext a
  simp [write]

theorem read_congr {m m' : ℕ → UInt8} {off n : ℕ}
    (h : ∀ a, off ≤ a → a < off + n → m a = m' a) : read m off n = read m' off n := by
  apply List.map_congr_left
  intro i hi
  rw [List.mem_range] at hi
  exact h (off + i) (by omega) (by omega)

theorem read_inj {m m' : ℕ → UInt8} {off n : ℕ} :
    read m off n = read m' off n ↔ ∀ i < n, m (off + i) = m' (off + i) := by
  simp [read, List.map_inj_left]

/-- A copy into a disjoint range is not seen. -/
theorem read_write_disjoint (m : ℕ → UInt8) (off n off' : ℕ) (bs : Bytes)
    (h : off + n ≤ off' ∨ off' + bs.length ≤ off) :
    read (write m off' bs) off n = read m off n := by
  apply read_congr
  intro a hlo hhi
  exact write_outside m off' a bs (by omega)

theorem overwrite_length (bs new : Bytes) (off : ℕ) (h : off + new.length ≤ bs.length) :
    (overwrite bs off new).length = bs.length := by
  simp only [overwrite, List.length_append, List.length_take, List.length_drop]
  omega

theorem getElem?_overwrite (bs new : Bytes) (off i : ℕ) (h : off + new.length ≤ bs.length) :
    (overwrite bs off new)[i]? =
      if off ≤ i ∧ i < off + new.length then new[i - off]? else bs[i]? := by
  have ht : (bs.take off).length = off := by simp; omega
  unfold overwrite
  rw [List.append_assoc]
  split
  · rename_i hi
    rw [List.getElem?_append_right (by omega), ht, List.getElem?_append_left (by omega)]
  · rename_i hi
    by_cases hlt : i < off
    · rw [List.getElem?_append_left (by omega), List.getElem?_take_of_lt hlt]
    · rw [List.getElem?_append_right (by omega), ht, List.getElem?_append_right (by omega),
        List.getElem?_drop]
      congr 1
      omega

/-- A copy into the inside of a range overwrites that part of the range. -/
theorem read_write_inside (m : ℕ → UInt8) (off n c : ℕ) (bs : Bytes) (h : c + bs.length ≤ n) :
    read (write m (off + c) bs) off n = overwrite (read m off n) c bs := by
  apply List.ext_getElem?
  intro i
  rw [getElem?_overwrite _ _ _ _ (by simpa using h)]
  by_cases hin : i < n
  · rw [List.getElem?_eq_getElem (by simpa using hin), getElem_read]
    split
    · rename_i hc
      rw [write_inside m (off + c) (off + i) bs (by omega) (by omega),
        List.getElem?_eq_getElem (by omega)]
      congr 2
      omega
    · rename_i hc
      rw [write_outside _ _ _ _ (by omega), List.getElem?_eq_getElem (by simpa using hin),
        getElem_read]
  · rw [List.getElem?_eq_none (by simp; omega), if_neg (by omega),
      List.getElem?_eq_none (by simp; omega)]

theorem slice_read (m : ℕ → UInt8) (off n c k : ℕ) (h : c + k ≤ n) :
    slice (read m off n) c k = read m (off + c) k := by
  apply List.ext_getElem
  · simp [slice]
    omega
  · intro i hi hi'
    simp [slice, Nat.add_assoc]

@[simp] theorem slice_length (bs : Bytes) (off n : ℕ) (h : off + n ≤ bs.length) :
    (slice bs off n).length = n := by
  simp [slice]
  omega

theorem getElem?_slice (bs : Bytes) (off n i : ℕ) :
    (slice bs off n)[i]? = if i < n then bs[off + i]? else none := by
  simp only [slice, List.getElem?_take, List.getElem?_drop]

theorem slice_overwrite_same (bs new : Bytes) (off : ℕ) (h : off + new.length ≤ bs.length) :
    slice (overwrite bs off new) off new.length = new := by
  apply List.ext_getElem?
  intro i
  rw [getElem?_slice, getElem?_overwrite _ _ _ _ h]
  by_cases hi : i < new.length
  · rw [if_pos hi, if_pos (by omega), Nat.add_sub_cancel_left]
  · rw [if_neg hi, List.getElem?_eq_none (by omega)]

/-- Overwriting one range leaves a disjoint range alone. -/
theorem slice_overwrite_disjoint (bs new : Bytes) (off c k : ℕ)
    (hb : off + new.length ≤ bs.length) (h : c + k ≤ off ∨ off + new.length ≤ c) :
    slice (overwrite bs off new) c k = slice bs c k := by
  apply List.ext_getElem?
  intro i
  rw [getElem?_slice, getElem?_slice, getElem?_overwrite _ _ _ _ hb]
  by_cases hi : i < k
  · rw [if_pos hi, if_pos hi, if_neg (by omega)]
  · rw [if_neg hi, if_neg hi]

/-- The `k` low-order bytes of a number, least significant first. -/
def toBytes : ℕ → ℕ → Bytes
  | 0, _ => []
  | k + 1, n => UInt8.ofNat (n % 256) :: toBytes k (n / 256)

/-- The number a byte string spells, least significant byte first. -/
def ofBytes : Bytes → ℕ
  | [] => 0
  | b :: bs => b.toNat + 256 * ofBytes bs

@[simp] theorem toBytes_length (k n : ℕ) : (toBytes k n).length = k := by
  induction k generalizing n with
  | zero => rfl
  | succ k ih => simp [toBytes, ih]

theorem ofBytes_toBytes (k n : ℕ) (h : n < 256 ^ k) : ofBytes (toBytes k n) = n := by
  induction k generalizing n with
  | zero => simpa [toBytes, ofBytes] using (by simpa using h : n = 0).symm
  | succ k ih =>
    have hn : n / 256 < 256 ^ k := by
      rw [Nat.div_lt_iff_lt_mul (by decide)]
      simpa [Nat.pow_succ] using h
    simp only [toBytes, ofBytes, ih _ hn, UInt8.toNat_ofNat']
    omega

/-- The words of a list of sizes, each in eight bytes, as `reinterpret_cast<char*>` shows them. -/
def sizeWords (ns : List ℕ) : Bytes := ns.flatMap (toBytes 8)

/-- The list of sizes whose words a byte string holds. -/
def readSizeWords (bs : Bytes) : List ℕ :=
  (List.range (bs.length / 8)).map (fun i => ofBytes (slice bs (8 * i) 8))

@[simp] theorem sizeWords_length (ns : List ℕ) : (sizeWords ns).length = 8 * ns.length := by
  induction ns with
  | nil => rfl
  | cons n ns ih =>
    simp only [sizeWords, List.flatMap_cons, List.length_append, toBytes_length,
      List.length_cons] at ih ⊢
    omega

private theorem slice_sizeWords (ns : List ℕ) (i : ℕ) (h : i < ns.length) :
    slice (sizeWords ns) (8 * i) 8 = toBytes 8 ns[i] := by
  induction ns generalizing i with
  | nil => simp at h
  | cons n ns ih =>
    cases i with
    | zero => simp [slice, sizeWords]
    | succ i =>
      have hi := ih i (by simpa using h)
      simp only [slice, sizeWords] at hi
      simp only [slice, sizeWords, List.flatMap_cons, List.getElem_cons_succ]
      have hword : (toBytes 8 n).length ≤ 8 * (i + 1) := by
        rw [toBytes_length]
        omega
      rw [List.drop_append, List.drop_eq_nil_of_le hword, List.nil_append,
        toBytes_length, show 8 * (i + 1) - 8 = 8 * i by omega, hi]

/-- Sizes below the word range are read back as they were written. -/
theorem readSizeWords_sizeWords (ns : List ℕ) (h : ∀ n ∈ ns, n < 2 ^ 64) :
    readSizeWords (sizeWords ns) = ns := by
  apply List.ext_getElem
  · simp [readSizeWords]
  · intro i hi hi'
    simp only [readSizeWords, List.getElem_map, List.getElem_range]
    rw [slice_sizeWords ns i hi']
    exact ofBytes_toBytes 8 _ (by simpa using h _ (List.getElem_mem hi'))

theorem sizeWords_injective {ms ns : List ℕ} (hm : ∀ n ∈ ms, n < 2 ^ 64)
    (hn : ∀ n ∈ ns, n < 2 ^ 64) (h : sizeWords ms = sizeWords ns) : ms = ns := by
  rw [← readSizeWords_sizeWords ms hm, h, readSizeWords_sizeWords ns hn]

end ImdbD.ByteMemory
