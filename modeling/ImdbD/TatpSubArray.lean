import ImdbD.PartialShuffle
import Mathlib.Data.List.TakeDrop

/-!
# Sub-arrays drawn without repetition

`subArr` draws a sub-array of its array into an array of its own. The pointer to
it is a parameter passed by value, so the caller's buffer keeps what it held.
-/
namespace ImdbD.Benchmark.TATP
open PartialShuffle

namespace RandomGenerator

/-- A number of the range, from a source of which nothing is known. -/
def generateInteger (draw min max : ℕ) : ℕ := min + draw % (max - min + 1)

theorem generateInteger_mem (draw : ℕ) {min max : ℕ} (h : min ≤ max) :
    min ≤ generateInteger draw min max ∧ generateInteger draw min max ≤ max := by
  have hlt := Nat.mod_lt draw (show 0 < max - min + 1 by omega)
  unfold generateInteger
  omega

end RandomGenerator

namespace TatpUtil
open RandomGenerator

/-- The loop of `subArr`: its array, the array that `sub` points to, and `arr_len`. -/
structure SubArrLoop where
  arr : List Int32
  sub : List Int32
  arrLen : ℕ

/-- Round `i`, which draws from what is left. A write outside of `sub` fails. -/
def subArrStep (draw : ℕ → ℕ) (s : SubArrLoop) (i : ℕ) : Option SubArrLoop :=
  match s.arrLen with
  | 0 => none
  | last + 1 => do
    let j := generateInteger (draw (i + 1)) 0 last
    let (x, arr) ← takeOut s.arr j last
    if i < s.sub.length then return ⟨arr, s.sub.set i x, last⟩ else none

/-- What a call leaves: the array, the caller's buffer, the length it hands out, and the array
that it made and never hands out. -/
structure SubArr where
  arr : List Int32
  buffer : List Int32
  subLen : ℕ
  sub : List Int32
  deriving DecidableEq

/-- `subArr(arr, arr_len, min_len, max_len, sub, sub_len)`. `sub = new int[sub_len]` takes
uninitialised memory and leaves the caller's buffer behind. -/
def subArr (draw : ℕ → ℕ) (memory : ℕ → Int32) (arr : List Int32) (minLen maxLen : ℕ)
    (buffer : List Int32) : Option SubArr :=
  if minLen ≤ maxLen then
    let subLen := generateInteger (draw 0) minLen maxLen
    if subLen ≤ arr.length then
      ((List.range subLen).foldlM (subArrStep draw)
        ⟨arr, (List.range subLen).map memory, arr.length⟩).map
          (fun s => ⟨s.arr, buffer, subLen, s.sub⟩)
    else none
  else none

/-- Between the rounds: what was drawn is the written part of `sub`. -/
structure SubArrLoop.Invariant (start : List Int32) (subLen i : ℕ) (s : SubArrLoop) : Prop where
  subLen : s.sub.length = subLen
  arrLen : s.arrLen = start.length - i
  drawn : Drawn start s.arr (s.sub.take i) s.arrLen

variable {start arr buffer : List Int32}
  {minLen maxLen subLen i : ℕ} {s : SubArrLoop}

theorem SubArrLoop.Invariant.step (draw : ℕ → ℕ) (h : s.Invariant start subLen i) (hi : i < subLen)
    (hlen : subLen ≤ start.length) :
    ∃ s', subArrStep draw s i = some s' ∧ s'.Invariant start subLen (i + 1) := by
  obtain ⟨last, hlast⟩ : ∃ last, s.arrLen = last + 1 := ⟨start.length - (i + 1), by
    rw [h.arrLen]
    omega⟩
  have hsub : i < s.sub.length := by rwa [h.subLen]
  have hj := (generateInteger_mem (draw (i + 1)) (Nat.zero_le last)).2
  obtain ⟨x, arr', htake, hdrawn⟩ := (hlast ▸ h.drawn).takeOut hj
  have hstep : subArrStep draw s i = some ⟨arr', s.sub.set i x, last⟩ := by
    simp [subArrStep, hlast, htake, hsub]
  refine ⟨_, hstep, by simpa using h.subLen, ?_, ?_⟩
  · have hleft := h.arrLen
    change last = start.length - (i + 1)
    omega
  · have hwritten : (s.sub.set i x).take (i + 1) = s.sub.take i ++ [x] := by
      rw [List.take_add_one, List.take_set_of_le (Nat.le_refl i), List.getElem?_set_self hsub]
      rfl
    rw [hwritten]
    exact hdrawn

/-- The loop stays inside both arrays. -/
theorem SubArrLoop.Invariant.run (draw : ℕ → ℕ) (h : s.Invariant start subLen 0)
    (hlen : subLen ≤ start.length) {n : ℕ} (hn : n ≤ subLen) :
    ∃ s', (List.range n).foldlM (subArrStep draw) s = some s' ∧ s'.Invariant start subLen n := by
  induction n with
  | zero => exact ⟨s, rfl, h⟩
  | succ n ih =>
    obtain ⟨t, hrun, ht⟩ := ih (Nat.le_of_succ_le hn)
    obtain ⟨s', hstep, hs'⟩ := ht.step draw hn hlen
    refine ⟨s', ?_, hs'⟩
    rw [List.range_succ, List.foldlM_append, hrun]
    simp [hstep]

/-- A call draws as many distinct elements as it says, into its own array, and only permutes the
array; the caller's buffer stays as it was. -/
structure SubArr.Spec (arr buffer : List Int32) (n : ℕ) (r : SubArr) : Prop where
  subLen : r.subLen = n
  buffer : r.buffer = buffer
  perm : r.arr.Perm arr
  length : r.sub.length = n
  mem : ∀ x ∈ r.sub, x ∈ arr
  nodup : arr.Nodup → r.sub.Nodup

theorem subArr_spec (draw : ℕ → ℕ) (memory : ℕ → Int32) (arr buffer : List Int32)
    (hle : minLen ≤ maxLen) (hmax : maxLen ≤ arr.length) :
    ∃ r, subArr draw memory arr minLen maxLen buffer = some r ∧
      r.Spec arr buffer (generateInteger (draw 0) minLen maxLen) := by
  have hlen := Nat.le_trans (generateInteger_mem (draw 0) hle).2 hmax
  have hinit : SubArrLoop.Invariant arr (generateInteger (draw 0) minLen maxLen) 0
      ⟨arr, (List.range (generateInteger (draw 0) minLen maxLen)).map memory, arr.length⟩ :=
    ⟨by simp, rfl, .refl arr⟩
  obtain ⟨s, hrun, hs⟩ := hinit.run draw hlen (Nat.le_refl _)
  have hwhole : s.sub.take (generateInteger (draw 0) minLen maxLen) = s.sub :=
    List.take_of_length_le (Nat.le_of_eq hs.subLen)
  have hdrawn := hwhole ▸ hs.drawn
  refine ⟨⟨s.arr, buffer, generateInteger (draw 0) minLen maxLen, s.sub⟩, ?_, rfl, rfl,
    hdrawn.perm, hs.subLen,
    fun x hx => hdrawn.mem hx, hdrawn.nodup⟩
  rw [subArr, if_pos hle, if_pos hlen, hrun]
  rfl

/-- What a call is for: the caller's buffer holds a sub-array without repetition. -/
structure SubArr.Delivers (arr : List Int32) (minLen maxLen : ℕ) (r : SubArr) : Prop where
  min_le : minLen ≤ r.subLen
  le_max : r.subLen ≤ maxLen
  holds : (r.buffer.take r.subLen).length = r.subLen
  nodup : (r.buffer.take r.subLen).Nodup
  mem : ∀ x ∈ r.buffer.take r.subLen, x ∈ arr
  perm : r.arr.Perm arr

/-- The caller gets a sub-array exactly when one of the drawn length already lay in the buffer. -/
theorem subArr_delivers_iff (draw : ℕ → ℕ) (memory : ℕ → Int32) {arr : List Int32}
    (buffer : List Int32) (hle : minLen ≤ maxLen) (hmax : maxLen ≤ arr.length) :
    (∃ r, subArr draw memory arr minLen maxLen buffer = some r ∧ r.Delivers arr minLen maxLen) ↔
      generateInteger (draw 0) minLen maxLen ≤ buffer.length ∧
      (buffer.take (generateInteger (draw 0) minLen maxLen)).Nodup ∧
      ∀ x ∈ buffer.take (generateInteger (draw 0) minLen maxLen), x ∈ arr := by
  obtain ⟨r, hr, hspec⟩ := subArr_spec draw memory arr buffer hle hmax
  obtain ⟨hmin, hlemax⟩ := generateInteger_mem (draw 0) hle
  have hbuffer := hspec.buffer
  have hlen := hspec.subLen
  constructor
  · rintro ⟨r', hr', hdelivers⟩
    cases hr.symm.trans hr'
    have hholds := hdelivers.holds
    have hnodup := hdelivers.nodup
    have hmem := hdelivers.mem
    rw [hbuffer, hlen] at hholds hnodup hmem
    rw [List.length_take] at hholds
    exact ⟨by omega, hnodup, hmem⟩
  · rintro ⟨hholds, hnodup, hmem⟩
    refine ⟨r, hr, ?_, ?_, ?_, ?_, ?_, hspec.perm⟩
    · rwa [hlen]
    · rwa [hlen]
    · rw [hbuffer, hlen, List.length_take]
      omega
    · rwa [hbuffer, hlen]
    · rwa [hbuffer, hlen]

/-- Two of four types into a buffer that happens to hold two of them. -/
theorem subArr_delivers_iff_held :
    (∃ r, subArr (fun _ => 1) (fun _ => 0) [1, 2, 3, 4] 1 4 [4, 2, 0, 0] = some r ∧
        r.Delivers [1, 2, 3, 4] 1 4) ↔
      generateInteger 1 1 4 ≤ [4, 2, 0, 0].length ∧
      (([4, 2, 0, 0] : List Int32).take (generateInteger 1 1 4)).Nodup ∧
      ∀ x ∈ ([4, 2, 0, 0] : List Int32).take (generateInteger 1 1 4), x ∈ [1, 2, 3, 4] :=
  subArr_delivers_iff (fun _ => 1) (fun _ => 0) [4, 2, 0, 0] (by decide) (by decide)

/-- The same draws into a buffer of zeros. -/
theorem zeroBuffer_not_delivers :
    ¬ ∃ r, subArr (fun _ => 1) (fun _ => 0) [1, 2, 3, 4] 1 4 [0, 0, 0, 0] = some r ∧
      r.Delivers [1, 2, 3, 4] 1 4 := by
  rintro ⟨r, hr, hdelivers⟩
  have hrun : subArr (fun _ => 1) (fun _ => 0) [1, 2, 3, 4] 1 4 [0, 0, 0, 0] =
      some ⟨[1, 3, 4, 2], [0, 0, 0, 0], 2, [2, 4]⟩ := by decide
  cases hrun.symm.trans hr
  exact absurd hdelivers.nodup (by decide)

end TatpUtil
end ImdbD.Benchmark.TATP
