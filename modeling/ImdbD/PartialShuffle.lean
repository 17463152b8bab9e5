import Mathlib.Data.List.Nodup
import Mathlib.Data.List.Perm.Basic
import Mathlib.Tactic.Common

/-!
# Drawing elements of an array without repetition

An element of the part that is still in play is taken and swapped with the last
one of that part, which then shrinks by one. The elements taken lie, last first,
in the tail that is out of play.
-/
namespace ImdbD.PartialShuffle
variable {α : Type*}

/-- Take element `j` and swap it with element `last`; outside the array there is nothing. -/
def takeOut (arr : List α) (j last : ℕ) : Option (α × List α) := do
  let x ← arr[j]?
  let y ← arr[last]?
  return (x, (arr.set j y).set last x)

theorem takeOut_eq {arr : List α} {j last : ℕ} (hj : j < arr.length) (hlast : last < arr.length) :
    takeOut arr j last = some (arr[j], (arr.set j arr[last]).set last arr[j]) := by
  simp [takeOut, List.getElem?_eq_getElem hj, List.getElem?_eq_getElem hlast]

/-- Elements drawn so far, with `len` elements in play. -/
structure Drawn (start arr drawn : List α) (len : ℕ) : Prop where
  perm : arr.Perm start
  inPlay : len + drawn.length = arr.length
  tail : arr.drop len = drawn.reverse

variable {start arr drawn : List α} {len j : ℕ}

theorem Drawn.refl (start : List α) : Drawn start start [] start.length where
  perm := .refl _
  inPlay := rfl
  tail := List.drop_length

theorem Drawn.takeOut (h : Drawn start arr drawn (len + 1)) (hj : j ≤ len) :
    ∃ x arr', takeOut arr j len = some (x, arr') ∧ Drawn start arr' (drawn ++ [x]) len := by
  have hplay := h.inPlay
  have hlast : len < arr.length := by omega
  have hin : j < arr.length := by omega
  refine ⟨arr[j], (arr.set j arr[len]).set len arr[j], takeOut_eq hin hlast, ?_, ?_, ?_⟩
  · exact (List.set_set_perm hin hlast).trans h.perm
  · simp only [List.length_append, List.length_singleton, List.length_set]
    omega
  · have hset : ((arr.set j arr[len]).set len arr[j]).drop (len + 1) = arr.drop (len + 1) := by
      rw [List.drop_set_of_lt (by omega), List.drop_set_of_lt (by omega)]
    rw [List.drop_eq_getElem_cons (by simpa using hlast), List.getElem_set_self, hset, h.tail,
      List.reverse_append]
    rfl

theorem Drawn.mem (h : Drawn start arr drawn len) {x : α} (hx : x ∈ drawn) : x ∈ start := by
  apply h.perm.subset
  apply List.mem_of_mem_drop (i := len)
  rw [h.tail]
  exact List.mem_reverse.mpr hx

/-- From an array of distinct elements none is drawn twice. -/
theorem Drawn.nodup (h : Drawn start arr drawn len) (hstart : start.Nodup) : drawn.Nodup := by
  have harr : arr.Nodup := h.perm.nodup_iff.mpr hstart
  have htail : (arr.drop len).Nodup := harr.sublist (List.drop_sublist len arr)
  rw [h.tail] at htail
  exact List.nodup_reverse.mp htail

end ImdbD.PartialShuffle
