import Mathlib.Logic.Function.Basic
import Mathlib.Tactic.Common

/-!
# Registries filled range by range

A registry maps numbers to values and keeps the last value registered under a
number. A loop fills three ranges of one width side by side, one number of each
in a round; from a width of rounds on, a range runs into the one behind it.
Numbers are taken modulo a word.
-/
namespace ImdbD.RangeRegistry

/-- The value registered last under every number. -/
abbrev Registry (α : Type*) := ℕ → Option α

variable {α : Type*}

def register (r : Registry α) (id : ℕ) (value : α) : Registry α :=
  Function.update r id (some value)

@[simp] theorem register_self (r : Registry α) (id : ℕ) (value : α) :
    register r id value id = some value := by
  simp only [register, Function.update_self]

theorem register_ne (r : Registry α) {id id' : ℕ} (h : id' ≠ id) (value : α) :
    register r id value id' = r id' := by
  simp only [register, Function.update_of_ne h]

/-- Three ranges from `base` on, `width` numbers apart, and what is registered in each. -/
structure Ranges (α : Type*) where
  word : ℕ
  base : ℕ
  width : ℕ
  first : α
  second : α
  third : α

namespace Ranges
variable (R : Ranges α)

/-- The numbers of round `i`. -/
def firstId (i : ℕ) : ℕ := (R.base + i) % R.word
def secondId (i : ℕ) : ℕ := (R.base + R.width + i) % R.word
def thirdId (i : ℕ) : ℕ := (R.base + R.width * 2 + i) % R.word

def round (r : Registry α) (i : ℕ) : Registry α :=
  register (register (register r (R.firstId i) R.first) (R.secondId i) R.second)
    (R.thirdId i) R.third

/-- The loop over `cnt` rounds. -/
def fill (r : Registry α) (cnt : ℕ) : Registry α := (List.range cnt).foldl R.round r

@[simp] theorem fill_zero (r : Registry α) : R.fill r 0 = r := rfl

theorem fill_succ (r : Registry α) (cnt : ℕ) : R.fill r (cnt + 1) = R.round (R.fill r cnt) cnt := by
  rw [fill, List.range_succ, List.foldl_append]
  rfl

variable {R} {r : Registry α}

private theorem round_first {i : ℕ} (hsecond : R.firstId i ≠ R.secondId i)
    (hthird : R.firstId i ≠ R.thirdId i) : R.round r i (R.firstId i) = some R.first := by
  rw [round, register_ne _ hthird, register_ne _ hsecond, register_self]

private theorem round_second {i : ℕ} (h : R.secondId i ≠ R.thirdId i) :
    R.round r i (R.secondId i) = some R.second := by
  rw [round, register_ne _ h, register_self]

private theorem round_third {i : ℕ} : R.round r i (R.thirdId i) = some R.third := by
  rw [round, register_self]

theorem round_ne {i id : ℕ} (hfirst : id ≠ R.firstId i) (hsecond : id ≠ R.secondId i)
    (hthird : id ≠ R.thirdId i) : R.round r i id = r id := by
  rw [round, register_ne _ hthird, register_ne _ hsecond, register_ne _ hfirst]

private theorem fill_of_forall_ne {cnt id : ℕ} (h : ∀ i < cnt,
    id ≠ R.firstId i ∧ id ≠ R.secondId i ∧ id ≠ R.thirdId i) : R.fill r cnt id = r id := by
  induction cnt with
  | zero => rfl
  | succ cnt ih =>
    obtain ⟨hfirst, hsecond, hthird⟩ := h cnt (Nat.lt_succ_self cnt)
    rw [fill_succ, round_ne hfirst hsecond hthird]
    exact ih fun i hi => h i (Nat.lt_succ_of_lt hi)

/-- A value is what its own round left, when no later round registers under its number. -/
theorem fill_of_last {cnt off id : ℕ} {value : α} (hoff : off < cnt)
    (hround : R.round (R.fill r off) off id = some value) (hlater : ∀ i, off < i → i < cnt →
      id ≠ R.firstId i ∧ id ≠ R.secondId i ∧ id ≠ R.thirdId i) :
    R.fill r cnt id = some value := by
  induction cnt with
  | zero => omega
  | succ cnt ih =>
    rw [fill_succ]
    rcases Nat.lt_succ_iff_lt_or_eq.mp hoff with hlt | rfl
    · obtain ⟨hfirst, hsecond, hthird⟩ := hlater cnt hlt (Nat.lt_succ_self cnt)
      rw [round_ne hfirst hsecond hthird]
      exact ih hlt fun i hi hcnt => hlater i hi (Nat.lt_succ_of_lt hcnt)
    · exact hround

theorem firstId_eq {i : ℕ} (h : R.base + i < R.word) : R.firstId i = R.base + i :=
  Nat.mod_eq_of_lt h

theorem secondId_eq {i : ℕ} (h : R.base + R.width + i < R.word) :
    R.secondId i = R.base + R.width + i :=
  Nat.mod_eq_of_lt h

theorem thirdId_eq {i : ℕ} (h : R.base + R.width * 2 + i < R.word) :
    R.thirdId i = R.base + R.width * 2 + i :=
  Nat.mod_eq_of_lt h

/-- No round registers below the base. -/
theorem fill_below {cnt id : ℕ} (hword : R.base + R.width * 2 + cnt ≤ R.word)
    (h : id < R.base) : R.fill r cnt id = r id := by
  apply fill_of_forall_ne
  intro i hi
  rw [firstId_eq (by omega), secondId_eq (by omega), thirdId_eq (by omega)]
  omega

/-- The first range is never overwritten. -/
theorem fill_first {cnt off : ℕ} (hwidth : 0 < R.width)
    (hword : R.base + R.width * 2 + cnt ≤ R.word) (hoff : off < cnt) :
    R.fill r cnt (R.base + off) = some R.first := by
  have hid : R.firstId off = R.base + off := firstId_eq (by omega)
  rw [← hid]
  apply fill_of_last hoff
  · apply round_first <;> rw [hid]
    · rw [secondId_eq (by omega)]
      omega
    · rw [thirdId_eq (by omega)]
      omega
  · intro i hi hcnt
    rw [hid, firstId_eq (by omega), secondId_eq (by omega), thirdId_eq (by omega)]
    omega

/-- The second range is kept while the first stays before it. -/
theorem fill_second {cnt off : ℕ} (hwidth : 0 < R.width)
    (hword : R.base + R.width * 2 + cnt ≤ R.word) (hoff : off < cnt) (hcnt : cnt ≤ R.width + off) :
    R.fill r cnt (R.base + R.width + off) = some R.second := by
  have hid : R.secondId off = R.base + R.width + off := secondId_eq (by omega)
  rw [← hid]
  apply fill_of_last hoff
  · apply round_second
    rw [hid, thirdId_eq (by omega)]
    omega
  · intro i hi hcnt
    rw [hid, firstId_eq (by omega), secondId_eq (by omega), thirdId_eq (by omega)]
    omega

theorem fill_third {cnt off : ℕ} (hword : R.base + R.width * 2 + cnt ≤ R.word) (hoff : off < cnt)
    (hcnt : cnt ≤ R.width + off) : R.fill r cnt (R.base + R.width * 2 + off) = some R.third := by
  have hid : R.thirdId off = R.base + R.width * 2 + off := thirdId_eq (by omega)
  rw [← hid]
  apply fill_of_last hoff
  · exact round_third
  · intro i hi hcnt
    rw [hid, firstId_eq (by omega), secondId_eq (by omega), thirdId_eq (by omega)]
    omega

private theorem firstId_ne_secondId {off i : ℕ} (hword : R.base + R.width + off < R.word)
    (hoff : R.width + off < i) (hi : i < R.word) : R.secondId off ≠ R.firstId i := by
  rw [secondId_eq hword, firstId]
  rcases Nat.lt_or_ge (R.base + i) R.word with h | h
  · rw [Nat.mod_eq_of_lt h]
    omega
  · rw [Nat.mod_eq_sub_mod h, Nat.mod_eq_of_lt (by omega)]
    omega

private theorem secondId_injective {off i : ℕ} (hword : R.base + R.width + off < R.word)
    (hoff : off < i) (hi : i < R.word) : R.secondId off ≠ R.secondId i := by
  rw [secondId_eq hword, secondId]
  rcases Nat.lt_or_ge (R.base + R.width + i) R.word with h | h
  · rw [Nat.mod_eq_of_lt h]
    omega
  · rw [Nat.mod_eq_sub_mod h, Nat.mod_eq_of_lt (by omega)]
    omega

/-- The first range runs into the second: what is left there belongs to another range. -/
theorem fill_overrun (R : Ranges α) (r : Registry α) (off : ℕ) {cnt : ℕ} (hwidth : 0 < R.width)
    (hword : R.base + R.width * 3 + off < R.word) (hcnt : R.width + off < cnt)
    (hle : cnt ≤ R.word) :
    R.fill r cnt (R.base + R.width + off) = some R.first ∨
      R.fill r cnt (R.base + R.width + off) = some R.third := by
  have hid : R.secondId off = R.base + R.width + off := secondId_eq (by omega)
  induction hcnt with
  | refl =>
    left
    have hfirst : R.base + R.width + off = R.firstId (R.width + off) := by
      rw [firstId_eq (by omega), Nat.add_assoc]
    rw [fill_succ, hfirst, round_first]
    · rw [firstId_eq (by omega), secondId_eq (by omega)]
      omega
    · rw [firstId_eq (by omega), thirdId_eq (by omega)]
      omega
  | @step cnt hcnt ih =>
    have hcnt : R.width + off < cnt := hcnt
    rw [fill_succ]
    by_cases hthird : R.base + R.width + off = R.thirdId cnt
    · right
      rw [hthird, round_third]
    · rw [round_ne _ _ hthird]
      · exact ih (by omega)
      · rw [← hid]
        exact firstId_ne_secondId (by omega) (by omega) (by omega)
      · rw [← hid]
        exact secondId_injective (by omega) (by omega) (by omega)

end Ranges

end ImdbD.RangeRegistry
