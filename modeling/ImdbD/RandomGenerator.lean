import ImdbD.AtomicProgram
import Mathlib.Data.Rat.Floor

/-!
# The random generator of TPC-C

`rand()` is a stream of numbers of which nothing is known. A loop that draws
until it meets a number that it has not seen takes a bound on its rounds.
-/
namespace ImdbD.Benchmark.TPCC
open AtomicProgram

/-- The numbers that `rand()` is still to return. -/
abbrev Rand := ℕ → ℕ

namespace RandomGenerator

def syllables : List String :=
  ["BAR", "OUGHT", "ABLE", "PRI", "PRES", "ESE", "ANTI", "CALLY", "ATION", "EING"]

def rand : Program Rand ℕ := .atomic (fun r => some (r 0, fun n => r (n + 1)))

def generateInteger (min max : ℤ) : Program Rand ℤ := do
  let n ← rand
  return (n : ℤ) % (max - min + 1) + min

def generateFixedPoint (decimalPlaces : ℕ) (min max : ℚ) : Program Rand ℚ := do
  let multiplier : ℚ := 10 ^ decimalPlaces
  let n ← generateInteger ⌊min * multiplier + 1 / 2⌋ ⌊max * multiplier + 1 / 2⌋
  return n / multiplier

def generateRandomString (minLength maxLength : ℤ) (base : Char) (numCharacters : ℤ) :
    Program Rand String := do
  let length ← generateInteger minLength maxLength
  let chars ← Program.collect (fun _ => do
    let n ← generateInteger 0 (numCharacters - 1)
    return Char.ofNat (base.toNat + n.toNat)) (List.range length.toNat)
  return String.ofList chars

def generateCString (minLength maxLength : ℤ) : Program Rand String :=
  generateRandomString minLength maxLength 'a' 26

def generateNString (minLength maxLength : ℤ) : Program Rand String :=
  generateRandomString minLength maxLength '0' 10

/-- `c` is the constant that belongs to `a`. -/
def generateNonuniformInteger (a c x y : ℤ) : Program Rand ℤ := do
  let n ← generateInteger 0 a
  let m ← generateInteger x y
  return (((n.toNat ||| m.toNat : ℕ) : ℤ) + c) % (y - x + 1) + x

def generateLastName (number : ℤ) : String :=
  let syllable (i : ℤ) := (syllables[i.toNat]?).getD ""
  syllable (number / 100) ++ syllable (number / 10 % 10) ++ syllable (number % 10)

def generateRandomLastName (cLast maxCid : ℤ) : Program Rand String := do
  let minCid := if maxCid - 1 < 999 then maxCid - 1 else 999
  let n ← generateNonuniformInteger 255 cLast 0 minCid
  return generateLastName n

/-- Draw until the number is new; `rounds` bounds the draws. -/
def selectUniqueId (min max : ℤ) (rows : List ℤ) : ℕ → Program Rand ℤ
  | 0 => Program.fault
  | rounds + 1 => do
    let num ← generateInteger min max
    if num = -1 ∨ num ∈ rows then selectUniqueId min max rows rounds else pure num

def selectUniqueIds (rounds : ℕ) (min max : ℤ) : ℕ → List ℤ → Program Rand (List ℤ)
  | 0, rows => pure rows
  | numUnique + 1, rows => do
    let num ← selectUniqueId min max rows rounds
    selectUniqueIds rounds min max numUnique (num :: rows)

/-- Two streets, the city, the state and the zip code. -/
def generateAddress : Program Rand (String × String × String × String × String) := do
  let street1 ← generateCString 10 20
  let street2 ← generateCString 10 20
  let city ← generateCString 10 20
  let state ← generateCString 2 2
  let zip ← generateNString 4 4
  return (street1, street2, city, state, zip ++ "11111")

def generateTax : Program Rand ℚ := generateFixedPoint 4 0 (1 / 5)

theorem total_generateInteger (min max : ℤ) : (generateInteger min max).Total :=
  .bind (.atomic (fun _ => ⟨_, _, rfl⟩)) (fun _ => .pure _)

theorem total_generateFixedPoint (decimalPlaces : ℕ) (min max : ℚ) :
    (generateFixedPoint decimalPlaces min max).Total :=
  .bind (total_generateInteger _ _) (fun _ => .pure _)

theorem total_generateRandomString (minLength maxLength : ℤ) (base : Char) (numCharacters : ℤ) :
    (generateRandomString minLength maxLength base numCharacters).Total :=
  .bind (total_generateInteger _ _) (fun _ =>
    .bind (.collect (fun _ => .bind (total_generateInteger _ _) (fun _ => .pure _)) _)
      (fun _ => .pure _))

theorem total_generateCString (minLength maxLength : ℤ) :
    (generateCString minLength maxLength).Total :=
  total_generateRandomString _ _ _ _

theorem total_generateNString (minLength maxLength : ℤ) :
    (generateNString minLength maxLength).Total :=
  total_generateRandomString _ _ _ _

theorem total_generateRandomLastName (cLast maxCid : ℤ) :
    (generateRandomLastName cLast maxCid).Total :=
  .bind (.bind (total_generateInteger _ _) (fun _ =>
    .bind (total_generateInteger _ _) (fun _ => .pure _))) (fun _ => .pure _)

theorem total_generateAddress : generateAddress.Total :=
  .bind (total_generateCString _ _) (fun _ => .bind (total_generateCString _ _) (fun _ =>
    .bind (total_generateCString _ _) (fun _ => .bind (total_generateCString _ _) (fun _ =>
      .bind (total_generateNString _ _) (fun _ => .pure _)))))

theorem total_generateTax : generateTax.Total := total_generateFixedPoint _ _ _

theorem run_generateInteger (min max : ℤ) (r : Rand) : (generateInteger min max).run r =
    some ((r 0 : ℤ) % (max - min + 1) + min, fun n => r (n + 1)) := by
  simp [generateInteger, rand]

/-- A drawn integer lies between the bounds. -/
theorem generateInteger_spec {min max : ℤ} (h : min ≤ max) (r : Rand) :
    ∃ n r', (generateInteger min max).run r = some (n, r') ∧ min ≤ n ∧ n ≤ max := by
  refine ⟨_, _, run_generateInteger min max r, ?_, ?_⟩
  · have hn := Int.emod_nonneg (r 0 : ℤ) (show max - min + 1 ≠ 0 by omega)
    omega
  · have hn := Int.emod_lt_of_pos (r 0 : ℤ) (show 0 < max - min + 1 by omega)
    omega

theorem always_integer {min max : ℤ} (h : min ≤ max) :
    (generateInteger min max).Always (fun n => min ≤ n ∧ n ≤ max) := fun r => by
  obtain ⟨n, r', hrun, hmem⟩ := generateInteger_spec h r
  exact ⟨n, r', hrun, hmem⟩

/-- A drawn text has lower-case letters only, as many as the bounds allow. -/
theorem always_generateCString {minLength maxLength : ℤ} (h : minLength ≤ maxLength) :
    (generateCString minLength maxLength).Always (fun text =>
      minLength.toNat ≤ text.toList.length ∧ text.toList.length ≤ maxLength.toNat ∧
        ∀ c ∈ text.toList, 'a' ≤ c ∧ c ≤ 'z') := by
  have hletter : ∀ n < 26, 'a' ≤ Char.ofNat ('a'.toNat + n) ∧ Char.ofNat ('a'.toNat + n) ≤ 'z' := by
    decide
  refine .bind (always_integer h) (fun length hlength => ?_)
  refine .bind (.collect (Q := fun c => 'a' ≤ c ∧ c ≤ 'z') (fun _ => ?_)) (fun chars hchars => .pure ?_)
  · exact .bind (always_integer (by decide)) (fun n hn => .pure (hletter n.toNat (by omega)))
  · rw [String.toList_ofList, hchars.1, List.length_range]
    exact ⟨by omega, by omega, hchars.2⟩

/-- A drawn text is at most as long as the upper bound. -/
theorem length_of_generateRandomString {minLength maxLength numCharacters : ℤ} {base : Char}
    (h : minLength ≤ maxLength) {r r' : Rand} {text : String}
    (hrun : (generateRandomString minLength maxLength base numCharacters).run r = some (text, r')) :
    text.toList.length ≤ maxLength.toNat := by
  obtain ⟨length, r₁, hlength, hrun⟩ := Program.run_bind_eq_some.mp hrun
  obtain ⟨chars, r₂, hchars, he⟩ := Program.run_bind_eq_some.mp hrun
  cases he
  obtain ⟨n, r₃, hn, -, hle⟩ := generateInteger_spec h r
  rw [hn] at hlength
  cases hlength
  rw [String.toList_ofList, Program.length_of_collect hchars, List.length_range]
  omega

end RandomGenerator
end ImdbD.Benchmark.TPCC
