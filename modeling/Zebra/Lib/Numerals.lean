import Zebra.Lib.Command

namespace Zebra
open List Bool
section
variable (word : Word)

/-- The value of a numeral. -/
def numeral : Nat := word.foldl (fun value c => value * 10 + (c.toNat - 48)) 0

def digits : Bool := word.all Char.isDigit

theorem digit_plain {c} (isDigit : c.isDigit) :
    isSpace c = false ∧ c ≠ '-' ∧ c ≠ '+' ∧ c ≠ '.' ∧ c ≠ '/' := by
  simp only [Char.isDigit, and_eq_true, decide_eq_true_eq, ge_iff_le] at isDigit
  refine ⟨?_, ?_, ?_, ?_, ?_⟩
  · simp only [isSpace, or_eq_false_iff, decide_eq_false_iff_not, and_eq_false_iff]
    refine ⟨?_, .inr ?_⟩
    · rintro rfl
      exact absurd isDigit.1 (by decide)
    · intro low
      exact absurd (UInt32.le_trans isDigit.1 low) (by decide)
  all_goals
    rintro rfl
    exact nomatch isDigit

/-- What `atoi` makes of a numeral. -/
def intOfNumeral : Int := intOfLong (min (numeral word : Int) (2 ^ 63 - 1))

section
variable (isDigits : digits word)
include isDigits

theorem readDigits_digits (value count : Nat) : readDigits value count word =
      (word.foldl (fun value c => value * 10 + (c.toNat - 48)) value, count + word.length, []) := by
  induction word generalizing value count with
  | nil => rfl
  | cons c word ih =>
    simp only [digits, all_cons, and_eq_true] at isDigits
    simp only [readDigits, isDigits.1, if_true, ih isDigits.2, foldl_cons, length_cons]
    rw [Nat.add_assoc, Nat.add_comm 1]

theorem readSign_digits : word.dropWhile isSpace = word ∧ readSign word = (false, word) := by
  cases word with
  | nil => exact ⟨rfl, rfl⟩
  | cons c word =>
    simp only [digits, all_cons, and_eq_true] at isDigits
    have plain := digit_plain isDigits.1
    refine ⟨by simp [plain.1], ?_⟩
    unfold readSign
    split
    · simp_all
    · simp_all
    · rfl

theorem strtol_digits : (strtol word).1 = min (numeral word : Int) (2 ^ 63 - 1) := by
  have parts := readSign_digits word isDigits
  simp only [strtol, parts.1, parts.2, readDigits_digits word isDigits 0 0, Nat.zero_add]
  cases word with
  | nil => rfl
  | cons c word => rfl

theorem atoi_digits : atoi word = intOfNumeral word := by
  rw [atoi, strtol_digits word isDigits, intOfNumeral]

end
end

theorem intOfLong_small {value} (low : 0 ≤ value) (high : value < 2 ^ 31) :
    intOfLong value = value := by
  rw [intOfLong, BitVec.toInt_ofInt]
  exact Int.bmod_eq_of_le_mul_two (by omega) (by omega)

theorem digits_plain {num} (isDigits : digits num) : '.' ∉ num ∧ '/' ∉ num := by
  simp only [digits, all_eq_true] at isDigits
  constructor
  · intro member
    exact (digit_plain (isDigits _ member)).2.2.2.1 rfl
  · intro member
    exact (digit_plain (isDigits _ member)).2.2.2.2 rfl

end Zebra
