import Mathlib

/-! Numerals: lists of character codes that are read as digits of some base. -/

namespace Communo.Lib.Numerals

/-- The value of a digit, by its character code. Letters of either case go on after the digit nine. -/
def digitValue (code : Nat) : Option Nat :=
  if 48 ≤ code ∧ code ≤ 57 then some (code - 48)
  else if 97 ≤ code ∧ code ≤ 122 then some (code - 97 + 10)
  else if 65 ≤ code ∧ code ≤ 90 then some (code - 65 + 10)
  else none

def isDigit (base code : Nat) : Bool := (digitValue code).any (· < base)

def evaluate (base : Nat) (codes : List Nat) : Nat :=
  codes.foldl (fun value code => value * base + (digitValue code).getD 0) 0

theorem code_of_mem_toDigits {number : Nat} {digit : Char} (member : digit ∈ Nat.toDigits 10 number) :
    48 ≤ digit.toNat ∧ digit.toNat ≤ 57 := by
  have isDigit := Nat.isDigit_of_mem_toDigits (by decide) (by decide) member
  simp only [Char.isDigit, Bool.and_eq_true, decide_eq_true_eq, UInt32.le_iff_toNat_le] at isDigit
  exact isDigit

theorem exists_digit_of_mem_toDigits {base : Nat} (valid : 1 < base) {number : Nat} {character : Char}
    (member : character ∈ Nat.toDigits base number) : ∃ digit < base, character = digit.digitChar := by
  induction number using Nat.strongRecOn with
  | ind number ih =>
    by_cases single : number < base
    · rw [Nat.toDigits_of_lt_base single, List.mem_singleton] at member
      exact ⟨number, single, member⟩
    · rw [Nat.toDigits_of_base_le valid (not_lt.mp single), List.mem_append, List.mem_singleton] at member
      rcases member with member | same
      · exact ih _ (Nat.div_lt_self (by omega) valid) member
      · exact ⟨_, Nat.mod_lt number (by omega), same⟩

theorem digitValue_of_decimal {code : Nat} (low : 48 ≤ code) (high : code ≤ 57) :
    digitValue code = some (code - 48) :=
  if_pos ⟨low, high⟩

theorem isDigit_ten_iff (code : Nat) : isDigit 10 code = true ↔ 48 ≤ code ∧ code ≤ 57 := by
  simp only [isDigit, digitValue]
  split_ifs <;> simp <;> omega

theorem isDigit_of_le {base larger code : Nat} (le : base ≤ larger) (digit : isDigit base code = true) :
    isDigit larger code = true := by
  obtain ⟨value, known, small⟩ := (Option.any_eq_true _ _).mp digit
  exact (Option.any_eq_true _ _).mpr ⟨value, known, decide_eq_true ((of_decide_eq_true small).trans_le le)⟩

theorem isDigit_minus (base : Nat) : isDigit base 45 = false := rfl

theorem evaluate_toDigits (number : Nat) : evaluate 10 ((Nat.toDigits 10 number).map Char.toNat) = number := by
  have same (digits : List Char) (decimal : ∀ digit ∈ digits, 48 ≤ digit.toNat ∧ digit.toNat ≤ 57) (value : Nat) :
      (digits.map Char.toNat).foldl (fun value code => value * 10 + (digitValue code).getD 0) value =
        Nat.ofDigitChars 10 digits value := by
    induction digits generalizing value with
    | nil => simp
    | cons digit rest ih =>
      obtain ⟨low, high⟩ := decimal digit (by simp)
      rw [List.map_cons, List.foldl_cons, digitValue_of_decimal low high, Nat.ofDigitChars_cons, Nat.mul_comm 10 value]
      exact ih (fun digit member => decimal digit (List.mem_cons_of_mem _ member)) _
  calc evaluate 10 ((Nat.toDigits 10 number).map Char.toNat)
      = Nat.ofDigitChars 10 (Nat.toDigits 10 number) 0 := same _ (fun _ member => code_of_mem_toDigits member) 0
    _ = number := Nat.ofDigitChars_ten_toDigits

end Communo.Lib.Numerals
