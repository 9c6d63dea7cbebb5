import Mathlib.Data.List.Basic
import Mathlib.Data.List.Induction
import Mathlib.Data.Nat.Digits.Defs
import RiscAssembler.Text

/-!
Contract: runs of digits, and the numbers that they spell.

Owns:
- the value of a run of digits, digit by digit and as a sum of powers of the base;
- the number that is read back from its own digits, in any base up to sixteen;
- the decimal spelling, which has no leading zero, and is the only spelling of its value without
  one.

Main statements: `digitsValue_toDigits` and `decimal_digitsValue`, which are inverse to one another
for decimal spellings.
-/

namespace RiscAssembler.Text

/-! ### Values -/

theorem digitsValue_concat (base : Nat) (digits : List Char) (digit : Char) :
    digitsValue base (digits ++ [digit]) = base * digitsValue base digits + digitValue digit := by
  rw [digitsValue, List.foldl_append]
  rfl

/-- The value of a run of digits is the sum of their values, each times the power of the base that
belongs to its place. -/
theorem digitsValue_eq_ofDigits (base : Nat) (digits : List Char) :
    digitsValue base digits = Nat.ofDigits base (digits.reverse.map digitValue) := by
  induction digits using List.reverseRecOn with
  | nil => rfl
  | append_singleton digits digit inductionHypothesis =>
      rw [digitsValue_concat, List.reverse_concat, List.map_cons, Nat.ofDigits_cons,
        inductionHypothesis, Nat.add_comm]

theorem digitsValue_zero_cons (base : Nat) (digits : List Char) :
    digitsValue base ('0' :: digits) = digitsValue base digits := by
  show digits.foldl _ (base * 0 + digitValue '0') = _
  rw [Nat.mul_zero]
  rfl

theorem digitsValue_zeros (base zeros : Nat) (digits : List Char) :
    digitsValue base (List.replicate zeros '0' ++ digits) = digitsValue base digits := by
  induction zeros with
  | zero => rfl
  | succ zeros inductionHypothesis =>
      rw [List.replicate_succ, List.cons_append, digitsValue_zero_cons, inductionHypothesis]

/-! ### Digits of a number -/

theorem digitValue_digitChar : ∀ value < 16, digitValue (Nat.digitChar value) = value := by
  decide

theorem isHexDigit_digitChar : ∀ value < 16, isHexDigit (Nat.digitChar value) := by
  decide

/-- The digits of a number spell the number. -/
theorem digitsValue_toDigits {base : Nat} (two : 2 ≤ base) (sixteen : base ≤ 16) (number : Nat) :
    digitsValue base (Nat.toDigits base number) = number := by
  induction number using Nat.strongRecOn with
  | ind number inductionHypothesis =>
      by_cases small : number < base
      · rw [Nat.toDigits_of_lt_base small]
        show base * 0 + digitValue number.digitChar = number
        rw [digitValue_digitChar number (by omega)]
        omega
      · have large : base ≤ number := Nat.le_of_not_lt small
        have shorter : number / base < number := Nat.div_lt_self (by omega) two
        have last : number % base < base := Nat.mod_lt _ (by omega)
        rw [Nat.toDigits_of_base_le two large, digitsValue_concat, inductionHypothesis _ shorter,
          digitValue_digitChar _ (by omega), Nat.div_add_mod]

theorem isHexDigit_of_mem_toDigits {number : Nat} {digit : Char}
    (member : digit ∈ Nat.toDigits 16 number) : isHexDigit digit := by
  induction number using Nat.strongRecOn with
  | ind number inductionHypothesis =>
      by_cases small : number < 16
      · rw [Nat.toDigits_of_lt_base small, List.mem_singleton] at member
        rw [member]
        exact isHexDigit_digitChar number small
      · have shorter : number / 16 < number := Nat.div_lt_self (by omega) (by decide)
        rw [Nat.toDigits_of_base_le (by decide) (Nat.le_of_not_lt small)] at member
        rcases List.mem_append.mp member with earlier | last
        · exact inductionHypothesis _ shorter earlier
        · rw [List.mem_singleton.mp last]
          exact isHexDigit_digitChar _ (Nat.mod_lt number (by decide))

/-! ### Decimal spellings -/

theorem isDigit_of_mem_decimal {number : Nat} {digit : Char} (member : digit ∈ decimal number) :
    digit.isDigit :=
  Nat.isDigit_of_mem_toDigits (by decide) (by decide) member

theorem digitsValue_decimal (number : Nat) : digitsValue 10 (decimal number) = number :=
  digitsValue_toDigits (by decide) (by decide) number

theorem decimal_ne_nil (number : Nat) : decimal number ≠ [] :=
  Nat.toDigits_ne_nil

theorem exists_head_decimal (number : Nat) :
    ∃ digit ∈ (decimal number).head?, digit.isDigit := by
  obtain ⟨digit, rest, spelled⟩ := List.exists_cons_of_ne_nil (decimal_ne_nil number)
  have isDigit : digit.isDigit := isDigit_of_mem_decimal (spelled ▸ List.mem_cons_self)
  exact ⟨digit, congrArg List.head? spelled, isDigit⟩

/-- A decimal spelling has no leading zeros. -/
theorem head?_decimal_eq_zero_iff {number : Nat} :
    (decimal number).head? = some '0' ↔ number = 0 := by
  unfold decimal
  induction number using Nat.strongRecOn with
  | ind number inductionHypothesis =>
      by_cases small : number < 10
      · rw [Nat.toDigits_of_lt_base small, List.head?_cons, Option.some.injEq,
          Nat.digitChar_eq_zero]
      · have large : 10 ≤ number := Nat.le_of_not_lt small
        have shorter : number / 10 < number := Nat.div_lt_self (by omega) (by decide)
        rw [Nat.toDigits_of_base_le (by decide) large,
          List.head?_append_of_ne_nil _ Nat.toDigits_ne_nil, inductionHypothesis _ shorter]
        omega

theorem codePoint_of_isDigit {digit : Char} (isDigit : digit.isDigit) :
    '0'.toNat ≤ digit.toNat ∧ digit.toNat < '0'.toNat + 10 := by
  have bounds : 48 ≤ digit.toNat ∧ digit.toNat ≤ 57 := by
    simpa [Char.isDigit, UInt32.le_iff_toNat_le] using isDigit
  have zero : '0'.toNat = 48 := rfl
  omega

theorem digitValue_lt {digit : Char} (isDigit : digit.isDigit) : digitValue digit < 10 := by
  have bounds := codePoint_of_isDigit isDigit
  rw [digitValue, if_pos isDigit]
  omega

theorem digitChar_digitValue {digit : Char} (isDigit : digit.isDigit) :
    Nat.digitChar (digitValue digit) = digit := by
  have bounds := codePoint_of_isDigit isDigit
  have zero : '0'.toNat = 48 := rfl
  apply Char.toNat_inj.mp
  rw [Nat.toNat_digitChar_of_lt_ten (digitValue_lt isDigit), digitValue, if_pos isDigit]
  omega

/-- A run of digits without a leading zero is the decimal spelling of its value. -/
theorem decimal_digitsValue {digits : List Char} (nonempty : digits ≠ [])
    (allDigits : ∀ digit ∈ digits, digit.isDigit) (noZero : digits.head? ≠ some '0') :
    decimal (digitsValue 10 digits) = digits := by
  induction digits using List.reverseRecOn with
  | nil => exact absurd rfl nonempty
  | append_singleton digits digit inductionHypothesis =>
      have isDigit : digit.isDigit := allDigits digit (by simp)
      have small := digitValue_lt isDigit
      have last : decimal (digitValue digit) = [digit] := by
        rw [decimal, Nat.toDigits_of_lt_base small, digitChar_digitValue isDigit]
      rw [digitsValue_concat]
      by_cases single : digits = []
      · subst single
        show decimal (10 * 0 + digitValue digit) = [digit]
        rw [Nat.mul_zero, Nat.zero_add, last]
      · rw [List.head?_append_of_ne_nil _ single] at noZero
        have front : decimal (digitsValue 10 digits) = digits := by
          apply inductionHypothesis single _ noZero
          exact fun other member => allDigits other (List.mem_append_left _ member)
        have positive : 0 < digitsValue 10 digits := by
          apply Nat.pos_of_ne_zero
          intro zero
          rw [← front] at noZero
          exact noZero (head?_decimal_eq_zero_iff.mpr zero)
        have joined := Nat.toDigits_append_toDigits (by decide : 1 < 10) positive small
        rw [decimal, ← joined]
        show decimal (digitsValue 10 digits) ++ decimal (digitValue digit) = digits ++ [digit]
        rw [front, last]

end RiscAssembler.Text
