import RiscAssembler.Proofs.Text.LetterCase
import RiscAssembler.Proofs.Token.Replacing
import RiscAssembler.Proofs.Token.Spelling

/-!
Contract: the ways to write one integer, in decimal and in hexadecimal digits.

Owns:
- the numbers that write an integer in its shortest decimal form, or in hexadecimal digits behind
  any number of zeros and in any letter case;
- each of them read as that integer, alone and in front of a text that does not go on with it;
- one of them put in place of another.

Does not own: the least integer in hexadecimal digits.

Main statements: `Numeral.Writes.tokenize_spelling` and `Numeral.Writes.scan_replace`.
-/

namespace RiscAssembler

namespace Numeral

/-- The ways to write an integer. The sign stands in front of the mark of the hexadecimal digits. -/
inductive Writes (value : Int) : Numeral → Prop
  | decimal : Writes value (signedNumeral value)
  | hexadecimal {capitalMark : Bool} (zeros : Nat) {digits : List Char}
      (notLeast : value ≠ -2 ^ 63)
      (spelled : digits.map Char.toUpper = (Nat.toDigits 16 value.natAbs).map Char.toUpper) :
      Writes value
        ⟨decide (value < 0), .hexadecimal capitalMark (List.replicate zeros '0' ++ digits)⟩

/-- Digits in any letter case are the digits that they are in upper case. -/
theorem isHexDigit_of_map_toUpper {digits : List Char} {number : Nat}
    (spelled : digits.map Char.toUpper = (Nat.toDigits 16 number).map Char.toUpper) :
    ∀ digit ∈ digits, Text.isHexDigit digit := by
  intro digit member
  have upper : digit.toUpper ∈ digits.map Char.toUpper := List.mem_map_of_mem member
  rw [spelled] at upper
  obtain ⟨plain, isPlain, same⟩ := List.mem_map.mp upper
  rw [← Text.isHexDigit_toUpper, ← same, Text.isHexDigit_toUpper]
  exact Text.isHexDigit_of_mem_toDigits isPlain

theorem digitsValue_of_map_toUpper {digits : List Char} {number : Nat}
    (spelled : digits.map Char.toUpper = (Nat.toDigits 16 number).map Char.toUpper) (zeros : Nat) :
    Text.digitsValue 16 (List.replicate zeros '0' ++ digits) = number := by
  rw [Text.digitsValue_zeros, ← Text.digitsValue_toUpper, spelled, Text.digitsValue_toUpper,
    Text.digitsValue_toDigits (by decide) (by decide)]

namespace Writes

variable {value : Int} {numeral : Numeral} (writes : Writes value numeral)
include writes

theorem wellSpelled : numeral.WellSpelled := by
  cases writes with
  | decimal => exact fun _ => Text.isDigit_of_mem_decimal
  | hexadecimal zeros notLeast spelled =>
      intro digit member
      rcases List.mem_append.mp member with zero | member
      · rw [List.eq_of_mem_replicate zero]
        rfl
      · exact isHexDigit_of_map_toUpper spelled digit member

theorem kind?_eq (lower : -2 ^ 63 ≤ value) (upper : value ≤ 2 ^ 63 - 1) :
    numeral.kind? = some (.immediate value) := by
  cases writes with
  | decimal => exact kind?_signedNumeral ((inRange_iff value).mpr ⟨lower, by omega⟩)
  | @hexadecimal capitalMark zeros digits notLeast spelled =>
      have nonempty : List.replicate zeros '0' ++ digits ≠ [] := by
        intro empty
        obtain ⟨_, rfl⟩ := List.append_eq_nil_iff.mp empty
        exact Nat.toDigits_ne_nil (List.map_eq_nil_iff.mp spelled.symm)
      have small : inRange value.natAbs := (inRange_iff _).mpr ⟨by omega, by omega⟩
      simp only [kind?, digitsValue_of_map_toUpper spelled, signed_natAbs]
      exact if_pos ⟨nonempty, small⟩

theorem negative_eq : numeral.negative = decide (value < 0) := by
  cases writes with
  | decimal => rfl
  | hexadecimal zeros notLeast spelled => rfl

theorem head?_of_negative (negative : value < 0) : numeral.spelling.head? = some '-' := by
  rw [spelling, writes.negative_eq, if_pos (decide_eq_true negative)]
  rfl

theorem exists_digit_of_nonnegative (nonnegative : 0 ≤ value) :
    ∃ character ∈ numeral.spelling.head?, character.isDigit := by
  have unsigned : numeral.spelling = numeral.magnitude.spelling := by
    rw [spelling, writes.negative_eq, if_neg (by simpa using nonnegative)]
  rw [unsigned]
  cases writes with
  | decimal => exact Text.exists_head_decimal value.natAbs
  | hexadecimal zeros notLeast spelled => exact ⟨'0', rfl, rfl⟩

theorem exists_head : ∃ character ∈ numeral.spelling.head?,
    startsWith character ∧ (character = '-' → numeral.negative) := by
  rcases Int.lt_or_le value 0 with negative | nonnegative
  · have sign : numeral.negative := writes.negative_eq.trans (decide_eq_true negative)
    exact ⟨'-', writes.head?_of_negative negative, rfl, fun _ => sign⟩
  · obtain ⟨character, first, digit⟩ := writes.exists_digit_of_nonnegative nonnegative
    refine ⟨character, first, by simp [startsWith, digit], ?_⟩
    rintro rfl
    cases digit

/-- Any way to write an integer can stand in place of another. -/
theorem endsAlike {other : Numeral} (writesOther : Writes value other) (after : List Char) :
    EndsAlike (numeral.spelling ++ after) (other.spelling ++ after) := by
  rcases Int.lt_or_le value 0 with negative | nonnegative
  · left
    rw [List.head?_append, List.head?_append, writes.head?_of_negative negative,
      writesOther.head?_of_negative negative]
  · obtain ⟨character, first, digit⟩ := writes.exists_digit_of_nonnegative nonnegative
    refine .inr ⟨character, ?_, digit⟩
    rw [List.head?_append, Option.mem_def.mp first]
    rfl

variable (lower : -2 ^ 63 ≤ value) (upper : value ≤ 2 ^ 63 - 1)
include lower upper

/-- Any way to write an integer is read as the integer, in front of a text that does not go on with
it. -/
theorem tokenHere_append {after : List Char} (ends : numeral.magnitude.EndsBefore after)
    (line : Nat) : Cursor.tokenHere (numeral.spelling ++ after) line =
      .token ⟨.immediate value, String.ofList numeral.spelling, line⟩ ⟨after, line⟩ := by
  obtain ⟨character, first, starts, sign⟩ := writes.exists_head
  obtain ⟨rest, spelled⟩ := List.head?_eq_some_iff.mp first
  have longest : numeral.IsLongest (numeral.spelling ++ after) after := by
    refine ⟨rfl, fun minus => sign ?_, writes.wellSpelled, ends⟩
    rw [spelled] at minus
    exact Option.some.inj minus
  have read := longest.read_eq
  rw [spelled, List.cons_append] at read ⊢
  rw [Cursor.tokenHere_number starts, read, writes.kind?_eq lower upper, spelled]
  rfl

theorem spells : Spells numeral.spelling (.immediate value) := by
  intro line
  have ends := Magnitude.endsBefore_nil writes.wellSpelled
  have here := writes.tokenHere_append lower upper ends line
  rwa [List.append_nil] at here

/-- Alone in a text, any way to write an integer is the integer and nothing else. -/
theorem tokenize_spelling : tokenize (String.ofList numeral.spelling) =
    ⟨[⟨.immediate value, String.ofList numeral.spelling, 1⟩], []⟩ := by
  apply tokenize_of_scan_eq (List.cons_ne_nil _ _)
  have scanned := (writes.spells lower upper).scan_append separated_nil 1
  rw [List.append_nil, Cursor.scan_nil] at scanned
  rw [Cursor.start, String.toList_ofList]
  exact scanned

theorem scan_append {after : List Char} (ends : numeral.magnitude.EndsBefore after) (line : Nat) :
    (Cursor.mk (numeral.spelling ++ after) line).scan =
      .token ⟨.immediate value, String.ofList numeral.spelling, line⟩ ::
        (Cursor.mk after line).scan := by
  have step : (Cursor.mk (numeral.spelling ++ after) line).next =
      .token ⟨.immediate value, String.ofList numeral.spelling, line⟩ ⟨after, line⟩ := by
    rw [Cursor.next, Cursor.skipTrivia, (writes.spells lower upper).skipFrom_append]
    exact writes.tokenHere_append lower upper ends line
  rw [Cursor.scan_eq, step]

/-- Another way to write an integer, put in place of a token, changes the spelling of that token and
nothing else. -/
theorem scan_replace {other : Numeral} (writesOther : Writes value other) {before after : List Char}
    {line : Nat}
    (stands : Token.StandsBetween before after
      ⟨.immediate value, String.ofList numeral.spelling, line⟩)
    (ends : other.magnitude.EndsBefore after) :
    ∃ items,
      (Cursor.mk (before ++ (numeral.spelling ++ after)) 1).scan =
          items ++ .token ⟨.immediate value, String.ofList numeral.spelling, line⟩ ::
            (Cursor.mk after line).scan ∧
        (Cursor.mk (before ++ (other.spelling ++ after)) 1).scan =
          items ++ .token ⟨.immediate value, String.ofList other.spelling, line⟩ ::
            (Cursor.mk after line).scan := by
  have spells := writes.spells lower upper
  have spellsOther := writesOther.spells lower upper
  have nonempty : numeral.spelling ++ after ≠ [] :=
    List.append_ne_nil_of_left_ne_nil spells.ne_nil _
  have found := stands.scan_eq
  obtain ⟨items, comes⟩ := stands.comes
  rw [String.toList_ofList] at found comes
  have reached : Cursor.ComesTo ⟨numeral.spelling ++ after, line⟩
      ((Cursor.mk before 1).append (numeral.spelling ++ after)) items := comes
  have replaced := reached.replace nonempty (spells.skipFrom_append after)
    (spellsOther.skipFrom_append after) (writes.endsAlike writesOther after)
  refine ⟨items, ?_, ?_⟩
  · rw [comes.scan_eq, found]
  · rw [← writesOther.scan_append lower upper ends]
    exact replaced.scan_eq

end Writes

end Numeral

end RiscAssembler
