import RiscAssembler.Text
import RiscAssembler.Token.Basic

/-!
Contract: the words of a program text, which name mnemonics and registers.

Owns:
- the extent of a word: the longest run of ASCII letters and digits;
- the token kind that a word stands for, if it stands for one.

Letter case does not count. The registers are `X1` to `X32`, without leading zeros.
-/

namespace RiscAssembler.Identifier

/-- The number of a register, from its upper-case name. -/
def registerNumber? : List Char → Option Nat
  | 'X' :: digits =>
      let number := Text.digitsValue 10 digits
      if digits.all Char.isDigit ∧ digits.head? ≠ some '0' ∧ 1 ≤ number ∧ number ≤ 32 then
        some number
      else none
  | _ => none

def kind? (word : List Char) : Option TokenKind :=
  let upper := word.map Char.toUpper
  match Mnemonic.ofName? (String.ofList upper) with
  | some mnemonic => some (.opcode mnemonic)
  | none => (registerNumber? upper).map .register

/-- Takes the longest word off the front of a text. -/
def read (text : List Char) : List Char × List Char :=
  (text.takeWhile Char.isAlphanum, text.dropWhile Char.isAlphanum)

theorem append_read (text : List Char) : (read text).1 ++ (read text).2 = text :=
  List.takeWhile_append_dropWhile

/-- Where a word can start, one is taken off. -/
theorem length_read_lt {character : Char} {rest : List Char}
    (letter : character.isAlphanum) :
    (read (character :: rest)).2.length < (character :: rest).length := by
  have shorter := (List.dropWhile_sublist Char.isAlphanum (l := rest)).length_le
  simp only [read, List.dropWhile_cons, letter, if_true, List.length_cons]
  omega

end RiscAssembler.Identifier
