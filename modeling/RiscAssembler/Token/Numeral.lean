import RiscAssembler.Text
import RiscAssembler.Token.Basic

/-!
Contract: the numbers of a program text.

Owns:
- a number as it is spelled: sign, and decimal or hexadecimal digits;
- taking the longest number off the front of a text;
- the immediate that a spelling stands for, if it stands for one.

Taking a number off decides only how far the spelling reaches. Whether it means anything is
decided afterwards: a number without digits, or an integer outside the 64-bit range, has an
extent but no value. `Numeral.spelling_append_read` says that nothing is lost between the two.
-/

namespace RiscAssembler

/-- The digits of a number as spelled. A decimal number is floating-point exactly if it has a point,
that is, if its fraction is present, even when the fraction is empty. -/
inductive Numeral.Magnitude where
  | hexadecimal (capitalMark : Bool) (digits : List Char)
  | decimal (whole : List Char) (fraction : Option (List Char))
deriving DecidableEq, Repr

structure Numeral where
  negative : Bool
  magnitude : Numeral.Magnitude
deriving DecidableEq, Repr

namespace Numeral

/-- A number starts with a digit or a minus sign. -/
def startsWith (character : Char) : Bool :=
  character.isDigit || character = '-'

namespace Magnitude

def spelling : Magnitude → List Char
  | hexadecimal capitalMark digits => '0' :: (if capitalMark then 'X' else 'x') :: digits
  | decimal whole none => whole
  | decimal whole (some fraction) => whole ++ '.' :: fraction

/-- Takes the longest run of digits, with at most one point in it, off the front of a text. -/
def readDecimal (text : List Char) : Magnitude × List Char :=
  let whole := text.takeWhile Char.isDigit
  match text.dropWhile Char.isDigit with
  | '.' :: rest =>
      (decimal whole (some (rest.takeWhile Char.isDigit)), rest.dropWhile Char.isDigit)
  | rest => (decimal whole none, rest)

/-- Takes the longest unsigned number off the front of a text. -/
def read : List Char → Magnitude × List Char
  | '0' :: 'x' :: rest =>
      (hexadecimal false (rest.takeWhile Text.isHexDigit), rest.dropWhile Text.isHexDigit)
  | '0' :: 'X' :: rest =>
      (hexadecimal true (rest.takeWhile Text.isHexDigit), rest.dropWhile Text.isHexDigit)
  | text => readDecimal text

end Magnitude

def spelling (numeral : Numeral) : List Char :=
  if numeral.negative then '-' :: numeral.magnitude.spelling else numeral.magnitude.spelling

/-- Takes the longest number off the front of a text. -/
def read : List Char → Numeral × List Char
  | '-' :: rest => (⟨true, (Magnitude.read rest).1⟩, (Magnitude.read rest).2)
  | text => (⟨false, (Magnitude.read text).1⟩, (Magnitude.read text).2)

/-- The integers that an immediate can hold. -/
def inRange (value : Int) : Bool :=
  Int64.minValue.toInt ≤ value && value ≤ Int64.maxValue.toInt

def signed (negative : Bool) (magnitude : Nat) : Int :=
  if negative then -magnitude else magnitude

/-- The immediate that a number stands for. The digits of a hexadecimal number have to be in range
before the sign is applied, so the least integer has no hexadecimal spelling. -/
def kind? (numeral : Numeral) : Option TokenKind :=
  match numeral.magnitude with
  | .hexadecimal _ digits =>
      let value := Text.digitsValue 16 digits
      if digits ≠ [] ∧ inRange value then some (.immediate (signed numeral.negative value))
      else none
  | .decimal whole none =>
      let value := signed numeral.negative (Text.digitsValue 10 whole)
      if whole ≠ [] ∧ inRange value then some (.immediate value) else none
  | .decimal whole (some fraction) =>
      let digits := whole ++ fraction
      if digits ≠ [] then
        some (.floatImmediate
          (Double.ofDecimal numeral.negative (Text.digitsValue 10 digits) fraction.length))
      else none

namespace Magnitude

theorem spelling_append_readDecimal (text : List Char) :
    (readDecimal text).1.spelling ++ (readDecimal text).2 = text := by
  have split := List.takeWhile_append_dropWhile (p := Char.isDigit) (l := text)
  unfold readDecimal
  generalize text.dropWhile Char.isDigit = rest at split
  split
  · simp [spelling, split]
  · simp [spelling, split]

theorem spelling_append_read (text : List Char) :
    (read text).1.spelling ++ (read text).2 = text := by
  unfold read
  split
  · simp [spelling]
  · simp [spelling]
  · exact spelling_append_readDecimal _

theorem spelling_read_ne_nil {character : Char} {rest : List Char}
    (digit : character.isDigit) : (read (character :: rest)).1.spelling ≠ [] := by
  unfold read
  split
  · simp [spelling]
  · simp [spelling]
  · unfold readDecimal
    split
    · simp [spelling]
    · simp [spelling, digit]

end Magnitude

theorem spelling_append_read (text : List Char) :
    (read text).1.spelling ++ (read text).2 = text := by
  unfold read
  split
  · simp [spelling, Magnitude.spelling_append_read]
  · simp [spelling, Magnitude.spelling_append_read]

/-- Where a number can start, one is taken off. -/
theorem length_read_lt {character : Char} {rest : List Char}
    (starts : startsWith character) :
    (read (character :: rest)).2.length < (character :: rest).length := by
  have whole := congrArg List.length (spelling_append_read (character :: rest))
  have spelled : (read (character :: rest)).1.spelling ≠ [] := by
    unfold read
    split
    · simp [spelling]
    · rename_i notMinus
      have digit : character.isDigit := by
        simp only [startsWith, Bool.or_eq_true, decide_eq_true_eq] at starts
        rcases starts with digit | minus
        · exact digit
        · exact absurd (by rw [minus]) (notMinus rest)
      simp only [spelling, Bool.false_eq_true, if_false]
      exact Magnitude.spelling_read_ne_nil digit
  have positive := List.length_pos_iff.mpr spelled
  simp only [List.length_append] at whole
  omega

end Numeral

end RiscAssembler
