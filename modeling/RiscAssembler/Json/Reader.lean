import RiscAssembler.Json.Quoted
import RiscAssembler.Json.Value
import RiscAssembler.Text

/-!
Contract: JSON values out of text.

Owns:
- the symbols of a JSON text: brackets, braces, commas, colons and scalars;
- the value that a list of symbols spells.

Blanks between symbols do not count. Of the numbers only integers are read. Nothing may stand behind
the value.
-/

namespace RiscAssembler.Json

inductive Symbol where
  | openBracket
  | closeBracket
  | openBrace
  | closeBrace
  | comma
  | colon
  | scalar (value : Value)

def isBlank (character : Char) : Bool :=
  character = ' ' || character = '\t' || character = '\r' || character = '\n'

/-- The symbol that is one character long. -/
def punctuation? : Char → Option Symbol
  | '[' => some .openBracket
  | ']' => some .closeBracket
  | '\x7b' => some .openBrace
  | '\x7d' => some .closeBrace
  | ',' => some .comma
  | ':' => some .colon
  | _ => none

/-- Whether a character can be part of a number or of a literal name. -/
def isBare (character : Char) : Bool :=
  character.isAlphanum || character = '-' || character = '+' || character = '.'

/-- The number that digits spell, without leading zeros. -/
def natural? (digits : List Char) : Option Nat :=
  if digits.all Char.isDigit ∧ digits ≠ [] ∧ (digits.head? = some '0' → digits = ['0']) then
    some (Text.digitsValue 10 digits)
  else none

def bareValue? : List Char → Option Value
  | ['n', 'u', 'l', 'l'] => some .null
  | '-' :: digits => (natural? digits).map fun magnitude => .integer (-magnitude)
  | digits => (natural? digits).map fun magnitude => .integer magnitude

theorem length_unquote?_lt {text string after : List Char}
    (read : unquote? text = some (string, after)) : after.length < text.length := by
  fun_induction unquote? text generalizing string after <;>
    simp_all [Option.bind_eq_some_iff] <;> grind

def symbols? (text : List Char) : Option (List Symbol) :=
  match text with
  | [] => some []
  | character :: rest =>
      if isBlank character then symbols? rest
      else
        match punctuation? character with
        | some symbol => (symbols? rest).map (symbol :: ·)
        | none =>
            if character = '"' then
              match _ : unquote? rest with
              | none => none
              | some (string, after) =>
                  (symbols? after).map (.scalar (.string (String.ofList string)) :: ·)
            else if isBare character then
              match bareValue? (character :: rest.takeWhile isBare) with
              | none => none
              | some value => (symbols? (rest.dropWhile isBare)).map (.scalar value :: ·)
            else none
termination_by text.length
decreasing_by
  · simp
  · simp
  · have shorter := length_unquote?_lt (by assumption)
    simp only [List.length_cons]
    omega
  · have shorter := (List.dropWhile_sublist isBare (l := rest)).length_le
    simp only [List.length_cons]
    omega

/-- A container that is still open, with what it holds so far, the last first. -/
inductive Frame where
  | array (items : List Value)
  | object (fields : List (String × Value)) (key : String)

mutual

/-- Reads on where a value has to start. The frames are the open containers, the innermost first. -/
def beforeValue (frames : List Frame) : List Symbol → Option Value
  | .scalar value :: rest => afterValue value frames rest
  | .openBracket :: .closeBracket :: rest => afterValue (.array []) frames rest
  | .openBracket :: rest => beforeValue (.array [] :: frames) rest
  | .openBrace :: .closeBrace :: rest => afterValue (.object []) frames rest
  | .openBrace :: .scalar (.string key) :: .colon :: rest =>
      beforeValue (.object [] key :: frames) rest
  | _ => none

/-- Reads on behind a value, which belongs to the innermost open container. -/
def afterValue (value : Value) (frames : List Frame) : List Symbol → Option Value
  | [] => if frames.isEmpty then some value else none
  | .comma :: .scalar (.string next) :: .colon :: rest =>
      match frames with
      | .object fields key :: outer =>
          beforeValue (.object ((key, value) :: fields) next :: outer) rest
      | _ => none
  | .comma :: rest =>
      match frames with
      | .array items :: outer => beforeValue (.array (value :: items) :: outer) rest
      | _ => none
  | .closeBracket :: rest =>
      match frames with
      | .array items :: outer => afterValue (.array (value :: items).reverse) outer rest
      | _ => none
  | .closeBrace :: rest =>
      match frames with
      | .object fields key :: outer =>
          afterValue (.object ((key, value) :: fields).reverse) outer rest
      | _ => none
  | _ => none

end

def Value.ofText? (text : String) : Option Value := do
  beforeValue [] (← symbols? text.toList)

end RiscAssembler.Json
