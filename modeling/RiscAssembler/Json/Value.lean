import RiscAssembler.Json.Number
import RiscAssembler.Json.Quoted

/-!
Contract: the values that a JSON text can carry here, and their texts.

Owns:
- the values: an object keeps its fields in order, and integers and floating-point numbers are kept
  apart, so an integer of any size is exact;
- the compact text, without blanks;
- the indented text, with two spaces per level, one item or field a line, and empty containers
  closed at once.
-/

namespace RiscAssembler.Json

inductive Value where
  | null
  | integer (value : Int)
  | float (value : Double)
  | string (text : String)
  | array (items : List Value)
  | object (fields : List (String × Value))
deriving Repr

/-! ### Texts -/

mutual

def compactText : Value → List Char
  | .null => ['n', 'u', 'l', 'l']
  | .integer value => Text.signedDecimal value
  | .float value => floatText value
  | .string text => quoted text.toList
  | .array items => '[' :: [','].intercalate (compactItems items) ++ [']']
  | .object fields => '\x7b' :: [','].intercalate (compactFields fields) ++ ['\x7d']

def compactItems : List Value → List (List Char)
  | [] => []
  | item :: rest => compactText item :: compactItems rest

def compactFields : List (String × Value) → List (List Char)
  | [] => []
  | (key, value) :: rest => (quoted key.toList ++ ':' :: compactText value) :: compactFields rest

end

/-- A line break and the indentation of a level. -/
def lineBreak (level : Nat) : List Char :=
  '\n' :: List.replicate (2 * level) ' '

/-- A container at a level, with each of its parts on a line of the next level. -/
def enclosed (level : Nat) (opening closing : Char) (parts : List (List Char)) : List Char :=
  if parts.isEmpty then [opening, closing]
  else
    opening :: lineBreak (level + 1) ++ (',' :: lineBreak (level + 1)).intercalate parts ++
      lineBreak level ++ [closing]

mutual

def indentedText (level : Nat) : Value → List Char
  | .null => ['n', 'u', 'l', 'l']
  | .integer value => Text.signedDecimal value
  | .float value => floatText value
  | .string text => quoted text.toList
  | .array items => enclosed level '[' ']' (indentedItems (level + 1) items)
  | .object fields => enclosed level '\x7b' '\x7d' (indentedFields (level + 1) fields)

def indentedItems (level : Nat) : List Value → List (List Char)
  | [] => []
  | item :: rest => indentedText level item :: indentedItems level rest

def indentedFields (level : Nat) : List (String × Value) → List (List Char)
  | [] => []
  | (key, value) :: rest =>
      (quoted key.toList ++ ':' :: ' ' :: indentedText level value) :: indentedFields level rest

end

namespace Value

def compact (value : Value) : String :=
  String.ofList (compactText value)

def indented (value : Value) : String :=
  String.ofList (indentedText 0 value)

end Value

end RiscAssembler.Json
