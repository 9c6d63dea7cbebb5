import RiscAssembler.Positional.Place
import RiscAssembler.Token.Scan

/-!
Contract: scanning with a cursor over all characters.

Owns:
- skipping blanks and comments, and dropping the rest of a faulted line;
- the number and the word at a place, cut out of the text from their first place to their last;
- the sign of a hexadecimal number, which is applied after its digits have become an integer;
- the tokens and the lexical faults from a place on.

A cursor is the number of characters in front of it, and it only moves forward by one character or
over a run of them. There is no result if a piece of text is cut out that is not there, if the
opposite of an integer does not have 64 bits, or if a step does not move the cursor on or takes it
behind the end.

Does not own: what a number or a word means, once it has been cut out.
-/

namespace RiscAssembler.Positional

/-- Whether a character is no line break. -/
def isInline (character : Char) : Bool :=
  character ≠ '\n'

section Places

variable (text : List Char)

/-- Behind blanks and comments. -/
def Place.skipLayout (place : Place) : Place :=
  let unblank := place.advanceWhile text Cursor.isBlank
  match _here : text[unblank.position]? with
  | some '#' => (unblank.advanceWhile text isInline).skipLayout
  | _ => unblank
termination_by text.length - place.position
decreasing_by
  have ahead := place.position_le_advanceWhile text Cursor.isBlank
  apply Nat.lt_of_lt_of_le (sub_lt_of_getElem? _here _)
  · exact Nat.sub_le_sub_left ahead _
  · exact Place.position_lt_advanceWhile _here rfl

/-- Behind the next line break, or at the end. -/
def Place.skipToNextLine (place : Place) : Place :=
  (place.advanceWhile text isInline).advance text

/-- Behind a run of digits with at most one point in it, or none if one has been seen. -/
def Place.advanceDecimal (seenPoint : Bool) (place : Place) : Place :=
  match _here : text[place.position]? with
  | none => place
  | some character =>
      if character.isDigit then advanceDecimal seenPoint (place.behind character)
      else if character = '.' ∧ seenPoint = false then advanceDecimal true (place.behind character)
      else place
termination_by text.length - place.position
decreasing_by
  all_goals exact sub_lt_of_getElem? _here (Nat.lt_succ_self _)

end Places

/-! ### Numbers and words -/

/-- The opposite of an integer, if it has 64 bits. -/
def negated? (value : Int) : Option Int :=
  if Numeral.inRange (-value) then some (-value) else none

/-- The integer that hexadecimal digits stand for, if there are any and it has 64 bits. -/
def magnitude? (digits : List Char) : Option Int :=
  let value : Int := Text.digitsValue 16 digits
  if digits ≠ [] ∧ Numeral.inRange value then some value else none

/-- The immediate that signed hexadecimal digits stand for, if they stand for one. -/
def hexKind? (negative : Bool) (digits : List Char) : Option (Option TokenKind) :=
  match magnitude? digits with
  | none => some none
  | some value =>
      (if negative then negated? value else some value).map fun value => some (.immediate value)

/-- A piece of text becomes a token of its kind, or a fault without one. -/
def classified (kind : Option TokenKind) (lexeme : List Char)
    (cause : String → LexicalFault.Cause) (line : Nat) : ScanItem :=
  match kind with
  | some kind => .token ⟨kind, String.ofList lexeme, line⟩
  | none => .fault ⟨cause (String.ofList lexeme), line⟩

section Pieces

variable (text : List Char)

/-- Whether the mark of a hexadecimal number is at a place. -/
def atHexMark (place : Place) : Bool :=
  text[place.position]? = some '0' &&
    (text[place.position + 1]? = some 'x' || text[place.position + 1]? = some 'X')

/-- The hexadecimal number with its sign from the first place on and its mark at the second. -/
def readHexadecimal? (negative : Bool) (start unsigned : Place) : Option (ScanItem × Place) := do
  let digitsStart := (unsigned.advance text).advance text
  let behind := digitsStart.advanceWhile text Text.isHexDigit
  let lexeme ← slice? text start.position behind.position
  let digits ← slice? text digitsStart.position behind.position
  let kind ← hexKind? negative digits
  some (classified kind lexeme .invalidNumber start.line, behind)

/-- The decimal number with its sign from the first place on and its digits from the second on. -/
def readDecimal? (start unsigned : Place) : Option (ScanItem × Place) := do
  let behind := unsigned.advanceDecimal text false
  let lexeme ← slice? text start.position behind.position
  some (classified (Numeral.read lexeme).1.kind? lexeme .invalidNumber start.line, behind)

/-- The number from a place on, and the place behind it. -/
def readNumber? (start : Place) : Option (ScanItem × Place) :=
  let negative : Bool := text[start.position]? = some '-'
  let unsigned := if negative then start.advance text else start
  if atHexMark text unsigned then readHexadecimal? text negative start unsigned
  else readDecimal? text start unsigned

/-- The word from a place on, and the place behind it. -/
def readWord? (start : Place) : Option (ScanItem × Place) := do
  let behind := start.advanceWhile text Char.isAlphanum
  let lexeme ← slice? text start.position behind.position
  some (classified (Identifier.kind? lexeme) lexeme .unrecognizedWord start.line, behind)

/-! ### Steps -/

/-- What is found at the very place, unless the text ends there, and the place behind it. -/
def tokenAt? (here : Place) : Option (Option ScanItem × Place) :=
  match text[here.position]? with
  | none => some (none, here)
  | some character =>
      match Cursor.punctuation? character with
      | some kind =>
          some (some (.token ⟨kind, String.singleton character, here.line⟩), here.advance text)
      | none =>
          if Numeral.startsWith character then
            (readNumber? text here).map fun read => (some read.1, read.2)
          else if character.isAlpha then
            (readWord? text here).map fun read => (some read.1, read.2)
          else some (some (.fault ⟨.unexpectedCharacter character, here.line⟩), here)

def next? (place : Place) : Option (Option ScanItem × Place) :=
  tokenAt? text (place.skipLayout text)

/-- Where the scan goes on behind what it found. A fault drops the rest of its line. -/
def resumed (item : ScanItem) (behind : Place) : Place :=
  match item with
  | .token _ => behind
  | .fault _ => behind.skipToNextLine text

/-- Everything found from a place on. -/
def scan? (place : Place) : Option (List ScanItem) :=
  match next? text place with
  | none => none
  | some (none, _) => some []
  | some (some item, behind) =>
      let later := resumed text item behind
      if _moved : place.position < later.position ∧ later.position ≤ text.length then
        (scan? later).map fun items => item :: items
      else none
termination_by text.length - place.position
decreasing_by exact Nat.sub_lt_sub_left (Nat.lt_of_lt_of_le _moved.1 _moved.2) _moved.1

end Pieces

/-- The tokens and the diagnostics of a program text. No result means that the cursor left the text,
that it stood still, or that an operation was used where it has none. -/
def tokenize? (source : String) : Option (Reported (List Token)) :=
  (scan? source.toList ⟨0, 1⟩).map Scan.reported

end RiscAssembler.Positional
