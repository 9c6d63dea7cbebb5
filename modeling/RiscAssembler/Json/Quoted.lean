/-!
Contract: strings in JSON text.

Owns:
- the escape of each character that cannot stand for itself: the quote, the backslash, and the
  characters below the space;
- a string between quotes;
- reading a string back from behind its opening quote.

Every other character, of any script, stands for itself.
-/

namespace RiscAssembler.Json

def hexDigit (value : Nat) : Char :=
  Nat.digitChar value

/-- The letter that follows the backslash in a short escape. -/
def shortEscape? : Char → Option Char
  | '"' => some '"'
  | '\\' => some '\\'
  | '\x08' => some 'b'
  | '\x0c' => some 'f'
  | '\n' => some 'n'
  | '\r' => some 'r'
  | '\t' => some 't'
  | _ => none

def escaped (character : Char) : List Char :=
  match shortEscape? character with
  | some letter => ['\\', letter]
  | none =>
      if character.toNat < 0x20 then
        ['\\', 'u', '0', '0', hexDigit (character.toNat / 16), hexDigit (character.toNat % 16)]
      else [character]

def quoted (text : List Char) : List Char :=
  '"' :: text.flatMap escaped ++ ['"']

/-- The character that a short escape stands for, from the letter behind the backslash. -/
def unescape? : Char → Option Char
  | '"' => some '"'
  | '\\' => some '\\'
  | '/' => some '/'
  | 'b' => some '\x08'
  | 'f' => some '\x0c'
  | 'n' => some '\n'
  | 'r' => some '\r'
  | 't' => some '\t'
  | _ => none

def hexValue? (character : Char) : Option Nat :=
  if character.isDigit then some (character.toNat - '0'.toNat)
  else if 'a' ≤ character ∧ character ≤ 'f' then some (character.toNat - 'a'.toNat + 10)
  else if 'A' ≤ character ∧ character ≤ 'F' then some (character.toNat - 'A'.toNat + 10)
  else none

/-- The character with a code point given by four hexadecimal digits, unless it is a surrogate. -/
def codePoint? (first second third fourth : Char) : Option Char := do
  let code := 4096 * (← hexValue? first) + 256 * (← hexValue? second) + 16 * (← hexValue? third)
    + (← hexValue? fourth)
  if code.isValidChar then some (Char.ofNat code) else none

/-- The string up to the closing quote, and the text behind that quote. -/
def unquote? : List Char → Option (List Char × List Char)
  | [] => none
  | '"' :: rest => some ([], rest)
  | '\\' :: 'u' :: first :: second :: third :: fourth :: rest => do
      let character ← codePoint? first second third fourth
      let (text, after) ← unquote? rest
      some (character :: text, after)
  | '\\' :: letter :: rest => do
      let character ← unescape? letter
      let (text, after) ← unquote? rest
      some (character :: text, after)
  | character :: rest =>
      if character.toNat < 0x20 ∨ character = '\\' then none
      else do
        let (text, after) ← unquote? rest
        some (character :: text, after)

end RiscAssembler.Json
