/-!
Contract: texts as lists of characters.

Owns:
- the lines of a text;
- the hexadecimal digits, in either letter case, the number that a run of digits spells, most
  significant first, and the shortest spelling of a natural number and of an integer;
- the characters with the Unicode property White_Space, and a text without them at its ends.

The classes of digits are those of the ASCII characters: no other script's digits count. The
assembly language has its own, smaller class of blanks; white space of any script serves the display
of source lines.
-/

namespace RiscAssembler.Text

/-! ### Lines -/

/-- The lines of a text. A line ends at a line feed, or at a carriage return directly in front of
one; neither belongs to the line. What follows the last line end is a line only if it is not
empty. -/
def lines : List Char → List (List Char)
  | [] => []
  | '\n' :: rest => [] :: lines rest
  | '\r' :: '\n' :: rest => [] :: lines rest
  | character :: rest =>
      match lines rest with
      | [] => [[character]]
      | line :: more => (character :: line) :: more

/-- The line with a number, counted from one. -/
def line? (text : List Char) (number : Nat) : Option (List Char) :=
  if number = 0 then none else (lines text)[number - 1]?

/-! ### Digits -/

def isHexDigit (character : Char) : Bool :=
  character.isDigit || ('a' ≤ character && character ≤ 'f') ||
    ('A' ≤ character && character ≤ 'F')

def digitValue (character : Char) : Nat :=
  if character.isDigit then character.toNat - '0'.toNat
  else if 'a' ≤ character then character.toNat - 'a'.toNat + 10
  else character.toNat - 'A'.toNat + 10

/-- The number that a run of digits spells in a base; leading zeros do not count. -/
def digitsValue (base : Nat) (digits : List Char) : Nat :=
  digits.foldl (fun value digit => base * value + digitValue digit) 0

def decimal (number : Nat) : List Char :=
  Nat.toDigits 10 number

def signedDecimal (number : Int) : List Char :=
  if number < 0 then '-' :: decimal number.natAbs else decimal number.natAbs

/-! ### White space -/

/-- The code points with the property White_Space. -/
def whiteSpace : List Nat :=
  [0x09, 0x0A, 0x0B, 0x0C, 0x0D, 0x20, 0x85, 0xA0, 0x1680, 0x2000, 0x2001, 0x2002, 0x2003, 0x2004,
    0x2005, 0x2006, 0x2007, 0x2008, 0x2009, 0x200A, 0x2028, 0x2029, 0x202F, 0x205F, 0x3000]

def isWhiteSpace (character : Char) : Bool :=
  whiteSpace.contains character.toNat

/-- The white space in front of a text. -/
def indent (text : List Char) : List Char :=
  text.takeWhile isWhiteSpace

def trimStart (text : List Char) : List Char :=
  text.dropWhile isWhiteSpace

def trimEnd (text : List Char) : List Char :=
  (text.reverse.dropWhile isWhiteSpace).reverse

def trim (text : List Char) : List Char :=
  trimEnd (trimStart text)

theorem indent_append_trimStart (text : List Char) : indent text ++ trimStart text = text :=
  List.takeWhile_append_dropWhile

end RiscAssembler.Text
