import RiscAssembler.Token.Scan

/-!
Contract: program texts that differ in layout only.

Owns:
- the normal layout of a text: no comments, and one space for each run of blanks within a line;
- the text that puts the tokens of a list back on their lines, one space between two of them.

Neither form moves anything to another line.
-/

namespace RiscAssembler.Layout

/-- A text without its comments. The line break behind a comment stays. -/
def withoutComments (inComment : Bool) : List Char → List Char
  | [] => []
  | '\n' :: rest => '\n' :: withoutComments false rest
  | character :: rest =>
      if inComment || character = '#' then withoutComments true rest
      else character :: withoutComments false rest

def isInlineBlank (character : Char) : Bool :=
  character = ' ' || character = '\t' || character = '\r'

/-- A text with one space for each run of blanks within a line. -/
def squeezed (afterBlank : Bool) : List Char → List Char
  | [] => []
  | character :: rest =>
      if isInlineBlank character then
        if afterBlank then squeezed true rest else ' ' :: squeezed true rest
      else character :: squeezed false rest

def normal (source : String) : String :=
  String.ofList (squeezed false (withoutComments false source.toList))

/-- The spellings of the tokens of a line, one space between two of them. -/
def lineText (tokens : List Token) (line : Nat) : String :=
  " ".intercalate ((tokens.filter (·.line = line)).map Token.lexeme)

/-- The number of the last line that has a token, or zero. -/
def lastLine (tokens : List Token) : Nat :=
  tokens.foldl (fun last token => max last token.line) 0

/-- The text that has each token on its line, and nothing else. -/
def spaced (tokens : List Token) : String :=
  "\n".intercalate ((List.range (lastLine tokens)).map fun index => lineText tokens (index + 1))

end RiscAssembler.Layout
