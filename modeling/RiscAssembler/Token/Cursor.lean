import RiscAssembler.Diagnostic.Basic
import RiscAssembler.Token.Identifier
import RiscAssembler.Token.Numeral

/-!
Contract: one step through a program text.

Owns:
- the lexical faults and their messages;
- a place in a program text: what is left to read, and the line that it starts on;
- skipping blanks and comments;
- taking one token, and where a fault leaves the place;
- going on to the next line.

Does not own: what happens after a fault. `Token.Scan` decides that.

Main statement: `Cursor.next_shrinks`, a step that yields a token or a fault leaves less to read,
once the rest of a faulted line is dropped.
-/

namespace RiscAssembler

/-- What is wrong with a piece of text that is no token. -/
inductive LexicalFault.Cause where
  | unexpectedCharacter (character : Char)
  | invalidNumber (spelling : String)
  | unrecognizedWord (spelling : String)
deriving DecidableEq, Repr

def LexicalFault.Cause.message : LexicalFault.Cause → String
  | unexpectedCharacter character =>
      "unexpected character: '" ++ String.singleton character ++ "'"
  | invalidNumber spelling => "invalid number: " ++ spelling
  | unrecognizedWord spelling => "unrecognized token: " ++ spelling

/-- A lexical fault and the line on which the faulty text starts. -/
structure LexicalFault where
  cause : LexicalFault.Cause
  line : Nat
deriving DecidableEq, Repr

def LexicalFault.diagnostic (fault : LexicalFault) : Diagnostic :=
  ⟨fault.line, fault.cause.message⟩

/-- A place in a program text: the text left to read and the line of its first character. -/
structure Cursor where
  rest : List Char
  line : Nat
deriving DecidableEq, Repr

/-- What one step through a program text yields, and the place after it. -/
inductive Step where
  | token (token : Token) (after : Cursor)
  | fault (fault : LexicalFault) (after : Cursor)
  | finished (after : Cursor)
deriving DecidableEq, Repr

namespace Cursor

def start (source : String) : Cursor :=
  ⟨source.toList, 1⟩

def isBlank (character : Char) : Bool :=
  character = ' ' || character = '\t' || character = '\r' || character = '\n'

/-- The place after any blanks and comments. A comment reaches from its mark to the end of the line;
the line break itself is a blank. -/
def skipFrom (inComment : Bool) : List Char → Nat → Cursor
  | [], line => ⟨[], line⟩
  | character :: rest, line =>
      if character = '\n' then skipFrom false rest (line + 1)
      else if inComment then skipFrom true rest line
      else if character = '#' then skipFrom true rest line
      else if isBlank character then skipFrom false rest line
      else ⟨character :: rest, line⟩

/-- The place of the next character that is neither blank nor in a comment. -/
def skipTrivia (cursor : Cursor) : Cursor :=
  skipFrom false cursor.rest cursor.line

/-- The place behind the next line break, or at the end of the text. -/
def nextLineFrom : List Char → Nat → Cursor
  | [], line => ⟨[], line⟩
  | character :: rest, line =>
      if character = '\n' then ⟨rest, line + 1⟩ else nextLineFrom rest line

def nextLine (cursor : Cursor) : Cursor :=
  nextLineFrom cursor.rest cursor.line

/-- The kind of a token that is one character long. -/
def punctuation? : Char → Option TokenKind
  | '(' => some .leftParenthesis
  | ')' => some .rightParenthesis
  | ',' => some .comma
  | _ => none

/-- A piece of text that has been taken off becomes a token of its kind, or a fault without one. -/
def classify (kind : Option TokenKind) (lexeme : List Char) (cause : String → LexicalFault.Cause)
    (line : Nat) (after : List Char) : Step :=
  match kind with
  | some kind => .token ⟨kind, String.ofList lexeme, line⟩ ⟨after, line⟩
  | none => .fault ⟨cause (String.ofList lexeme), line⟩ ⟨after, line⟩

/-- The token at the very place of the cursor. An unexpected character stays unread; a number or a
word without meaning has been read when it is reported. -/
def tokenHere : List Char → Nat → Step
  | [], line => .finished ⟨[], line⟩
  | character :: rest, line =>
      match punctuation? character with
      | some kind => .token ⟨kind, String.singleton character, line⟩ ⟨rest, line⟩
      | none =>
          if Numeral.startsWith character then
            let (numeral, after) := Numeral.read (character :: rest)
            classify numeral.kind? numeral.spelling .invalidNumber line after
          else if character.isAlpha then
            let (word, after) := Identifier.read (character :: rest)
            classify (Identifier.kind? word) word .unrecognizedWord line after
          else
            .fault ⟨.unexpectedCharacter character, line⟩ ⟨character :: rest, line⟩

def next (cursor : Cursor) : Step :=
  let place := cursor.skipTrivia
  tokenHere place.rest place.line

/-! ### Every step leaves less to read -/

theorem length_skipFrom_le (inComment : Bool) (text : List Char) (line : Nat) :
    (skipFrom inComment text line).rest.length ≤ text.length := by
  induction text generalizing inComment line with
  | nil => simp [skipFrom]
  | cons character rest inductionHypothesis =>
      have resumed := inductionHypothesis false (line + 1)
      have blank := inductionHypothesis false line
      have comment := inductionHypothesis true line
      simp only [skipFrom, List.length_cons]
      split
      · omega
      · split
        · omega
        · split
          · omega
          · split
            · omega
            · simp

theorem length_nextLineFrom_le (text : List Char) (line : Nat) :
    (nextLineFrom text line).rest.length ≤ text.length := by
  induction text generalizing line with
  | nil => simp [nextLineFrom]
  | cons character rest inductionHypothesis =>
      have later := inductionHypothesis line
      simp only [nextLineFrom, List.length_cons]
      split
      · simp
      · omega

/-- Going on to the next line reads at least one character, if there is one. -/
theorem length_nextLineFrom_cons_lt (character : Char) (rest : List Char) (line : Nat) :
    (nextLineFrom (character :: rest) line).rest.length < (character :: rest).length := by
  have later := length_nextLineFrom_le rest line
  simp only [nextLineFrom, List.length_cons]
  split
  · simp
  · omega

end Cursor

def Step.after : Step → Cursor
  | token _ after => after
  | fault _ after => after
  | finished after => after

/-- How much a step leaves to read, once the rest of a faulted line is dropped. -/
def Step.remaining : Step → Nat
  | token _ after => after.rest.length
  | fault _ after => after.nextLine.rest.length
  | finished after => after.rest.length

namespace Cursor

private theorem remaining_classify_le (kind : Option TokenKind) (lexeme : List Char)
    (cause : String → LexicalFault.Cause) (line : Nat) (after : List Char) :
    (classify kind lexeme cause line after).remaining ≤ after.length := by
  cases kind with
  | some kind => simp [classify, Step.remaining]
  | none => exact length_nextLineFrom_le after line

/-- Where there is something to read, a step reads some of it or drops some of it. -/
theorem remaining_tokenHere_lt (character : Char) (rest : List Char) (line : Nat) :
    (tokenHere (character :: rest) line).remaining < (character :: rest).length := by
  simp only [tokenHere]
  split
  · simp [Step.remaining]
  · split
    · rename_i starts
      exact Nat.lt_of_le_of_lt (remaining_classify_le _ _ _ _ _) (Numeral.length_read_lt starts)
    · split
      · rename_i letter
        have alphanumeric : character.isAlphanum := by simp [Char.isAlphanum, letter]
        exact Nat.lt_of_le_of_lt (remaining_classify_le _ _ _ _ _)
          (Identifier.length_read_lt alphanumeric)
      · exact length_nextLineFrom_cons_lt character rest line

/-- A step either is at the end or leaves less to read. -/
theorem next_shrinks (cursor : Cursor) :
    (∃ after, cursor.next = .finished after) ∨ cursor.next.remaining < cursor.rest.length := by
  have skipped : cursor.skipTrivia.rest.length ≤ cursor.rest.length :=
    length_skipFrom_le false cursor.rest cursor.line
  unfold next
  match place : cursor.skipTrivia with
  | ⟨[], line⟩ => exact .inl ⟨⟨[], line⟩, by simp [tokenHere]⟩
  | ⟨character :: rest, line⟩ =>
      rw [place] at skipped
      exact .inr (Nat.lt_of_lt_of_le (remaining_tokenHere_lt character rest line) skipped)

theorem length_lt_of_next_eq_token {cursor after : Cursor} {token : Token}
    (step : cursor.next = .token token after) : after.rest.length < cursor.rest.length := by
  have shrinks := next_shrinks cursor
  simpa [step, Step.remaining] using shrinks

theorem length_lt_of_next_eq_fault {cursor after : Cursor} {fault : LexicalFault}
    (step : cursor.next = .fault fault after) :
    after.nextLine.rest.length < cursor.rest.length := by
  have shrinks := next_shrinks cursor
  simpa [step, Step.remaining] using shrinks

end Cursor

end RiscAssembler
