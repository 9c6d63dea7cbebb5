import RiscAssembler.Proofs.Text.LetterCase
import RiscAssembler.Proofs.Token.Lines

/-!
Contract: a text in upper case is scanned step for step like the text itself.

Owns:
- tokens, faults, places and steps in upper case;
- numbers and words in upper case, which reach as far and stand for the same;
- one step, the recovery from a fault, and a whole scan.

No character is of another class in upper case, so every run ends where it ended. The one letter
that decides how a number goes on is the mark of a hexadecimal number, and it is read in either
case.

Main statements: `Cursor.tokenHere_toUpper`, for one step, and `Cursor.scan_toUpper`, for a whole
scan.
-/

namespace RiscAssembler

open Text

/-! ### Numbers -/

namespace Numeral

namespace Magnitude

def toUpper : Magnitude → Magnitude
  | hexadecimal _ digits => hexadecimal true (digits.map Char.toUpper)
  | decimal whole fraction =>
      decimal (whole.map Char.toUpper) (fraction.map (List.map Char.toUpper))

theorem spelling_toUpper (magnitude : Magnitude) :
    magnitude.toUpper.spelling = magnitude.spelling.map Char.toUpper := by
  match magnitude with
  | hexadecimal false digits | hexadecimal true digits => rfl
  | decimal whole none => rfl
  | decimal whole (some fraction) =>
      rw [spelling, List.map_append]
      rfl

theorem readDecimal_toUpper (text : List Char) :
    readDecimal (text.map Char.toUpper) =
      ((readDecimal text).1.toUpper, (readDecimal text).2.map Char.toUpper) := by
  unfold readDecimal
  rw [takeWhile_toUpper isDigit_toUpper, dropWhile_toUpper isDigit_toUpper]
  cases text.dropWhile Char.isDigit with
  | nil => rfl
  | cons character rest =>
      by_cases point : character = '.'
      · subst point
        have capital : '.'.toUpper = '.' := rfl
        simp [capital, takeWhile_toUpper isDigit_toUpper, dropWhile_toUpper isDigit_toUpper,
          toUpper]
      · have capital : character.toUpper ≠ '.' := (toUpper_eq_iff rfl character).not.mpr point
        simp [point, capital, toUpper]

theorem HexMarked.of_toUpper {text : List Char} (marked : HexMarked (text.map Char.toUpper)) :
    HexMarked text := by
  have zero {character : Char} (isZero : character.toUpper = '0') : character = '0' :=
    (toUpper_eq_iff rfl character).mp isZero
  have mark {character : Char} (isMark : character.toUpper = 'x' ∨ character.toUpper = 'X') :
      character = 'x' ∨ character = 'X' := by
    cases lower : character.isLower with
    | false => rwa [toUpper_of_not_isLower lower] at isMark
    | true =>
        -- 'x' is the only small letter whose capital is a mark
        exact @forall_of_isLower
          (fun letter => letter.toUpper = 'x' ∨ letter.toUpper = 'X' → letter = 'x' ∨ letter = 'X')
          (by decide) character lower isMark
  obtain ⟨rest, equal⟩ := marked
  match text with
  | [] | [_] => simp at equal
  | first :: second :: more =>
      simp only [List.map_cons, List.cons.injEq] at equal
      have isZero : first = '0' := by
        rcases equal with ⟨isZero, _⟩ | ⟨isZero, _⟩
        · exact zero isZero
        · exact zero isZero
      have isMark : second = 'x' ∨ second = 'X' := by
        apply mark
        rcases equal with ⟨_, isMark, _⟩ | ⟨_, isMark, _⟩
        · exact .inl isMark
        · exact .inr isMark
      subst isZero
      rcases isMark with rfl | rfl
      · exact ⟨more, .inl rfl⟩
      · exact ⟨more, .inr rfl⟩

theorem read_toUpper (text : List Char) :
    read (text.map Char.toUpper) = ((read text).1.toUpper, (read text).2.map Char.toUpper) := by
  by_cases marked : HexMarked text
  · have zero : '0'.toUpper = '0' := rfl
    have small : 'x'.toUpper = 'X' := rfl
    have capital : 'X'.toUpper = 'X' := rfl
    obtain ⟨rest, rfl | rfl⟩ := marked
    · simp [read, zero, small, takeWhile_toUpper isHexDigit_toUpper,
        dropWhile_toUpper isHexDigit_toUpper, toUpper]
    · simp [read, zero, capital, takeWhile_toUpper isHexDigit_toUpper,
        dropWhile_toUpper isHexDigit_toUpper, toUpper]
  · have unmarked : ¬ HexMarked (text.map Char.toUpper) := fun upper => marked upper.of_toUpper
    rw [read_eq_readDecimal marked, read_eq_readDecimal unmarked, readDecimal_toUpper]

end Magnitude

def toUpper (numeral : Numeral) : Numeral :=
  ⟨numeral.negative, numeral.magnitude.toUpper⟩

theorem spelling_toUpper (numeral : Numeral) :
    numeral.toUpper.spelling = numeral.spelling.map Char.toUpper := by
  obtain ⟨negative, magnitude⟩ := numeral
  have whole := magnitude.spelling_toUpper
  cases negative with
  | false => exact whole
  | true => exact congrArg ('-' :: ·) whole

theorem read_toUpper (text : List Char) :
    read (text.map Char.toUpper) = ((read text).1.toUpper, (read text).2.map Char.toUpper) := by
  cases text with
  | nil => rfl
  | cons character rest =>
      by_cases minus : character = '-'
      · subst minus
        have capital : '-'.toUpper = '-' := rfl
        simp [read, capital, Magnitude.read_toUpper, toUpper]
      · have capital : character.toUpper ≠ '-' := (toUpper_eq_iff rfl character).not.mpr minus
        have unsigned : read (character :: rest) =
            (⟨false, (Magnitude.read (character :: rest)).1⟩,
              (Magnitude.read (character :: rest)).2) := by
          simp [read, minus]
        have whole := Magnitude.read_toUpper (character :: rest)
        rw [List.map_cons] at whole
        rw [unsigned]
        simp [read, capital, whole, toUpper]

/-- A number stands for the same in upper case. -/
theorem kind?_toUpper (numeral : Numeral) : numeral.toUpper.kind? = numeral.kind? := by
  obtain ⟨negative, magnitude⟩ := numeral
  match magnitude with
  | .hexadecimal _ digits => simp [kind?, toUpper, Magnitude.toUpper, digitsValue_toUpper]
  | .decimal whole none => simp [kind?, toUpper, Magnitude.toUpper, digitsValue_toUpper]
  | .decimal whole (some fraction) =>
      have digits : whole.map Char.toUpper ++ fraction.map Char.toUpper =
          (whole ++ fraction).map Char.toUpper := List.map_append.symm
      simp only [kind?, toUpper, Magnitude.toUpper, Option.map_some, digits, digitsValue_toUpper,
        List.length_map, ne_eq, List.map_eq_nil_iff]

theorem startsWith_toUpper (character : Char) :
    startsWith character.toUpper = startsWith character :=
  view_toUpper startsWith (by decide) character

end Numeral

/-! ### Words -/

namespace Identifier

theorem read_toUpper (text : List Char) :
    read (text.map Char.toUpper) =
      ((read text).1.map Char.toUpper, (read text).2.map Char.toUpper) := by
  unfold read
  rw [takeWhile_toUpper isAlphanum_toUpper, dropWhile_toUpper isAlphanum_toUpper]

theorem kind?_toUpper (word : List Char) : kind? (word.map Char.toUpper) = kind? word := by
  have again : (word.map Char.toUpper).map Char.toUpper = word.map Char.toUpper := by
    rw [List.map_map]
    exact List.map_congr_left fun character _ => toUpper_toUpper character
  unfold kind?
  rw [again]

end Identifier

/-! ### Findings -/

/-- The same token spelled in upper case. -/
def Token.toUpper (token : Token) : Token :=
  { token with lexeme := token.lexeme.toUpper }

def LexicalFault.Cause.toUpper : LexicalFault.Cause → LexicalFault.Cause
  | unexpectedCharacter character => .unexpectedCharacter character.toUpper
  | invalidNumber spelling => .invalidNumber spelling.toUpper
  | unrecognizedWord spelling => .unrecognizedWord spelling.toUpper

def LexicalFault.toUpper (fault : LexicalFault) : LexicalFault :=
  { fault with cause := fault.cause.toUpper }

def ScanItem.toUpper : ScanItem → ScanItem :=
  ScanItem.map Token.toUpper LexicalFault.toUpper

/-- The same place in the text in upper case. -/
def Cursor.toUpper (cursor : Cursor) : Cursor :=
  ⟨cursor.rest.map Char.toUpper, cursor.line⟩

def Step.toUpper : Step → Step :=
  Step.map Token.toUpper LexicalFault.toUpper Cursor.toUpper

namespace Cursor

theorem isBlank_toUpper (character : Char) : isBlank character.toUpper = isBlank character :=
  view_toUpper isBlank (by decide) character

theorem punctuation?_toUpper (character : Char) :
    punctuation? character.toUpper = punctuation? character :=
  view_toUpper punctuation? (by decide) character

theorem skipFrom_toUpper (inComment : Bool) (text : List Char) (line : Nat) :
    skipFrom inComment (text.map Char.toUpper) line = (skipFrom inComment text line).toUpper := by
  induction text generalizing inComment line with
  | nil => rfl
  | cons character rest inductionHypothesis =>
      have isBreak : character.toUpper = '\n' ↔ character = '\n' := toUpper_eq_iff rfl character
      have isMark : character.toUpper = '#' ↔ character = '#' := toUpper_eq_iff rfl character
      simp only [List.map_cons, skipFrom, isBreak, isMark, isBlank_toUpper, inductionHypothesis]
      split_ifs <;> rfl

theorem nextLineFrom_toUpper (text : List Char) (line : Nat) :
    nextLineFrom (text.map Char.toUpper) line = (nextLineFrom text line).toUpper := by
  induction text with
  | nil => rfl
  | cons character rest inductionHypothesis =>
      have isBreak : character.toUpper = '\n' ↔ character = '\n' := toUpper_eq_iff rfl character
      simp only [List.map_cons, nextLineFrom, isBreak, inductionHypothesis]
      split_ifs <;> rfl

theorem nextLine_toUpper (cursor : Cursor) : cursor.toUpper.nextLine = cursor.nextLine.toUpper :=
  nextLineFrom_toUpper cursor.rest cursor.line

theorem classify_toUpper (kind : Option TokenKind) (lexeme : List Char)
    {cause : String → LexicalFault.Cause}
    (commutes : ∀ spelling, cause spelling.toUpper = (cause spelling).toUpper) (line : Nat)
    (after : List Char) :
    classify kind (lexeme.map Char.toUpper) cause line (after.map Char.toUpper) =
      (classify kind lexeme cause line after).toUpper := by
  unfold classify
  rw [ofList_map_toUpper]
  cases kind with
  | some kind => rfl
  | none =>
      rw [commutes]
      rfl

/-- The token at a place is the same in upper case, and so is the fault. -/
theorem tokenHere_toUpper (text : List Char) (line : Nat) :
    tokenHere (text.map Char.toUpper) line = (tokenHere text line).toUpper := by
  cases text with
  | nil => rfl
  | cons character rest =>
      have singleton : String.singleton character.toUpper = (String.singleton character).toUpper :=
        ofList_map_toUpper [character]
      simp only [List.map_cons, tokenHere, punctuation?_toUpper, Numeral.startsWith_toUpper,
        isAlpha_toUpper, singleton]
      rw [← List.map_cons]
      split
      · rfl
      · split_ifs
        · rw [Numeral.read_toUpper, Numeral.kind?_toUpper, Numeral.spelling_toUpper]
          exact classify_toUpper _ _ (fun spelling => rfl) line _
        · rw [Identifier.read_toUpper, Identifier.kind?_toUpper]
          exact classify_toUpper _ _ (fun spelling => rfl) line _
        · rfl

theorem next_toUpper (cursor : Cursor) : cursor.toUpper.next = cursor.next.toUpper := by
  have skipped : cursor.toUpper.skipTrivia = cursor.skipTrivia.toUpper :=
    skipFrom_toUpper false cursor.rest cursor.line
  unfold next
  rw [skipped]
  exact tokenHere_toUpper cursor.skipTrivia.rest cursor.skipTrivia.line

/-- A scan finds the same in a text and in the text in upper case. -/
theorem scan_toUpper (cursor : Cursor) : cursor.toUpper.scan = cursor.scan.map ScanItem.toUpper :=
  scan_map next_toUpper nextLine_toUpper cursor

end Cursor

/-! ### Whole texts -/

theorem scan_start_toUpper (source : String) :
    (Cursor.start source.toUpper).scan = (Cursor.start source).scan.map ScanItem.toUpper := by
  have start : Cursor.start source.toUpper = (Cursor.start source).toUpper := by
    rw [Cursor.start, toList_toUpper]
    rfl
  rw [start, Cursor.scan_toUpper]

theorem tokenize_value_toUpper (source : String) :
    (tokenize source.toUpper).value = (tokenize source).value.map Token.toUpper := by
  have tokens := congrArg Scan.tokens (scan_start_toUpper source)
  exact tokens.trans (Scan.filterMap_map_items (fun item => by cases item <;> rfl) _)

theorem lexicalFaults_toUpper (source : String) :
    lexicalFaults source.toUpper = (lexicalFaults source).map LexicalFault.toUpper := by
  have faults := congrArg Scan.faults (scan_start_toUpper source)
  exact faults.trans (Scan.filterMap_map_items (fun item => by cases item <;> rfl) _)

end RiscAssembler
