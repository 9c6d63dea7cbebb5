import RiscAssembler.Positional.Scanning
import RiscAssembler.Proofs.Positional.Place
import RiscAssembler.Proofs.Token.Numeral
import RiscAssembler.Proofs.Token.Progress

/-!
Contract: scanning with a cursor never leaves the text or the 64-bit integers, and finds what
scanning the text that is left finds.

Owns:
- the place behind blanks and comments, and the place behind the next line break;
- the number and the word at a place, and the place behind each;
- one step from a place, and the scan from a place on.

Every statement is about a place and a cursor that stand at the same character. The pieces that are
cut out of the text are what the first of two such places leaves more than the second.

Main statements: `next?_matches` for one step, and `tokenize?_eq`.
-/

namespace RiscAssembler.Positional

/-! ### Layout -/

theorem isInline_of_ne {character : Char} (inline : character ≠ '\n') : isInline character :=
  decide_eq_true inline

section Layout

variable (text : List Char) (line : Nat)

theorem skipFrom_dropWhile_isBlank :
    Cursor.skipFrom false text line =
      Cursor.skipFrom false (text.dropWhile Cursor.isBlank)
        (line + (text.takeWhile Cursor.isBlank).count '\n') := by
  induction text generalizing line with
  | nil => rfl
  | cons character rest inductionHypothesis =>
      by_cases blank : Cursor.isBlank character
      · rw [List.dropWhile_cons_of_pos blank, List.takeWhile_cons_of_pos blank, List.count_cons]
        by_cases breaks : character = '\n'
        · rw [Cursor.skipFrom, if_pos breaks, inductionHypothesis, breaks, Nat.add_right_comm]
          rfl
        · have noMark : character ≠ '#' := by
            rintro rfl
            cases blank
          have noBreak : ¬ (character == '\n') = true := by
            rwa [beq_iff_eq]
          rw [Cursor.skipFrom, if_neg breaks, if_neg Bool.false_ne_true, if_neg noMark,
            if_pos blank, inductionHypothesis, if_neg noBreak]
          rfl
      · rw [List.dropWhile_cons_of_neg blank, List.takeWhile_cons_of_neg blank]
        rfl

theorem skipFrom_comment :
    Cursor.skipFrom true text line = Cursor.skipFrom false (text.dropWhile isInline) line := by
  induction text with
  | nil => rfl
  | cons character rest inductionHypothesis =>
      by_cases breaks : character = '\n'
      · subst breaks
        rfl
      · rw [List.dropWhile_cons_of_pos (isInline_of_ne breaks), ← inductionHypothesis,
          Cursor.skipFrom, if_neg breaks, if_pos rfl]

theorem nextLineFrom_dropWhile :
    Cursor.nextLineFrom text line = Cursor.nextLineFrom (text.dropWhile isInline) line := by
  induction text with
  | nil => rfl
  | cons character rest inductionHypothesis =>
      by_cases breaks : character = '\n'
      · subst breaks
        rfl
      · rw [List.dropWhile_cons_of_pos (isInline_of_ne breaks), ← inductionHypothesis,
          Cursor.nextLineFrom, if_neg breaks]

end Layout

namespace Place

variable {text : List Char} {place : Place}

theorem skipLayout_of_comment
    (mark : text[(place.advanceWhile text Cursor.isBlank).position]? = some '#') :
    place.skipLayout text =
      ((place.advanceWhile text Cursor.isBlank).advanceWhile text isInline).skipLayout text := by
  rw [skipLayout]
  split
  · rfl
  · rename_i other
    exact absurd mark other

theorem skipLayout_of_ne
    (noMark : text[(place.advanceWhile text Cursor.isBlank).position]? ≠ some '#') :
    place.skipLayout text = place.advanceWhile text Cursor.isBlank := by
  rw [skipLayout]
  split
  · rename_i mark
    exact absurd mark noMark
  · rfl

namespace Stands

theorem skipLayout {place : Place} {rest : List Char} {line : Nat}
    (stands : Stands text place ⟨rest, line⟩) :
    Stands text (place.skipLayout text) (Cursor.skipFrom false rest line) := by
  have unblank : Stands text (place.advanceWhile text Cursor.isBlank) _ := stands.advanceWhile
  have noBlank : ∀ character ∈ (rest.dropWhile Cursor.isBlank).head?,
      Cursor.isBlank character = false :=
    head?_dropWhile_eq_false
  have shorter := (List.dropWhile_suffix Cursor.isBlank (l := rest)).length_le
  rw [skipFrom_dropWhile_isBlank]
  generalize line + (rest.takeWhile Cursor.isBlank).count '\n' = below at unblank ⊢
  cases shape : rest.dropWhile Cursor.isBlank with
  | nil =>
      rw [shape] at unblank
      have noMark : text[(place.advanceWhile text Cursor.isBlank).position]? ≠ some '#' := by
        rw [unblank.getElem?_eq]
        exact (Option.some_ne_none '#').symm
      rw [skipLayout_of_ne noMark]
      exact unblank
  | cons character more =>
      rw [shape] at unblank noBlank shorter
      by_cases mark : character = '#'
      · subst mark
        have comment : Stands text _ ⟨('#' :: more).dropWhile isInline, below⟩ :=
          unblank.advanceWhile_inline rfl
        have further := (List.dropWhile_suffix isInline (l := more)).length_le
        have nearer : (('#' :: more).dropWhile isInline).length < rest.length :=
          Nat.lt_of_le_of_lt further shorter
        -- the line break behind the comment is a blank again
        rw [skipLayout_of_comment unblank.getElem?_eq]
        show Stands text _ (Cursor.skipFrom true more below)
        rw [skipFrom_comment]
        exact skipLayout comment
      · have noBreak : character ≠ '\n' := by
          rintro rfl
          cases noBlank '\n' rfl
        have noMark : text[(place.advanceWhile text Cursor.isBlank).position]? ≠ some '#' := by
          rw [unblank.getElem?_eq]
          exact fun same => mark (Option.some.inj same)
        have here :
            Cursor.skipFrom false (character :: more) below = ⟨character :: more, below⟩ := by
          rw [Cursor.skipFrom, if_neg noBreak, if_neg Bool.false_ne_true, if_neg mark,
            if_neg (by rw [noBlank character rfl]; exact Bool.false_ne_true)]
        rw [skipLayout_of_ne noMark, here]
        exact unblank
termination_by rest.length

theorem skipToNextLine {cursor : Cursor} (stands : Stands text place cursor) :
    Stands text (place.skipToNextLine text) cursor.nextLine := by
  obtain ⟨rest, line⟩ := cursor
  have atBreak : Stands text _ ⟨rest.dropWhile isInline, line⟩ := stands.advanceWhile_inline rfl
  have isBreak : ∀ character ∈ (rest.dropWhile isInline).head?, isInline character = false :=
    head?_dropWhile_eq_false
  rw [Cursor.nextLine, nextLineFrom_dropWhile, Place.skipToNextLine]
  cases shape : rest.dropWhile isInline with
  | nil =>
      rw [shape] at atBreak
      rw [advance, atBreak.getElem?_eq]
      exact atBreak
  | cons character more =>
      rw [shape] at atBreak isBreak
      obtain rfl : character = '\n' := by
        simpa [isInline] using isBreak character rfl
      rw [atBreak.advance_eq]
      exact atBreak.behind

end Stands

end Place

/-! ### Numbers and words -/

/-- What hexadecimal digits stand for is not negative, so it has an opposite of 64 bits. -/
theorem hexKind?_eq (negative capitalMark : Bool) (digits : List Char) :
    hexKind? negative digits =
      some (Numeral.kind? ⟨negative, .hexadecimal capitalMark digits⟩) := by
  simp only [hexKind?, magnitude?, Numeral.kind?]
  by_cases accepted : digits ≠ [] ∧ Numeral.inRange (Text.digitsValue 16 digits)
  · rw [if_pos accepted, if_pos accepted]
    cases negative with
    | false => rfl
    | true =>
        have positive := (Numeral.inRange_iff _).mp accepted.2
        have opposite : Numeral.inRange (-(Text.digitsValue 16 digits : Int)) := by
          rw [Numeral.inRange_iff]
          omega
        show (negated? _).map _ = _
        rw [negated?, if_pos opposite]
        rfl
  · rw [if_neg accepted, if_neg accepted]

/-- The least integer has no opposite; no digits stand for it. -/
example : negated? (-2 ^ 63) = none := by decide

theorem readDecimal_rest (text : List Char) :
    (Numeral.Magnitude.readDecimal text).2 =
      match text.dropWhile Char.isDigit with
      | '.' :: rest => rest.dropWhile Char.isDigit
      | rest => rest := by
  unfold Numeral.Magnitude.readDecimal
  match text.dropWhile Char.isDigit with
  | [] => rfl
  | character :: rest =>
      by_cases point : character = '.'
      · subst point
        rfl
      · simp [point]

namespace Place

variable {text rest : List Char} {place : Place} {line : Nat}

theorem advanceDecimal_of_none (seenPoint : Bool) (atEnd : text[place.position]? = none) :
    place.advanceDecimal text seenPoint = place := by
  rw [advanceDecimal]
  split
  · rfl
  · rename_i character here
    rw [atEnd] at here
    cases here

theorem advanceDecimal_of_some {character : Char} (seenPoint : Bool)
    (here : text[place.position]? = some character) :
    place.advanceDecimal text seenPoint =
      if character.isDigit then (place.behind character).advanceDecimal text seenPoint
      else if character = '.' ∧ seenPoint = false then
        (place.behind character).advanceDecimal text true
      else place := by
  rw [advanceDecimal]
  split
  · rename_i atEnd
    rw [here] at atEnd
    cases atEnd
  · rename_i other again
    rw [here] at again
    rw [Option.some.inj again]

namespace Stands

theorem behind_digit {character : Char} (stands : Stands text place ⟨character :: rest, line⟩)
    (digit : character.isDigit) : Stands text (place.behind character) ⟨rest, line⟩ := by
  apply stands.behind_inline
  rintro rfl
  cases digit

/-- Behind a point, only digits belong to a number. -/
theorem advanceDecimal_seen (stands : Stands text place ⟨rest, line⟩) :
    Stands text (place.advanceDecimal text true) ⟨rest.dropWhile Char.isDigit, line⟩ := by
  induction rest generalizing place with
  | nil =>
      rw [advanceDecimal_of_none true stands.getElem?_eq]
      exact stands
  | cons character rest inductionHypothesis =>
      rw [advanceDecimal_of_some true stands.getElem?_eq]
      by_cases digit : character.isDigit
      · rw [if_pos digit, List.dropWhile_cons_of_pos digit]
        exact inductionHypothesis (stands.behind_digit digit)
      · rw [if_neg digit, if_neg (by simp), List.dropWhile_cons_of_neg digit]
        exact stands

theorem advanceDecimal (stands : Stands text place ⟨rest, line⟩) :
    Stands text (place.advanceDecimal text false)
      ⟨(Numeral.Magnitude.readDecimal rest).2, line⟩ := by
  rw [readDecimal_rest]
  induction rest generalizing place with
  | nil =>
      rw [advanceDecimal_of_none false stands.getElem?_eq]
      exact stands
  | cons character rest inductionHypothesis =>
      rw [advanceDecimal_of_some false stands.getElem?_eq]
      by_cases digit : character.isDigit
      · rw [if_pos digit, List.dropWhile_cons_of_pos digit]
        exact inductionHypothesis (stands.behind_digit digit)
      · rw [if_neg digit, List.dropWhile_cons_of_neg digit]
        by_cases point : character = '.'
        · subst point
          rw [if_pos ⟨rfl, rfl⟩]
          exact (stands.behind_inline (by decide)).advanceDecimal_seen
        · rw [if_neg (fun both => point both.1)]
          split
          · rename_i equal
            exact absurd (List.cons.inj equal).1 point
          · exact stands

end Stands

end Place

/-- A reading succeeds with what a step finds, at the place behind the step. -/
def Finds (text : List Char) (reading : Option (ScanItem × Place)) (step : Step) : Prop :=
  ∃ item behind, reading = some (item, behind) ∧ step.item? = some item ∧
    behind.Stands text step.after

section Pieces

variable {text rest : List Char} {start unsigned : Place} {line : Nat}

theorem finds_classified {behind : Place} {after : List Char}
    (stands : behind.Stands text ⟨after, line⟩) (kind : Option TokenKind) (lexeme : List Char)
    (cause : String → LexicalFault.Cause) :
    Finds text (some (classified kind lexeme cause line, behind))
      (Cursor.classify kind lexeme cause line after) := by
  cases kind with
  | none => exact ⟨_, behind, rfl, rfl, stands⟩
  | some kind => exact ⟨_, behind, rfl, rfl, stands⟩

theorem readWord?_finds (stands : start.Stands text ⟨rest, line⟩) :
    Finds text (readWord? text start)
      (Cursor.classify (Identifier.kind? (Identifier.read rest).1) (Identifier.read rest).1
        .unrecognizedWord line (Identifier.read rest).2) := by
  have behind : Place.Stands text _ ⟨(Identifier.read rest).2, line⟩ :=
    stands.advanceWhile_inline rfl
  have lexeme := stands.cursorAt.slice?_eq behind.cursorAt (Identifier.append_read rest)
  have sameLine : start.line = line := stands.line_eq
  simp only [readWord?, lexeme, sameLine, Option.bind_eq_bind, Option.bind_some]
  exact finds_classified behind _ _ _

theorem readHexadecimal?_finds {negative capitalMark : Bool} {zero mark : Char} {more : List Char}
    (stands : start.Stands text ⟨rest, line⟩)
    (marked : unsigned.Stands text ⟨zero :: mark :: more, line⟩)
    (noBreaks : zero ≠ '\n' ∧ mark ≠ '\n')
    (read : Numeral.read rest =
      (⟨negative, .hexadecimal capitalMark (more.takeWhile Text.isHexDigit)⟩,
        more.dropWhile Text.isHexDigit)) :
    Finds text (readHexadecimal? text negative start unsigned)
      (Cursor.classify (Numeral.read rest).1.kind? (Numeral.read rest).1.spelling .invalidNumber
        line (Numeral.read rest).2) := by
  have atMark := marked.behind_inline noBreaks.1
  have digitsStart := atMark.behind_inline noBreaks.2
  have behind : Place.Stands text _ ⟨more.dropWhile Text.isHexDigit, line⟩ :=
    digitsStart.advanceWhile_inline rfl
  have whole := Numeral.spelling_append_read rest
  rw [read] at whole ⊢
  have lexeme := stands.cursorAt.slice?_eq behind.cursorAt whole
  have digits := digitsStart.cursorAt.slice?_eq behind.cursorAt List.takeWhile_append_dropWhile
  have sameLine : start.line = line := stands.line_eq
  simp only [readHexadecimal?, marked.advance_eq, atMark.advance_eq, lexeme, digits,
    hexKind?_eq negative capitalMark, sameLine, Option.bind_eq_bind, Option.bind_some]
  exact finds_classified behind _ _ _

theorem readDecimal?_finds {body : List Char} (stands : start.Stands text ⟨rest, line⟩)
    (digits : unsigned.Stands text ⟨body, line⟩)
    (read : (Numeral.read rest).2 = (Numeral.Magnitude.readDecimal body).2) :
    Finds text (readDecimal? text start unsigned)
      (Cursor.classify (Numeral.read rest).1.kind? (Numeral.read rest).1.spelling .invalidNumber
        line (Numeral.read rest).2) := by
  have behind := digits.advanceDecimal
  rw [← read] at behind
  have whole := Numeral.spelling_append_read rest
  have lexeme := stands.cursorAt.slice?_eq behind.cursorAt whole
  have again := Numeral.read_spelling (Numeral.wellSpelled_read rest)
  have sameLine : start.line = line := stands.line_eq
  simp only [readDecimal?, lexeme, again, sameLine, Option.bind_eq_bind, Option.bind_some]
  exact finds_classified behind _ _ _

theorem atHexMark_iff (stands : start.Stands text ⟨rest, line⟩) :
    atHexMark text start ↔ Numeral.Magnitude.HexMarked rest := by
  simp only [atHexMark, stands.getElem?_eq, stands.cursorAt.getElem?_add, Bool.and_eq_true,
    Bool.or_eq_true, decide_eq_true_eq]
  match rest with
  | [] | [_] => simp [Numeral.Magnitude.HexMarked]
  | zero :: mark :: more =>
      simp only [List.head?_cons, List.getElem?_cons_succ, List.getElem?_cons_zero,
        Option.some.injEq, Numeral.Magnitude.HexMarked, List.cons.injEq]
      constructor
      · rintro ⟨rfl, rfl | rfl⟩
        · exact ⟨more, .inl ⟨rfl, rfl, rfl⟩⟩
        · exact ⟨more, .inr ⟨rfl, rfl, rfl⟩⟩
      · rintro ⟨_, ⟨rfl, rfl, _⟩ | ⟨rfl, rfl, _⟩⟩
        · exact ⟨rfl, .inl rfl⟩
        · exact ⟨rfl, .inr rfl⟩

/-- Behind the sign of a number, or at its start, stands the magnitude that is read. -/
theorem stands_unsigned (stands : start.Stands text ⟨rest, line⟩) :
    ∃ body,
      (if decide (text[start.position]? = some '-') then start.advance text else start).Stands text
        ⟨body, line⟩ ∧
      Numeral.read rest =
        (⟨decide (text[start.position]? = some '-'), (Numeral.Magnitude.read body).1⟩,
          (Numeral.Magnitude.read body).2) := by
  rw [stands.getElem?_eq]
  by_cases minus : rest.head? = some '-'
  · obtain ⟨body, rfl⟩ := List.head?_eq_some_iff.mp minus
    refine ⟨body, ?_, rfl⟩
    rw [if_pos (by rfl), stands.advance_eq]
    exact stands.behind_inline (by decide)
  · refine ⟨rest, ?_, ?_⟩
    · rw [if_neg (by simpa using minus)]
      exact stands
    · rw [Numeral.read_unsigned minus, decide_eq_false minus]

theorem readNumber?_finds (stands : start.Stands text ⟨rest, line⟩) :
    Finds text (readNumber? text start)
      (Cursor.classify (Numeral.read rest).1.kind? (Numeral.read rest).1.spelling .invalidNumber
        line (Numeral.read rest).2) := by
  obtain ⟨body, unsigned, read⟩ := stands_unsigned stands
  rw [readNumber?]
  by_cases marked : Numeral.Magnitude.HexMarked body
  · rw [if_pos ((atHexMark_iff unsigned).mpr marked)]
    obtain ⟨more, rfl | rfl⟩ := marked
    · exact readHexadecimal?_finds stands unsigned (by decide) read
    · exact readHexadecimal?_finds stands unsigned (by decide) read
  · rw [if_neg fun mark => marked ((atHexMark_iff unsigned).mp mark)]
    apply readDecimal?_finds stands unsigned
    rw [read, Numeral.Magnitude.read_eq_readDecimal marked]

end Pieces

/-! ### Steps -/

/-- A step from a place succeeds with what the step of a cursor finds, which is nothing at the end
of the text, and at the place behind that step. -/
def Matches (text : List Char) (outcome : Option (Option ScanItem × Place)) (step : Step) : Prop :=
  ∃ behind, outcome = some (step.item?, behind) ∧ behind.Stands text step.after

theorem Finds.matches {text : List Char} {reading : Option (ScanItem × Place)} {step : Step}
    (finds : Finds text reading step) :
    Matches text (reading.map fun read => (some read.1, read.2)) step := by
  obtain ⟨item, behind, rfl, found, later⟩ := finds
  refine ⟨behind, ?_, later⟩
  rw [found]
  rfl

theorem tokenAt?_matches {text rest : List Char} {here : Place} {line : Nat}
    (stands : here.Stands text ⟨rest, line⟩) :
    Matches text (tokenAt? text here) (Cursor.tokenHere rest line) := by
  have sameLine : here.line = line := stands.line_eq
  rw [tokenAt?, stands.getElem?_eq]
  match rest with
  | [] => exact ⟨here, rfl, stands⟩
  | character :: rest =>
      rw [List.head?_cons]
      cases punctuation : Cursor.punctuation? character with
      | some kind =>
          have inline : character ≠ '\n' := by
            rintro rfl
            cases punctuation
          have step : Cursor.tokenHere (character :: rest) line =
              .token ⟨kind, String.singleton character, line⟩ ⟨rest, line⟩ := by
            simp only [Cursor.tokenHere, punctuation]
          simp only [step, punctuation, stands.advance_eq, sameLine]
          exact ⟨here.behind character, rfl, stands.behind_inline inline⟩
      | none =>
          by_cases starts : Numeral.startsWith character
          · simp only [punctuation, starts, if_true, Cursor.tokenHere_number starts]
            exact (readNumber?_finds stands).matches
          · by_cases letter : character.isAlpha
            · simp only [punctuation, starts, letter, if_true, if_false, Bool.false_eq_true,
                Cursor.tokenHere_word letter]
              exact (readWord?_finds stands).matches
            · have step : Cursor.tokenHere (character :: rest) line =
                  .fault ⟨.unexpectedCharacter character, line⟩ ⟨character :: rest, line⟩ := by
                simp only [Cursor.tokenHere, punctuation, starts, letter, Bool.false_eq_true,
                  if_false]
              simp only [step, punctuation, starts, letter, Bool.false_eq_true, if_false, sameLine]
              exact ⟨here, rfl, stands⟩

/-- A step from a place finds what the step from the cursor finds, and the two come to stand at the
same character again. -/
theorem next?_matches {text : List Char} {place : Place} {cursor : Cursor}
    (stands : place.Stands text cursor) : Matches text (next? text place) cursor.next :=
  tokenAt?_matches stands.skipLayout

/-! ### Scans -/

theorem position_lt_of_stands {text : List Char} {place later : Place} {cursor resumed : Cursor}
    (stands : place.Stands text cursor) (behind : later.Stands text resumed)
    (shorter : resumed.rest.length < cursor.rest.length) :
    place.position < later.position ∧ later.position ≤ text.length := by
  have first := stands.cursorAt.length_eq
  have second := behind.cursorAt.length_eq
  omega

theorem scan?_of_item {text : List Char} {place behind : Place} {item : ScanItem}
    (found : next? text place = some (some item, behind))
    (moved : place.position < (resumed text item behind).position ∧
      (resumed text item behind).position ≤ text.length) :
    scan? text place =
      (scan? text (resumed text item behind)).map fun items => item :: items := by
  rw [scan?, found]
  exact dif_pos moved

/-- A scan with a cursor finds what the scan of the text that is left finds. -/
theorem scan?_eq {text : List Char} {place : Place} {cursor : Cursor}
    (stands : place.Stands text cursor) : scan? text place = some cursor.scan := by
  induction cursor using Cursor.scan_induction generalizing place with
  | token cursor token after step inductionHypothesis =>
      obtain ⟨behind, found, later⟩ := next?_matches stands
      rw [step] at found later
      have moved := position_lt_of_stands stands later (Cursor.length_lt_of_next_eq_token step)
      rw [scan?_of_item found moved, Cursor.scan_eq, step, resumed, inductionHypothesis later]
      rfl
  | fault cursor fault after step inductionHypothesis =>
      obtain ⟨behind, found, later⟩ := next?_matches stands
      rw [step] at found later
      have recovered := later.skipToNextLine
      have moved := position_lt_of_stands stands recovered (Cursor.length_lt_of_next_eq_fault step)
      rw [scan?_of_item found moved, Cursor.scan_eq, step, resumed, inductionHypothesis recovered]
      rfl
  | finished cursor after step =>
      obtain ⟨behind, found, later⟩ := next?_matches stands
      rw [step] at found
      rw [scan?, found, Cursor.scan_eq, step]
      rfl

/-- Scanning with a cursor never leaves the text. -/
theorem tokenize?_eq (source : String) : tokenize? source = some (tokenize source) := by
  have start : Place.Stands source.toList ⟨0, 1⟩ (Cursor.start source) := ⟨⟨[], rfl, rfl⟩, rfl⟩
  rw [tokenize?, scan?_eq start]
  rfl

end RiscAssembler.Positional
