import Mathlib.Data.List.Forall2
import RiscAssembler.Proofs.Token.Lines

/-!
Contract: every character of a program text is accounted for.

Owns:
- the stretches of a text that tokens and lexical faults take up;
- the places between them, which hold blanks, line breaks and comments only;
- the order of the lines of lexical faults.

A token takes up its spelling, and a lexical fault takes up the rest of its line from the offending
text on. The places are counted in the whole text, whereas a scan sees only what lies ahead of it,
so the induction along a scan carries the text that lies behind.

Main statements: `Cursor.exists_covering`, by induction on the steps of the scan, and
`tokenize_covers`.
-/

namespace RiscAssembler

/-! ### Places of a text -/

/-- A stretch of a text, from its first place up to the place behind its last. -/
structure Span where
  start : Nat
  stop : Nat
deriving DecidableEq, Repr

def Span.Contains (span : Span) (place : Nat) : Prop :=
  span.start ≤ place ∧ place < span.stop

/-- The line of a place: one more than the number of line breaks in front of it. -/
def lineOfPlace (text : List Char) (place : Nat) : Nat :=
  1 + (text.take place).count '\n'

/-- A place in a comment: the mark of the comment stands there or further left on the line. -/
def InComment (text : List Char) (place : Nat) : Prop :=
  ∃ mark ≤ place, text[mark]? = some '#' ∧ '\n' ∉ text.extract mark (place + 1)

/-- A place that holds nothing but layout. -/
def IsTrivia (text : List Char) (place : Nat) : Prop :=
  (∃ blank ∈ [' ', '\t', '\r', '\n'], text[place]? = some blank) ∨ InComment text place

/-- A token takes up the stretch where it is spelled. -/
structure Token.TakesUp (text : List Char) (token : Token) (span : Span) : Prop where
  nonempty : span.start < span.stop
  inside : span.stop ≤ text.length
  spelled : text.extract span.start span.stop = token.lexeme.toList
  line_eq : token.line = lineOfPlace text span.start

/-- The text that a lexical fault is about. -/
def LexicalFault.Cause.offending : LexicalFault.Cause → List Char
  | unexpectedCharacter character => [character]
  | invalidNumber spelling => spelling.toList
  | unrecognizedWord spelling => spelling.toList

/-- A lexical fault takes up the rest of its line, from the offending text on. -/
structure LexicalFault.TakesUp (text : List Char) (fault : LexicalFault) (span : Span) : Prop where
  nonempty : span.start < span.stop
  inside : span.stop ≤ text.length
  offends : fault.cause.offending <+: text.extract span.start span.stop
  unbroken : '\n' ∉ text.extract span.start span.stop
  reaches : span.stop = text.length ∨ text[span.stop]? = some '\n'
  line_eq : fault.line = lineOfPlace text span.start

theorem extract_piece (before piece after : List Char) :
    (before ++ (piece ++ after)).extract before.length (before ++ piece).length = piece := by
  simp

theorem lineOfPlace_length (before after : List Char) :
    lineOfPlace (before ++ after) before.length = 1 + before.count '\n' := by
  simp [lineOfPlace]

theorem getElem?_length_append (before rest : List Char) (character : Char) :
    (before ++ character :: rest)[before.length]? = some character := by
  simp

/-- No line break inside a stretch: all of it is on one line. -/
theorem lineOfPlace_eq_of_unbroken {text : List Char} {start place : Nat} (le : start ≤ place)
    (unbroken : '\n' ∉ text.extract start place) :
    lineOfPlace text place = lineOfPlace text start := by
  have split : text.take place = text.take start ++ text.extract start place := by
    have inner : (text.take place).take start = text.take start := by
      rw [List.take_take, Nat.min_eq_left le]
    have outer : (text.take place).drop start = text.extract start place := by
      rw [List.drop_take]
    rw [← inner, ← outer, List.take_append_drop]
  rw [lineOfPlace, lineOfPlace, split, List.count_append, List.count_eq_zero.mpr unbroken,
    Nat.add_zero]

/-! ### Layout in front of a finding -/

theorem isTrivia_of_blank {before rest : List Char} {character : Char}
    (blank : Cursor.isBlank character) :
    IsTrivia (before ++ character :: rest) before.length := by
  simp only [Cursor.isBlank, Bool.or_eq_true, decide_eq_true_eq, or_assoc] at blank
  exact .inl ⟨character, by simpa using blank, getElem?_length_append before rest character⟩

/-- The text behind a place ends inside a comment. -/
def EndsInComment (before : List Char) : Prop :=
  ∃ head comment, before = head ++ '#' :: comment ∧ '\n' ∉ comment

theorem endsInComment_mark (before : List Char) : EndsInComment (before ++ ['#']) :=
  ⟨before, [], rfl, List.not_mem_nil⟩

theorem EndsInComment.concat {before : List Char} (commented : EndsInComment before)
    {character : Char} (noBreak : character ≠ '\n') : EndsInComment (before ++ [character]) := by
  obtain ⟨head, comment, rfl, unbroken⟩ := commented
  refine ⟨head, comment ++ [character], by simp, ?_⟩
  simp [unbroken, noBreak.symm]

/-- The last character of a text that ends inside a comment is part of the comment. -/
theorem EndsInComment.isTrivia {before : List Char} {character : Char}
    (commented : EndsInComment (before ++ [character])) (rest : List Char) :
    IsTrivia (before ++ character :: rest) before.length := by
  obtain ⟨head, comment, split, unbroken⟩ := commented
  have lengths := congrArg List.length split
  simp only [List.length_append, List.length_cons, List.length_nil] at lengths
  have whole : before ++ character :: rest = head ++ ('#' :: comment ++ rest) := by
    rw [← List.append_assoc, ← split, List.append_assoc]
    rfl
  refine .inr ⟨head.length, by omega, ?_, ?_⟩
  · rw [whole]
    exact getElem?_length_append head (comment ++ rest) '#'
  · have stop : before.length + 1 = (head ++ '#' :: comment).length := by
      simp only [List.length_append, List.length_cons]
      omega
    rw [whole, stop, extract_piece]
    simp [unbroken]

/-- All places from one up to another hold layout. -/
def TriviaBetween (text : List Char) (start stop : Nat) : Prop :=
  ∀ place, start ≤ place → place < stop → IsTrivia text place

theorem TriviaBetween.refl (text : List Char) (place : Nat) : TriviaBetween text place place := by
  intro other le lt
  omega

theorem TriviaBetween.cons {before gap : List Char} {character : Char} {text : List Char}
    (first : IsTrivia text before.length)
    (later : TriviaBetween text (before ++ [character]).length
      (before ++ [character] ++ gap).length) :
    TriviaBetween text before.length (before ++ character :: gap).length := by
  intro place le lt
  by_cases here : place = before.length
  · rw [here]
    exact first
  · apply later place
    · simp only [List.length_append, List.length_cons, List.length_nil]
      omega
    · simpa using lt

/-- With some text behind, nothing but layout lies between the text ahead and a place further on. -/
def PassesTo (before ahead : List Char) (line : Nat) (place : Cursor) : Prop :=
  ∃ gap, gap ++ place.rest = ahead ∧ place.line = line + gap.count '\n' ∧
    TriviaBetween (before ++ ahead) before.length (before ++ gap).length

theorem passesTo_refl (before ahead : List Char) (line : Nat) :
    PassesTo before ahead line ⟨ahead, line⟩ := by
  refine ⟨[], rfl, rfl, ?_⟩
  rw [List.append_nil]
  exact TriviaBetween.refl _ _

theorem PassesTo.cons {before rest : List Char} {character : Char} {line : Nat} {place : Cursor}
    (first : IsTrivia (before ++ character :: rest) before.length)
    (later : PassesTo (before ++ [character]) rest (line + [character].count '\n') place) :
    PassesTo before (character :: rest) line place := by
  obtain ⟨gap, whole, lines, trivia⟩ := later
  have joined : before ++ [character] ++ rest = before ++ character :: rest := by simp
  rw [joined] at trivia
  refine ⟨character :: gap, by rw [List.cons_append, whole], ?_, TriviaBetween.cons first trivia⟩
  rw [lines, Nat.add_assoc, ← List.count_append, List.singleton_append]

/-- What a scan skips in front of a finding is layout. -/
theorem passesTo_skipFrom (inComment : Bool) (before ahead : List Char) (line : Nat)
    (commented : inComment → EndsInComment before) :
    PassesTo before ahead line (Cursor.skipFrom inComment ahead line) := by
  induction ahead generalizing inComment line before with
  | nil => exact passesTo_refl before [] line
  | cons character rest inductionHypothesis =>
      have plain : false = true → EndsInComment (before ++ [character]) := nofun
      simp only [Cursor.skipFrom]
      by_cases isBreak : character = '\n'
      · subst isBreak
        rw [if_pos rfl]
        exact .cons (isTrivia_of_blank rfl) (inductionHypothesis false _ (line + 1) plain)
      · have sameLine : line + [character].count '\n' = line := by
          simp [isBreak]
        rw [if_neg isBreak]
        by_cases inside : inComment
        · have still := (commented inside).concat isBreak
          rw [if_pos inside]
          refine .cons (still.isTrivia rest) ?_
          rw [sameLine]
          exact inductionHypothesis true _ line fun _ => still
        · rw [if_neg inside]
          by_cases isMark : character = '#'
          · subst isMark
            have opened := endsInComment_mark before
            rw [if_pos rfl]
            refine .cons (opened.isTrivia rest) ?_
            rw [sameLine]
            exact inductionHypothesis true _ line fun _ => opened
          · rw [if_neg isMark]
            by_cases blank : Cursor.isBlank character
            · rw [if_pos blank]
              refine .cons (isTrivia_of_blank blank) ?_
              rw [sameLine]
              exact inductionHypothesis false _ line plain
            · rw [if_neg blank]
              exact passesTo_refl before (character :: rest) line

namespace Cursor

/-- The text in front of the next finding, and the line on which the finding starts. -/
theorem exists_skipped (cursor : Cursor) :
    ∃ skipped, skipped ++ cursor.skipTrivia.rest = cursor.rest ∧
      cursor.skipTrivia.line = cursor.line + skipped.count '\n' := by
  obtain ⟨skipped, whole, lines, _⟩ := passesTo_skipFrom false [] cursor.rest cursor.line nofun
  exact ⟨skipped, whole, lines⟩

/-- The text that a step skips and takes off, and the line on which it leaves the place. -/
theorem exists_taken (cursor : Cursor) :
    ∃ taken, taken ++ cursor.next.after.rest = cursor.rest ∧
      cursor.next.after.line = cursor.line + taken.count '\n' := by
  obtain ⟨skipped, whole, lines⟩ := cursor.exists_skipped
  have reads := next_reads cursor
  have further {piece : List Char} {after : Cursor} (sameLine : after.line = cursor.skipTrivia.line)
      (split : piece ++ after.rest = cursor.skipTrivia.rest) (unbroken : '\n' ∉ piece) :
      ∃ taken, taken ++ after.rest = cursor.rest ∧
        after.line = cursor.line + taken.count '\n' := by
    refine ⟨skipped ++ piece, ?_, ?_⟩
    · rw [List.append_assoc, split, whole]
    · rw [sameLine, lines, List.count_append, List.count_eq_zero.mpr unbroken, Nat.add_zero]
  match step : cursor.next with
  | .token found after =>
      rw [step] at reads
      exact further reads.2.1 reads.2.2.1 reads.2.2.2
  | .fault found after =>
      rw [step] at reads
      exact further reads.2.1 reads.2.2.1 reads.2.2.2
  | .finished after =>
      rw [step] at reads
      obtain ⟨rfl, atEnd⟩ := reads
      exact further rfl atEnd.symm List.not_mem_nil

end Cursor

/-- A finding does not start with a blank. -/
theorem isBlank_head_skipFrom (inComment : Bool) (ahead : List Char) (line : Nat) :
    ∀ character ∈ (Cursor.skipFrom inComment ahead line).rest.head?,
      Cursor.isBlank character = false := by
  induction ahead generalizing inComment line with
  | nil => simp [Cursor.skipFrom]
  | cons character rest inductionHypothesis =>
      simp only [Cursor.skipFrom]
      split_ifs with isBreak inside isMark blank
      · exact inductionHypothesis false (line + 1)
      · exact inductionHypothesis true line
      · exact inductionHypothesis true line
      · exact inductionHypothesis false line
      · simpa using blank

theorem head_skipFrom (inComment : Bool) (ahead : List Char) (line : Nat) :
    ∀ character ∈ (Cursor.skipFrom inComment ahead line).rest.head?, character ≠ '\n' := by
  rintro character head rfl
  have noBlank := isBlank_head_skipFrom inComment ahead line '\n' head
  cases noBlank

/-! ### What a finding starts with -/

theorem LexicalFault.Cause.offending_invalidNumber (spelling : String) :
    (invalidNumber spelling).offending = spelling.toList := rfl

theorem LexicalFault.Cause.offending_unrecognizedWord (spelling : String) :
    (unrecognizedWord spelling).offending = spelling.toList := rfl

/-- What a step finds is not empty, and a fault is about the text at the place of the step. -/
def Step.Starts (text : List Char) : Step → Prop
  | .token found _ => found.lexeme.toList ≠ []
  | .fault found _ => found.cause.offending ≠ [] ∧ found.cause.offending <+: text
  | .finished _ => True

namespace Cursor

private theorem classify_starts (kind : Option TokenKind) {lexeme : List Char} {character : Char}
    {cause : String → LexicalFault.Cause} (offending : ∀ text, (cause text).offending = text.toList)
    (line : Nat) (after : List Char) (head : lexeme.head? = some character) :
    (classify kind lexeme cause line after).Starts (lexeme ++ after) := by
  have nonempty : lexeme ≠ [] := by
    rintro rfl
    cases head
  cases kind with
  | some kind => simpa [classify, Step.Starts] using nonempty
  | none => simpa [classify, Step.Starts, offending] using nonempty

theorem tokenHere_starts (text : List Char) (line : Nat) :
    (tokenHere text line).Starts text := by
  cases text with
  | nil => exact trivial
  | cons character rest =>
      simp only [tokenHere]
      split
      · simp [Step.Starts]
      · split
        · rename_i starts
          have spelled := Numeral.spelling_append_read (character :: rest)
          have found := classify_starts (Numeral.read (character :: rest)).1.kind?
            LexicalFault.Cause.offending_invalidNumber line (Numeral.read (character :: rest)).2
            (Numeral.head?_spelling_read starts rest)
          rwa [spelled] at found
        · split
          · rename_i letter
            have spelled := Identifier.append_read (character :: rest)
            have found := classify_starts (Identifier.kind? (Identifier.read (character :: rest)).1)
              LexicalFault.Cause.offending_unrecognizedWord line
              (Identifier.read (character :: rest)).2 (Identifier.head?_read letter rest)
            rwa [spelled] at found
          · simp [Step.Starts, LexicalFault.Cause.offending]

theorem next_starts (cursor : Cursor) : cursor.next.Starts cursor.skipTrivia.rest :=
  tokenHere_starts cursor.skipTrivia.rest cursor.skipTrivia.line

end Cursor

/-- The text that a fault is about has no line break in it. If it has not been read, it is a single
character that starts a finding. -/
theorem LexicalFault.Cause.offending_unbroken {cause : LexicalFault.Cause} {text : List Char}
    (read : '\n' ∉ cause.consumed) (starts : cause.offending <+: text)
    (head : ∀ character ∈ text.head?, character ≠ '\n') : '\n' ∉ cause.offending := by
  cases cause with
  | invalidNumber spelling => exact read
  | unrecognizedWord spelling => exact read
  | unexpectedCharacter character =>
      obtain ⟨rest, rfl⟩ := starts
      have different : character ≠ '\n' := head character rfl
      simpa [offending] using different.symm

/-- A piece without a line break does not reach across one. -/
theorem prefix_of_unbroken {piece taken tail : List Char} (starts : piece <+: taken ++ tail)
    (unbroken : '\n' ∉ piece) (stops : ∀ character ∈ tail.head?, character = '\n') :
    piece <+: taken := by
  rcases List.prefix_or_prefix_of_prefix starts (List.prefix_append taken tail) with inside | beyond
  · exact inside
  · obtain ⟨more, rfl⟩ := beyond
    obtain ⟨rest, rfl⟩ := (List.prefix_append_right_inj taken).mp starts
    cases more with
    | nil => simp
    | cons character more =>
        have isBreak : character = '\n' := stops character rfl
        simp [isBreak] at unbroken

/-! ### The rest of a line -/

/-- Going on to the next line drops the rest of the line, and the line break if there is one. -/
structure Cursor.Drops (cursor : Cursor) (dropped ending : List Char) : Prop where
  split : dropped ++ (ending ++ cursor.nextLine.rest) = cursor.rest
  unbroken : '\n' ∉ dropped
  line_eq : cursor.nextLine.line = cursor.line + ending.count '\n'
  ending_eq : ending = ['\n'] ∨ ending = [] ∧ cursor.nextLine.rest = []

theorem Cursor.exists_drops (cursor : Cursor) :
    ∃ dropped ending, cursor.Drops dropped ending := by
  by_cases breaks : '\n' ∈ cursor.rest
  · obtain ⟨dropped, rest, split, unbroken⟩ := List.eq_append_cons_of_mem breaks
    have next : cursor.nextLine = ⟨rest, cursor.line + 1⟩ := by
      rw [nextLine, split, nextLineFrom_append_of_not_mem rest unbroken]
    refine ⟨dropped, ['\n'], ?_, unbroken, ?_, .inl rfl⟩
    · rw [next, split]
      rfl
    · rw [next]
      rfl
  · have next : cursor.nextLine = ⟨[], cursor.line⟩ :=
      nextLineFrom_of_not_mem breaks cursor.line
    refine ⟨cursor.rest, [], ?_, breaks, ?_, .inr ⟨rfl, ?_⟩⟩
    · rw [next]
      exact List.append_nil _
    · rw [next]
      rfl
    · rw [next]

namespace Cursor.Drops

variable {cursor : Cursor} {dropped ending before text : List Char}

theorem stops (drops : cursor.Drops dropped ending) :
    ∀ character ∈ (ending ++ cursor.nextLine.rest).head?, character = '\n' := by
  rcases drops.ending_eq with rfl | ⟨rfl, atEnd⟩
  · simp
  · simp [atEnd]

theorem reaches (drops : cursor.Drops dropped ending)
    (whole : before ++ (ending ++ cursor.nextLine.rest) = text) :
    before.length = text.length ∨ text[before.length]? = some '\n' := by
  rw [← whole]
  rcases drops.ending_eq with rfl | ⟨rfl, atEnd⟩
  · right
    exact getElem?_length_append before cursor.nextLine.rest '\n'
  · left
    simp [atEnd]

theorem trivia (drops : cursor.Drops dropped ending)
    (whole : before ++ (ending ++ cursor.nextLine.rest) = text) :
    TriviaBetween text before.length (before ++ ending).length := by
  rw [← whole]
  rcases drops.ending_eq with rfl | ⟨rfl, _⟩
  · apply TriviaBetween.cons
    · exact isTrivia_of_blank rfl
    · rw [List.append_nil]
      exact TriviaBetween.refl _ _
  · rw [List.append_nil]
    exact TriviaBetween.refl _ _

end Cursor.Drops

/-! ### Steps within the whole text -/

/-- A place in a text, behind a part of it. -/
structure Cursor.Follows (text before : List Char) (cursor : Cursor) : Prop where
  whole : before ++ cursor.rest = text
  line_eq : cursor.line = 1 + before.count '\n'

namespace Cursor.Follows

variable {text before : List Char} {cursor : Cursor}

theorem step (follows : cursor.Follows text before) {piece : List Char} {after : Cursor}
    (split : piece ++ after.rest = cursor.rest)
    (lines : after.line = cursor.line + piece.count '\n') :
    after.Follows text (before ++ piece) where
  whole := by rw [List.append_assoc, split, follows.whole]
  line_eq := by rw [lines, follows.line_eq, List.count_append, Nat.add_assoc]

theorem line_eq_lineOfPlace (follows : cursor.Follows text before) :
    cursor.line = lineOfPlace text before.length := by
  rw [← follows.whole, lineOfPlace_length, follows.line_eq]

theorem length_le (follows : cursor.Follows text before) : before.length ≤ text.length := by
  rw [← follows.whole, List.length_append]
  exact Nat.le_add_right _ _

theorem skipTrivia (follows : cursor.Follows text before) :
    ∃ gap, cursor.skipTrivia.Follows text (before ++ gap) ∧
      TriviaBetween text before.length (before ++ gap).length := by
  obtain ⟨gap, whole, lines, trivia⟩ :=
    passesTo_skipFrom false before cursor.rest cursor.line nofun
  rw [follows.whole] at trivia
  exact ⟨gap, follows.step whole lines, trivia⟩

theorem token (follows : cursor.Follows text before) {token : Token} {after : Cursor}
    (reads : (Step.token token after).Reads cursor.rest cursor.line)
    (starts : (Step.token token after).Starts cursor.rest) :
    token.TakesUp text ⟨before.length, (before ++ token.lexeme.toList).length⟩ ∧
      after.Follows text (before ++ token.lexeme.toList) := by
  obtain ⟨ownLine, sameLine, split, unbroken⟩ := reads
  have nonempty : 0 < token.lexeme.toList.length := List.length_pos_iff.mpr starts
  have later : after.Follows text (before ++ token.lexeme.toList) :=
    follows.step split (by rw [sameLine, List.count_eq_zero.mpr unbroken, Nat.add_zero])
  refine ⟨⟨?_, later.length_le, ?_, ?_⟩, later⟩
  · show before.length < (before ++ token.lexeme.toList).length
    rw [List.length_append]
    omega
  · rw [← follows.whole, ← split, extract_piece]
  · rw [ownLine, follows.line_eq_lineOfPlace]

/-- A fault takes up all that the recovery drops, except for the line break. -/
theorem fault (follows : cursor.Follows text before) {fault : LexicalFault} {after : Cursor}
    (reads : (Step.fault fault after).Reads cursor.rest cursor.line)
    (starts : (Step.fault fault after).Starts cursor.rest)
    (head : ∀ character ∈ cursor.rest.head?, character ≠ '\n') :
    ∃ taken ending,
      fault.TakesUp text ⟨before.length, (before ++ taken).length⟩ ∧
        TriviaBetween text (before ++ taken).length (before ++ taken ++ ending).length ∧
        after.nextLine.Follows text (before ++ taken ++ ending) := by
  obtain ⟨ownLine, sameLine, split, unread⟩ := reads
  obtain ⟨nonempty, starts⟩ := starts
  obtain ⟨dropped, ending, drops⟩ := after.exists_drops
  have unbroken : '\n' ∉ fault.cause.consumed ++ dropped := by
    simp [unread, drops.unbroken]
  have whole : fault.cause.consumed ++ dropped ++ (ending ++ after.nextLine.rest) =
      cursor.rest := by
    rw [List.append_assoc, drops.split, split]
  generalize fault.cause.consumed ++ dropped = taken at unbroken whole
  have offends : fault.cause.offending <+: taken := by
    rw [← whole] at starts
    apply prefix_of_unbroken starts _ drops.stops
    exact LexicalFault.Cause.offending_unbroken unread (whole ▸ starts) head
  -- the place of the line break, before it is passed
  have there : (Cursor.mk (ending ++ after.nextLine.rest) cursor.line).Follows text
      (before ++ taken) :=
    follows.step whole (by rw [List.count_eq_zero.mpr unbroken, Nat.add_zero])
  have next : after.nextLine.Follows text (before ++ taken ++ ending) :=
    there.step rfl (by rw [drops.line_eq, sameLine])
  have extracted : text.extract before.length (before ++ taken).length = taken := by
    rw [← follows.whole, ← whole, extract_piece]
  refine ⟨taken, ending, ⟨?_, there.length_le, ?_, ?_, drops.reaches there.whole, ?_⟩,
    drops.trivia there.whole, next⟩
  · have filled : 0 < taken.length :=
      Nat.lt_of_lt_of_le (List.length_pos_iff.mpr nonempty) offends.length_le
    show before.length < (before ++ taken).length
    rw [List.length_append]
    omega
  · rw [extracted]
    exact offends
  · rw [extracted]
    exact unbroken
  · rw [ownLine, follows.line_eq_lineOfPlace]

end Cursor.Follows

/-! ### A whole scan -/

/-- Stretches of a text from a place on: one for each token and one for each fault, from the left to
the right, with nothing but layout outside them. -/
structure Covering (text : List Char) (start : Nat) (tokens : List Token)
    (faults : List LexicalFault) (tokenSpans faultSpans : List Span) : Prop where
  tokens_stand : List.Forall₂ (Token.TakesUp text) tokens tokenSpans
  faults_stand : List.Forall₂ (LexicalFault.TakesUp text) faults faultSpans
  tokens_behind : ∀ span ∈ tokenSpans, start ≤ span.start
  faults_behind : ∀ span ∈ faultSpans, start ≤ span.start
  tokens_apart : tokenSpans.Pairwise fun left right => left.stop ≤ right.start
  apart : ∀ token ∈ tokenSpans, ∀ fault ∈ faultSpans,
    token.stop ≤ fault.start ∨ fault.stop ≤ token.start
  trivia : ∀ place, start ≤ place → place < text.length →
    (∀ span ∈ tokenSpans, ¬ span.Contains place) → (∀ span ∈ faultSpans, ¬ span.Contains place) →
    IsTrivia text place

namespace Covering

variable {text : List Char} {start : Nat} {tokens : List Token} {faults : List LexicalFault}
  {tokenSpans faultSpans : List Span}

theorem atEnd (text : List Char) : Covering text text.length [] [] [] [] where
  tokens_stand := .nil
  faults_stand := .nil
  tokens_behind := by simp
  faults_behind := by simp
  tokens_apart := .nil
  apart := by simp
  trivia := by
    intro place le lt
    omega

theorem extend {later : Nat} (covering : Covering text later tokens faults tokenSpans faultSpans)
    (le : start ≤ later) (gap : TriviaBetween text start later) :
    Covering text start tokens faults tokenSpans faultSpans where
  tokens_stand := covering.tokens_stand
  faults_stand := covering.faults_stand
  tokens_behind := fun span member => Nat.le_trans le (covering.tokens_behind span member)
  faults_behind := fun span member => Nat.le_trans le (covering.faults_behind span member)
  tokens_apart := covering.tokens_apart
  apart := covering.apart
  trivia := by
    intro place startLe lt noToken noFault
    by_cases inGap : place < later
    · exact gap place startLe inGap
    · exact covering.trivia place (Nat.le_of_not_lt inGap) lt noToken noFault

theorem consToken {token : Token} {span : Span} (takesUp : token.TakesUp text span)
    (covering : Covering text span.stop tokens faults tokenSpans faultSpans) :
    Covering text span.start (token :: tokens) faults (span :: tokenSpans) faultSpans where
  tokens_stand := .cons takesUp covering.tokens_stand
  faults_stand := covering.faults_stand
  tokens_behind := by
    intro other member
    have order := takesUp.nonempty
    rcases List.mem_cons.mp member with rfl | later
    · exact Nat.le_refl _
    · have behind := covering.tokens_behind other later
      omega
  faults_behind := by
    intro other member
    have order := takesUp.nonempty
    have behind := covering.faults_behind other member
    omega
  tokens_apart := .cons covering.tokens_behind covering.tokens_apart
  apart := by
    intro other member fault isFault
    rcases List.mem_cons.mp member with rfl | later
    · exact .inl (covering.faults_behind fault isFault)
    · exact covering.apart other later fault isFault
  trivia := by
    intro place le lt noToken noFault
    obtain ⟨outside, noLater⟩ := List.forall_mem_cons.mp noToken
    by_cases inside : place < span.stop
    · exact absurd ⟨le, inside⟩ outside
    · exact covering.trivia place (Nat.le_of_not_lt inside) lt noLater noFault

theorem consFault {fault : LexicalFault} {span : Span} (takesUp : fault.TakesUp text span)
    (covering : Covering text span.stop tokens faults tokenSpans faultSpans) :
    Covering text span.start tokens (fault :: faults) tokenSpans (span :: faultSpans) where
  tokens_stand := covering.tokens_stand
  faults_stand := .cons takesUp covering.faults_stand
  tokens_behind := by
    intro other member
    have order := takesUp.nonempty
    have behind := covering.tokens_behind other member
    omega
  faults_behind := by
    intro other member
    have order := takesUp.nonempty
    rcases List.mem_cons.mp member with rfl | later
    · exact Nat.le_refl _
    · have behind := covering.faults_behind other later
      omega
  tokens_apart := covering.tokens_apart
  apart := by
    intro token isToken other member
    rcases List.mem_cons.mp member with rfl | later
    · exact .inr (covering.tokens_behind token isToken)
    · exact covering.apart token isToken other later
  trivia := by
    intro place le lt noToken noFault
    obtain ⟨outside, noLater⟩ := List.forall_mem_cons.mp noFault
    by_cases inside : place < span.stop
    · exact absurd ⟨le, inside⟩ outside
    · exact covering.trivia place (Nat.le_of_not_lt inside) lt noToken noLater

end Covering

theorem length_le_length_append (before gap : List Char) :
    before.length ≤ (before ++ gap).length := by
  rw [List.length_append]
  exact Nat.le_add_right _ _

/-- A scan from any place of a text accounts for all that lies ahead of the place. -/
theorem Cursor.exists_covering {text before : List Char} {cursor : Cursor}
    (follows : cursor.Follows text before) :
    ∃ tokenSpans faultSpans,
      Covering text before.length (Scan.tokens cursor.scan) (Scan.faults cursor.scan)
        tokenSpans faultSpans := by
  induction cursor using Cursor.scan_induction generalizing before with
  | token cursor token after step inductionHypothesis =>
      obtain ⟨gap, there, trivia⟩ := follows.skipTrivia
      obtain ⟨takesUp, later⟩ := there.token (step ▸ next_reads cursor) (step ▸ next_starts cursor)
      obtain ⟨tokenSpans, faultSpans, covering⟩ := inductionHypothesis later
      rw [scan_eq, step]
      exact ⟨_, _, (covering.consToken takesUp).extend (length_le_length_append _ _) trivia⟩
  | fault cursor fault after step inductionHypothesis =>
      obtain ⟨gap, there, trivia⟩ := follows.skipTrivia
      obtain ⟨taken, ending, takesUp, ended, later⟩ := there.fault (step ▸ next_reads cursor)
        (step ▸ next_starts cursor) (head_skipFrom false cursor.rest cursor.line)
      obtain ⟨tokenSpans, faultSpans, covering⟩ := inductionHypothesis later
      have resumed := covering.extend (length_le_length_append _ _) ended
      rw [scan_eq, step]
      exact ⟨_, _, (resumed.consFault takesUp).extend (length_le_length_append _ _) trivia⟩
  | finished cursor after step =>
      obtain ⟨gap, there, trivia⟩ := follows.skipTrivia
      have reads := next_reads cursor
      rw [step] at reads
      have atEnd : (before ++ gap).length = text.length := by
        rw [← there.whole, reads.2, List.append_nil]
      rw [scan_eq, step]
      rw [atEnd] at trivia
      refine ⟨[], [], (Covering.atEnd text).extend ?_ trivia⟩
      exact follows.length_le

/-! ### The lines of lexical faults -/

theorem Cursor.line_lt_of_mem_scan_nextLine {cursor : Cursor} {item : ScanItem}
    (member : item ∈ cursor.nextLine.scan) : cursor.line < item.line := by
  have bounds := line_of_mem_scan member
  obtain ⟨_, ending, drops⟩ := cursor.exists_drops
  have lines := drops.line_eq
  rcases drops.ending_eq with rfl | ⟨_, atEnd⟩
  · rw [List.count_singleton_self] at lines
    omega
  · -- nothing is found behind the last line
    have finished : cursor.nextLine.next = .finished ⟨[], cursor.nextLine.line⟩ := by
      rw [next, skipTrivia, atEnd]
      rfl
    rw [scan_eq, finished] at member
    cases member

/-- A fault drops the rest of its line, so the next fault is on a later line. -/
theorem Cursor.faults_pairwise_line_lt (cursor : Cursor) :
    (Scan.faults cursor.scan).Pairwise fun first second => first.line < second.line := by
  induction cursor using Cursor.scan_induction with
  | token cursor token after step inductionHypothesis =>
      rw [scan_eq, step]
      exact inductionHypothesis
  | fault cursor fault after step inductionHypothesis =>
      have reads := next_reads cursor
      rw [step] at reads
      rw [scan_eq, step]
      refine .cons ?_ inductionHypothesis
      intro later member
      obtain ⟨item, found, isFault⟩ := List.mem_filterMap.mp member
      have below := line_lt_of_mem_scan_nextLine found
      cases item with
      | token other => cases isFault
      | fault other =>
          cases isFault
          rw [reads.1, ← reads.2.1]
          exact below
  | finished cursor after step =>
      rw [scan_eq, step]
      exact .nil

/-- A fault is the only one of its line, if the lines increase. -/
theorem filter_line_eq_singleton {faults : List LexicalFault} {fault : LexicalFault}
    (increasing : faults.Pairwise fun first second => first.line < second.line)
    (member : fault ∈ faults) : faults.filter (·.line = fault.line) = [fault] := by
  induction faults with
  | nil => cases member
  | cons head rest inductionHypothesis =>
      obtain ⟨below, restIncreasing⟩ := List.pairwise_cons.mp increasing
      rcases List.mem_cons.mp member with rfl | later
      · have noOther : rest.filter (·.line = fault.line) = [] := by
          apply List.filter_eq_nil_iff.mpr
          intro other isLater
          simpa using Nat.ne_of_gt (below other isLater)
        rw [List.filter_cons_of_pos (by simp), noOther]
      · have different := Nat.ne_of_lt (below fault later)
        rw [List.filter_cons_of_neg (by simpa using different)]
        exact inductionHypothesis restIncreasing later

/-! ### Whole texts -/

theorem LexicalFault.TakesUp.lineOfPlace_eq {text : List Char} {fault : LexicalFault} {span : Span}
    (takesUp : fault.TakesUp text span) {place : Nat} (inside : span.Contains place) :
    lineOfPlace text place = fault.line := by
  have shorter : place - span.start ≤ span.stop - span.start := by
    have below := inside.2
    omega
  have unbroken : '\n' ∉ text.extract span.start place := by
    intro member
    exact takesUp.unbroken ((List.take_sublist_take_left shorter).subset member)
  rw [lineOfPlace_eq_of_unbroken inside.1 unbroken, takesUp.line_eq]

/-- Nothing in a program text is passed over but layout and the rest of a faulted line. The
tokens take up stretches of the text from the left to the right, each its own spelling on its own
line. A place outside these stretches holds a blank or a line break, or is part of a comment, or
it stands on a line that has exactly one lexical fault, not to the left of the text that the
fault is about. -/
theorem tokenize_covers (source : String) :
    ∃ tokenSpans faultSpans,
      List.Forall₂ (Token.TakesUp source.toList) (tokenize source).value tokenSpans ∧
        tokenSpans.Pairwise (fun left right => left.stop ≤ right.start) ∧
        List.Forall₂ (LexicalFault.TakesUp source.toList) (lexicalFaults source) faultSpans ∧
        (∀ token ∈ tokenSpans, ∀ fault ∈ faultSpans,
          token.stop ≤ fault.start ∨ fault.stop ≤ token.start) ∧
        ∀ place < source.toList.length, (∀ span ∈ tokenSpans, ¬ span.Contains place) →
          (∃ blank ∈ [' ', '\t', '\r', '\n'], source.toList[place]? = some blank) ∨
            InComment source.toList place ∨
            ∃ fault span, (fault, span) ∈ (lexicalFaults source).zip faultSpans ∧
              span.start ≤ place ∧
              (lexicalFaults source).filter (·.line = lineOfPlace source.toList place) =
                [fault] := by
  have start : (Cursor.start source).Follows source.toList [] := ⟨rfl, rfl⟩
  obtain ⟨tokenSpans, faultSpans, covering⟩ := Cursor.exists_covering start
  have increasing := Cursor.faults_pairwise_line_lt (Cursor.start source)
  refine ⟨tokenSpans, faultSpans, covering.tokens_stand, covering.tokens_apart,
    covering.faults_stand, covering.apart, ?_⟩
  intro place below noToken
  by_cases dropped : ∃ span ∈ faultSpans, span.Contains place
  · obtain ⟨span, isSpan, inside⟩ := dropped
    obtain ⟨sameLength, stand⟩ := List.forall₂_iff_zip.mp covering.faults_stand
    have paired := List.map_snd_zip (Nat.le_of_eq sameLength.symm)
    rw [← paired] at isSpan
    obtain ⟨⟨fault, _⟩, member, rfl⟩ := List.mem_map.mp isSpan
    have isFault : fault ∈ lexicalFaults source := (List.of_mem_zip member).1
    refine .inr (.inr ⟨fault, _, member, inside.1, ?_⟩)
    rw [(stand member).lineOfPlace_eq inside]
    exact filter_line_eq_singleton increasing isFault
  · have noFault : ∀ span ∈ faultSpans, ¬ span.Contains place := by
      intro span isSpan inside
      exact dropped ⟨span, isSpan, inside⟩
    have trivia := covering.trivia place (Nat.zero_le _) below noToken noFault
    exact trivia.imp_right .inl

end RiscAssembler
