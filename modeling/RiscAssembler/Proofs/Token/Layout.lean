import Mathlib.Data.List.Chain
import RiscAssembler.Proofs.Token.Lines
import RiscAssembler.Token.Layout

/-!
Contract: layout that a scan does not see.

Owns:
- texts that can stand for one another behind any other text;
- the local condition that makes two texts so, which looks at what a scan skips and drops only;
- comments, runs of blanks, and carriage returns in front of line feeds;
- the normal layout of a text, and its line feed form.

Where two texts differ in layout, the places of the two scans drift apart. The local condition
compares the texts from the place on where they differ; what stands in front of them is read alike
because a separator follows it in either text.

Main statements: `AgreeAhead.interchangeable`, by induction on the steps of the scan through the
text in front, and `interchangeable_normal`.
-/

namespace RiscAssembler

/-- Two texts that make no difference to a scan, whatever text they stand behind. -/
def Interchangeable (left right : List Char) : Prop :=
  ∀ before line,
    (Cursor.mk (before ++ left) line).scan = (Cursor.mk (before ++ right) line).scan

namespace Interchangeable

theorem refl (text : List Char) : Interchangeable text text :=
  fun _ _ => rfl

theorem symm {left right : List Char} (same : Interchangeable left right) :
    Interchangeable right left :=
  fun before line => (same before line).symm

theorem trans {left middle right : List Char} (first : Interchangeable left middle)
    (second : Interchangeable middle right) : Interchangeable left right :=
  fun before line => (first before line).trans (second before line)

theorem cons {left right : List Char} (character : Char) (same : Interchangeable left right) :
    Interchangeable (character :: left) (character :: right) := by
  intro before line
  have longer := same (before ++ [character]) line
  rwa [List.append_assoc, List.append_assoc] at longer

theorem scan_eq {left right : List Char} (same : Interchangeable left right) (line : Nat) :
    (Cursor.mk left line).scan = (Cursor.mk right line).scan :=
  same [] line

end Interchangeable

/-! ### The local condition -/

/-- Two texts that end the token in front of them and look alike to a scan there, both when it
skips layout, in a comment or outside, and when it drops the rest of a line. -/
structure AgreeAhead (left right : List Char) : Prop where
  left_separated : Separated left
  right_separated : Separated right
  skipped : ∀ inComment line,
    (Cursor.skipFrom inComment left line).scan = (Cursor.skipFrom inComment right line).scan
  dropped : ∀ line,
    (Cursor.nextLineFrom left line).scan = (Cursor.nextLineFrom right line).scan

namespace Cursor

/-- Layout is skipped at once. -/
theorem skipTrivia_skipFrom (inComment : Bool) (text : List Char) (line : Nat) :
    (skipFrom inComment text line).skipTrivia = skipFrom inComment text line := by
  induction text generalizing inComment line with
  | nil => rfl
  | cons character rest inductionHypothesis =>
      simp only [skipFrom]
      split_ifs with isBreak inside isMark blank
      · exact inductionHypothesis false (line + 1)
      · exact inductionHypothesis true line
      · exact inductionHypothesis true line
      · exact inductionHypothesis false line
      · simp [skipTrivia, skipFrom, isBreak, isMark, blank]

theorem next_skipTrivia (cursor : Cursor) : cursor.skipTrivia.next = cursor.next := by
  unfold next
  rw [show cursor.skipTrivia.skipTrivia = cursor.skipTrivia from
    skipTrivia_skipFrom false cursor.rest cursor.line]

theorem scan_skipTrivia (cursor : Cursor) : cursor.skipTrivia.scan = cursor.scan := by
  rw [scan_eq, next_skipTrivia, ← scan_eq]

/-- The scan of a text with more behind it, once only layout is left of the text. -/
theorem scan_append_of_nil {cursor : Cursor} (empty : cursor.skipTrivia.rest = [])
    (after : List Char) :
    (cursor.append after).scan =
      (skipFrom (commentAfter false cursor.rest) after cursor.lastLine).scan := by
  rw [← scan_skipTrivia, skipTrivia_append_of_nil after empty]

end Cursor

namespace AgreeAhead

variable {left right : List Char} (agree : AgreeAhead left right)
include agree

/-- Recovery either stays in the text in front or drops the rest of a line behind it. -/
theorem scan_nextLine_append (cursor : Cursor)
    (later : (cursor.nextLine.append left).scan = (cursor.nextLine.append right).scan) :
    (cursor.append left).nextLine.scan = (cursor.append right).nextLine.scan := by
  by_cases breaks : '\n' ∈ cursor.rest
  · have split (after : List Char) :
        (cursor.append after).nextLine = cursor.nextLine.append after :=
      Cursor.nextLineFrom_append_of_mem after breaks cursor.line
    rw [split, split, later]
  · have split (after : List Char) :
        (cursor.append after).nextLine = Cursor.nextLineFrom after cursor.line :=
      Cursor.nextLineFrom_append_of_unbroken after breaks cursor.line
    rw [split, split, agree.dropped]

/-- Behind any text, a scan finds the same in both texts. -/
theorem scan_append (cursor : Cursor) : (cursor.append left).scan = (cursor.append right).scan := by
  induction cursor using Cursor.scan_induction with
  | token cursor token after step inductionHypothesis =>
      have yields : cursor.next.Yields token.line after := step ▸ ⟨rfl, rfl⟩
      have more := Cursor.skipTrivia_ne_nil_of_yields yields
      rw [Cursor.scan_eq, Cursor.next_append_of_rest left agree.left_separated more,
        Cursor.scan_eq (cursor.append right),
        Cursor.next_append_of_rest right agree.right_separated more, step]
      simp [Step.append, inductionHypothesis]
  | fault cursor fault after step inductionHypothesis =>
      have yields : cursor.next.Yields fault.line after := step ▸ ⟨rfl, rfl⟩
      have more := Cursor.skipTrivia_ne_nil_of_yields yields
      have resumed := agree.scan_nextLine_append after inductionHypothesis
      rw [Cursor.scan_eq, Cursor.next_append_of_rest left agree.left_separated more,
        Cursor.scan_eq (cursor.append right),
        Cursor.next_append_of_rest right agree.right_separated more, step]
      simp [Step.append, resumed]
  | finished cursor after step =>
      have empty : cursor.skipTrivia.rest = [] := by
        have reads := Cursor.next_reads cursor
        rw [step] at reads
        exact reads.2
      rw [Cursor.scan_append_of_nil empty, Cursor.scan_append_of_nil empty, agree.skipped]

theorem interchangeable : Interchangeable left right := by
  intro before line
  exact agree.scan_append ⟨before, line⟩

end AgreeAhead

/-! ### Comments -/

theorem interchangeable_commentEnd : Interchangeable ['#'] [] := by
  apply AgreeAhead.interchangeable
  exact {
    left_separated := separated_cons (by decide)
    right_separated := separated_nil
    skipped := by simp [Cursor.skipFrom]
    dropped := by simp [Cursor.nextLineFrom] }

/-- A comment without text in front of a line break. -/
theorem interchangeable_commentBreak (rest : List Char) :
    Interchangeable ('#' :: '\n' :: rest) ('\n' :: rest) := by
  apply AgreeAhead.interchangeable
  exact {
    left_separated := separated_cons (by decide)
    right_separated := separated_cons (by decide)
    skipped := by simp [Cursor.skipFrom]
    dropped := by simp [Cursor.nextLineFrom] }

/-- A character of a comment, next to the mark of the comment. -/
theorem interchangeable_commentText {character : Char} (noBreak : character ≠ '\n')
    (rest : List Char) : Interchangeable ('#' :: character :: rest) ('#' :: rest) := by
  apply AgreeAhead.interchangeable
  exact {
    left_separated := separated_cons (by decide)
    right_separated := separated_cons (by decide)
    skipped := by simp [Cursor.skipFrom, noBreak]
    dropped := by simp [Cursor.nextLineFrom, noBreak] }

namespace Layout

theorem withoutComments_cons {character : Char} (noBreak : character ≠ '\n') (inComment : Bool)
    (rest : List Char) :
    withoutComments inComment (character :: rest) =
      if inComment || character = '#' then withoutComments true rest
      else character :: withoutComments false rest := by
  rw [withoutComments]
  exact noBreak

/-- Inside a comment, what is left stands for the rest of the comment and its mark. -/
theorem interchangeable_withoutComments (inComment : Bool) (text : List Char) :
    Interchangeable (withoutComments inComment text) (if inComment then '#' :: text else text) := by
  induction text generalizing inComment with
  | nil =>
      cases inComment with
      | false => exact .refl []
      | true => exact interchangeable_commentEnd.symm
  | cons character rest inductionHypothesis =>
      have plain : Interchangeable (withoutComments false rest) rest := inductionHypothesis false
      have commented : Interchangeable (withoutComments true rest) ('#' :: rest) :=
        inductionHypothesis true
      by_cases isBreak : character = '\n'
      · subst isBreak
        have resumed := plain.cons '\n'
        cases inComment with
        | false => exact resumed
        | true => exact resumed.trans (interchangeable_commentBreak rest).symm
      · rw [withoutComments_cons isBreak]
        cases inComment with
        | true => exact commented.trans (interchangeable_commentText isBreak rest).symm
        | false =>
            by_cases isMark : character = '#'
            · subst isMark
              exact commented
            · simpa [isMark] using plain.cons character

/-! ### Blanks -/

/-- Blanks of a line are skipped, and dropped, one like another. -/
theorem isInlineBlank_iff {character : Char} :
    isInlineBlank character ↔ character = ' ' ∨ character = '\t' ∨ character = '\r' := by
  simp [isInlineBlank, or_assoc]

theorem skipFrom_inlineBlank {character : Char} (blank : isInlineBlank character)
    (inComment : Bool) (rest : List Char) (line : Nat) :
    Cursor.skipFrom inComment (character :: rest) line = Cursor.skipFrom inComment rest line := by
  rcases isInlineBlank_iff.mp blank with rfl | rfl | rfl
  all_goals cases inComment <;> rfl

theorem nextLineFrom_inlineBlank {character : Char} (blank : isInlineBlank character)
    (rest : List Char) (line : Nat) :
    Cursor.nextLineFrom (character :: rest) line = Cursor.nextLineFrom rest line := by
  rcases isInlineBlank_iff.mp blank with rfl | rfl | rfl
  all_goals rfl

theorem separated_inlineBlank {character : Char} (blank : isInlineBlank character)
    (rest : List Char) : Separated (character :: rest) := by
  apply separated_cons
  rcases isInlineBlank_iff.mp blank with rfl | rfl | rfl
  all_goals decide

/-- A blank of a line stands for nothing in front of a text that ends a token by itself. -/
theorem interchangeable_inlineBlank {character : Char} (blank : isInlineBlank character)
    {rest : List Char} (separated : Separated rest) :
    Interchangeable (character :: rest) rest := by
  apply AgreeAhead.interchangeable
  exact {
    left_separated := separated_inlineBlank blank rest
    right_separated := separated
    skipped := by simp [skipFrom_inlineBlank blank]
    dropped := by simp [nextLineFrom_inlineBlank blank] }

theorem interchangeable_space {character : Char} (blank : isInlineBlank character)
    (rest : List Char) : Interchangeable (' ' :: rest) (character :: rest) := by
  have isBlank : isInlineBlank ' ' := rfl
  apply AgreeAhead.interchangeable
  exact {
    left_separated := separated_inlineBlank isBlank rest
    right_separated := separated_inlineBlank blank rest
    skipped := by simp [skipFrom_inlineBlank blank, skipFrom_inlineBlank isBlank]
    dropped := by simp [nextLineFrom_inlineBlank blank, nextLineFrom_inlineBlank isBlank] }

/-- Behind a blank, what is left stands for the rest of the run and the space that was put for
it. -/
theorem interchangeable_squeezed (text : List Char) :
    Interchangeable (squeezed false text) text ∧
      Interchangeable (' ' :: squeezed true text) (' ' :: text) := by
  induction text with
  | nil => exact ⟨.refl _, .refl _⟩
  | cons character rest inductionHypothesis =>
      obtain ⟨plain, behindBlank⟩ := inductionHypothesis
      by_cases blank : isInlineBlank character
      · have one : Interchangeable (' ' :: squeezed true rest) (character :: rest) :=
          behindBlank.trans (interchangeable_space blank rest)
        have run : Interchangeable (' ' :: character :: rest) (character :: rest) :=
          interchangeable_inlineBlank rfl (separated_inlineBlank blank rest)
        simp only [squeezed, blank, if_true, Bool.false_eq_true, if_false]
        exact ⟨one, one.trans run.symm⟩
      · have kept := plain.cons character
        simp only [squeezed, blank, Bool.false_eq_true, if_false]
        exact ⟨kept, kept.cons ' '⟩

/-- A text in normal layout: no comment, no blank but the space, and no two spaces together. -/
structure IsNormal (text : List Char) : Prop where
  plain : ∀ character ∈ text, character ≠ '#' ∧ character ≠ '\t' ∧ character ≠ '\r'
  single : text.IsChain fun first second => first = ' ' → second ≠ ' '

theorem not_mark_of_mem_withoutComments {inComment : Bool} {text : List Char} {character : Char}
    (member : character ∈ withoutComments inComment text) : character ≠ '#' := by
  induction text generalizing inComment with
  | nil => cases member
  | cons first rest inductionHypothesis =>
      by_cases isBreak : first = '\n'
      · subst isBreak
        rcases List.mem_cons.mp member with rfl | later
        · decide
        · exact inductionHypothesis later
      · rw [withoutComments_cons isBreak] at member
        split at member
        · exact inductionHypothesis member
        · rename_i kept
          rcases List.mem_cons.mp member with rfl | later
          · simp at kept
            exact kept.2
          · exact inductionHypothesis later

theorem of_mem_squeezed {afterBlank : Bool} {text : List Char} {character : Char}
    (member : character ∈ squeezed afterBlank text) :
    character = ' ' ∨ character ∈ text ∧ isInlineBlank character = false := by
  induction text generalizing afterBlank with
  | nil => cases member
  | cons first rest inductionHypothesis =>
      have later {blank : Bool} (tail : character ∈ squeezed blank rest) :
          character = ' ' ∨ character ∈ first :: rest ∧ isInlineBlank character = false :=
        (inductionHypothesis tail).imp_right fun found =>
          ⟨List.mem_cons_of_mem first found.1, found.2⟩
      simp only [squeezed] at member
      split_ifs at member with blank behindBlank
      · exact later member
      · rcases List.mem_cons.mp member with space | tail
        · exact .inl space
        · exact later tail
      · rcases List.mem_cons.mp member with rfl | tail
        · exact .inr ⟨List.mem_cons_self, by simpa using blank⟩
        · exact later tail

theorem head?_squeezed_true (text : List Char) : ∀ character ∈ (squeezed true text).head?,
    character ≠ ' ' := by
  induction text with
  | nil => simp [squeezed]
  | cons first rest inductionHypothesis =>
      simp only [squeezed]
      split_ifs with blank
      · exact inductionHypothesis
      · rintro character head rfl
        obtain rfl : first = ' ' := by simpa using head
        exact blank rfl

theorem isChain_squeezed (afterBlank : Bool) (text : List Char) :
    (squeezed afterBlank text).IsChain fun first second => first = ' ' → second ≠ ' ' := by
  induction text generalizing afterBlank with
  | nil => exact .nil
  | cons first rest inductionHypothesis =>
      simp only [squeezed]
      split_ifs with blank behindBlank
      · exact inductionHypothesis true
      · apply (inductionHypothesis true).cons
        exact fun next head _ => head?_squeezed_true rest next head
      · apply (inductionHypothesis false).cons
        rintro next _ rfl
        exact absurd rfl blank

theorem isNormal_normal (source : String) : IsNormal (normal source).toList := by
  rw [normal, String.toList_ofList]
  constructor
  · intro character member
    rcases of_mem_squeezed member with rfl | ⟨kept, noBlank⟩
    · decide
    · refine ⟨not_mark_of_mem_withoutComments kept, ?_, ?_⟩
      · rintro rfl
        cases noBlank
      · rintro rfl
        cases noBlank
  · exact isChain_squeezed false _

/-- A text and its normal layout are the same to a scan. -/
theorem interchangeable_normal (source : String) :
    Interchangeable (normal source).toList source.toList := by
  have squeezing := (interchangeable_squeezed (withoutComments false source.toList)).1
  have stripping := interchangeable_withoutComments false source.toList
  rw [normal, String.toList_ofList]
  exact squeezing.trans stripping

/-! ### Carriage returns -/

/-- A text with a line feed alone for each carriage return and line feed. -/
def lineFeeds : List Char → List Char
  | [] => []
  | '\r' :: '\n' :: rest => '\n' :: lineFeeds rest
  | character :: rest => character :: lineFeeds rest

def lineFeedForm (source : String) : String :=
  String.ofList (lineFeeds source.toList)

theorem interchangeable_lineFeeds (text : List Char) : Interchangeable (lineFeeds text) text := by
  induction text using lineFeeds.induct with
  | case1 => exact .refl []
  | case2 rest inductionHypothesis =>
      have dropped : Interchangeable ('\r' :: '\n' :: rest) ('\n' :: rest) :=
        interchangeable_inlineBlank rfl (Cursor.separated_newline rest)
      rw [lineFeeds]
      exact (inductionHypothesis.cons '\n').trans dropped.symm
  | case3 character rest other inductionHypothesis =>
      rw [lineFeeds]
      · exact inductionHypothesis.cons character
      · exact other

end Layout

/-- Texts that make no difference to a scan have the same tokens and the same report. -/
theorem tokenize_eq_of_interchangeable {left right : String}
    (same : Interchangeable left.toList right.toList) : tokenize left = tokenize right :=
  congrArg Scan.reported (same.scan_eq 1)

end RiscAssembler
