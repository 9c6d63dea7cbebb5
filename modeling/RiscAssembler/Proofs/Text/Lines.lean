import RiscAssembler.Text

/-!
Contract: what stands in a text stands on the line that its line breaks count.

Owns:
- the equations of the division of a text into lines, one character at a time;
- the line of a piece of text: its number is one more than the number of line feeds in front of it;
- the first line, which every text has except for the empty one.

A carriage return in front of a line feed belongs to no line, and a line feed at the end of a text
starts no further line. So the piece must hold something, and no carriage return.

Main statement: `exists_line?_of_piece`, by induction on the text in front of the piece.
-/

namespace RiscAssembler.Text

/-- Puts a character at the front of the first line. -/
def consLine (character : Char) : List (List Char) → List (List Char)
  | [] => [[character]]
  | line :: more => (character :: line) :: more

theorem lines_newline (rest : List Char) : lines ('\n' :: rest) = [] :: lines rest := by
  rw [lines]

theorem lines_return_newline (rest : List Char) :
    lines ('\r' :: '\n' :: rest) = lines ('\n' :: rest) := by
  rw [lines, lines]

theorem lines_cons {character : Char} {rest : List Char} (noBreak : character ≠ '\n')
    (noEnd : character = '\r' → rest.head? ≠ some '\n') :
    lines (character :: rest) = consLine character (lines rest) := by
  rw [lines]
  · rfl
  · exact noBreak
  · rintro later rfl rfl
    exact noEnd rfl rfl

theorem lines_ne_nil {text : List Char} (nonempty : text ≠ []) : lines text ≠ [] := by
  unfold lines
  split
  · exact absurd rfl nonempty
  · simp
  · simp
  · split
    · simp
    · simp

/-- Text in front of a line, on the same line, does not take it away. -/
theorem exists_getElem?_lines_cons {character : Char} (noBreak : character ≠ '\n')
    {rest line : List Char} {index : Nat} (found : (lines rest)[index]? = some line) :
    ∃ longer, (lines (character :: rest))[index]? = some longer ∧ line <:+ longer := by
  by_cases ending : character = '\r' ∧ rest.head? = some '\n'
  · obtain ⟨rfl, head⟩ := ending
    obtain ⟨later, rfl⟩ := List.head?_eq_some_iff.mp head
    rw [lines_return_newline]
    exact ⟨line, found, List.suffix_refl line⟩
  · rw [not_and] at ending
    rw [lines_cons noBreak ending]
    cases divided : lines rest with
    | nil =>
        rw [divided] at found
        cases found
    | cons first more =>
        rw [divided] at found
        cases index with
        | zero =>
            obtain rfl : first = line := by simpa using found
            exact ⟨character :: first, rfl, List.suffix_cons character first⟩
        | succ index => exact ⟨line, found, List.suffix_refl line⟩

/-- A piece at the start of a text starts the first line. -/
theorem exists_lines_of_piece {piece : List Char} (nonempty : piece ≠ [])
    (unbroken : '\n' ∉ piece ∧ '\r' ∉ piece) (after : List Char) :
    ∃ rest more, lines (piece ++ after) = (piece ++ rest) :: more := by
  induction piece with
  | nil => exact absurd rfl nonempty
  | cons character piece inductionHypothesis =>
      simp only [List.mem_cons, not_or] at unbroken
      obtain ⟨⟨noBreak, noBreaks⟩, noReturn, noReturns⟩ := unbroken
      have first :
          lines (character :: piece ++ after) = consLine character (lines (piece ++ after)) :=
        lines_cons (Ne.symm noBreak) fun isReturn => absurd isReturn.symm noReturn
      rw [first]
      by_cases last : piece = []
      · subst last
        rw [List.nil_append]
        cases lines after with
        | nil => exact ⟨[], [], rfl⟩
        | cons line more => exact ⟨line, more, rfl⟩
      · obtain ⟨rest, more, later⟩ := inductionHypothesis last ⟨noBreaks, noReturns⟩
        rw [later]
        exact ⟨rest, more, rfl⟩

theorem exists_getElem?_lines_of_piece (before : List Char) {piece : List Char}
    (nonempty : piece ≠ []) (unbroken : '\n' ∉ piece ∧ '\r' ∉ piece) (after : List Char) :
    ∃ line, (lines (before ++ (piece ++ after)))[before.count '\n']? = some line ∧
      piece <:+: line := by
  induction before with
  | nil =>
      obtain ⟨rest, more, divided⟩ := exists_lines_of_piece nonempty unbroken after
      rw [List.nil_append, divided]
      exact ⟨piece ++ rest, rfl, List.infix_append' [] piece rest⟩
  | cons character before inductionHypothesis =>
      obtain ⟨line, found, shows⟩ := inductionHypothesis
      rw [List.cons_append]
      by_cases isBreak : character = '\n'
      · subst isBreak
        rw [lines_newline, List.count_cons_self]
        exact ⟨line, found, shows⟩
      · obtain ⟨longer, still, whole⟩ := exists_getElem?_lines_cons isBreak found
        rw [List.count_cons_of_ne isBreak]
        exact ⟨longer, still, shows.trans whole.isInfix⟩

/-- A piece of a text is part of the line that the line feeds in front of it count. -/
theorem exists_line?_of_piece (before : List Char) {piece : List Char} (nonempty : piece ≠ [])
    (unbroken : '\n' ∉ piece ∧ '\r' ∉ piece) (after : List Char) :
    ∃ line, line? (before ++ (piece ++ after)) (1 + before.count '\n') = some line ∧
      piece <:+: line := by
  have found := exists_getElem?_lines_of_piece before nonempty unbroken after
  rw [line?, if_neg (by omega), Nat.add_sub_cancel_left]
  exact found

theorem exists_line?_one {text : List Char} (nonempty : text ≠ []) :
    ∃ line, line? text 1 = some line := by
  obtain ⟨line, more, divided⟩ := List.exists_cons_of_ne_nil (lines_ne_nil nonempty)
  refine ⟨line, ?_⟩
  rw [line?, if_neg Nat.one_ne_zero, divided]
  rfl

theorem line?_zero (text : List Char) : line? text 0 = none := rfl

end RiscAssembler.Text
