import Mathlib.Data.List.TakeWhile
import RiscAssembler.Proofs.Token.Steps

/-!
Contract: what follows a separator never changes how the text in front of it is read.

Owns:
- the characters that no number or word reaches across;
- a place, and a step from it, when more text follows;
- the same reading with and without more text behind a separator, for numbers, for words and for
  the token at a place.

Does not own: blanks and comments in front of a token. A comment ends at a line break only, so
most separators do not end it.

Main statement: `Cursor.tokenHere_append`.
-/

namespace RiscAssembler

/-- Whether a character ends every number and every word in front of it. -/
def isSeparator (character : Char) : Bool :=
  !character.isAlphanum && character ≠ '.'

/-- A text that cannot continue a number or a word: it is empty or starts with a separator. -/
def Separated (after : List Char) : Prop :=
  ∀ character ∈ after.head?, isSeparator character

theorem separated_nil : Separated [] := by
  simp [Separated]

theorem separated_cons {character : Char} {rest : List Char}
    (separator : isSeparator character) : Separated (character :: rest) := by
  simpa [Separated] using separator

/-! ### Runs -/

section Runs

variable {Item : Type} {property : Item → Bool} {after : List Item}
  (stops : ∀ item ∈ after.head?, property item = false)
include stops

theorem takeWhile_append_stop (text : List Item) :
    (text ++ after).takeWhile property = text.takeWhile property := by
  have nothing : after.takeWhile property = [] := by
    cases after with
    | nil => rfl
    | cons item rest =>
        have stop := stops item (by simp)
        exact List.takeWhile_cons_of_neg (by simp [stop])
  rw [List.takeWhile_append, nothing]
  split
  · rename_i whole
    rw [List.append_nil]
    exact ((List.takeWhile_prefix property).eq_of_length whole).symm
  · rfl

theorem dropWhile_append_stop (text : List Item) :
    (text ++ after).dropWhile property = text.dropWhile property ++ after := by
  have taken := takeWhile_append_stop stops text
  have whole : (text ++ after).takeWhile property ++ (text ++ after).dropWhile property =
      text.takeWhile property ++ (text.dropWhile property ++ after) := by
    rw [List.takeWhile_append_dropWhile, ← List.append_assoc, List.takeWhile_append_dropWhile]
  rw [taken] at whole
  exact List.append_cancel_left whole

variable {run : List Item} (inside : ∀ item ∈ run, property item)
include inside

/-- A run is taken off whole where the next item is of another class. -/
theorem takeWhile_run : (run ++ after).takeWhile property = run := by
  rw [takeWhile_append_stop stops, List.takeWhile_eq_self_iff.mpr inside]

theorem dropWhile_run : (run ++ after).dropWhile property = after := by
  rw [dropWhile_append_stop stops, List.dropWhile_eq_nil_iff.mpr inside, List.nil_append]

end Runs

/-- A run that is taken off ends in front of an item of another class. -/
theorem head?_dropWhile_eq_false {Item : Type} {property : Item → Bool} {text : List Item} :
    ∀ item ∈ (text.dropWhile property).head?, property item = false := by
  intro item first
  have stops := List.head?_dropWhile_not property text
  rw [Option.mem_def.mp first] at stops
  exact stops

section Classes

variable {after : List Char} (separated : Separated after)
include separated

theorem Separated.not_alphanum :
    ∀ character ∈ after.head?, character.isAlphanum = false := by
  intro character first
  have separator := separated character first
  simp only [isSeparator, Bool.and_eq_true, Bool.not_eq_true'] at separator
  exact separator.1

theorem Separated.not_digit : ∀ character ∈ after.head?, character.isDigit = false := by
  intro character first
  have other := separated.not_alphanum character first
  simp only [Char.isAlphanum, Bool.or_eq_false_iff] at other
  exact other.2

theorem Separated.not_hexDigit :
    ∀ character ∈ after.head?, Text.isHexDigit character = false := by
  intro character first
  have other := separated.not_alphanum character first
  cases hexDigit : Text.isHexDigit character with
  | false => rfl
  | true => simp [isAlphanum_of_isHexDigit hexDigit] at other

theorem Separated.not_point (rest : List Char) : after ≠ '.' :: rest := by
  intro equal
  have separator := separated '.' (by simp [equal])
  simp [isSeparator] at separator

end Classes

/-! ### Numbers and words -/

namespace Numeral.Magnitude

/-- A text that starts with the mark of a hexadecimal number. -/
def HexMarked (text : List Char) : Prop :=
  ∃ rest, text = '0' :: 'x' :: rest ∨ text = '0' :: 'X' :: rest

theorem read_eq_readDecimal {text : List Char} (unmarked : ¬ HexMarked text) :
    read text = readDecimal text := by
  unfold read
  split
  · rename_i rest
    exact absurd ⟨rest, .inl rfl⟩ unmarked
  · rename_i rest
    exact absurd ⟨rest, .inr rfl⟩ unmarked
  · rfl

theorem HexMarked.of_append {text after : List Char} (separated : Separated after)
    (marked : HexMarked (text ++ after)) : HexMarked text := by
  have first := separated.not_alphanum
  obtain ⟨rest, equal⟩ := marked
  match text with
  | [] =>
      rw [List.nil_append] at equal
      rcases equal with equal | equal
      · simp [equal] at first
      · simp [equal] at first
  | [zero] =>
      simp only [List.cons_append, List.nil_append, List.cons.injEq] at equal
      rcases equal with ⟨_, equal⟩ | ⟨_, equal⟩
      · simp [equal] at first
      · simp [equal] at first
  | zero :: mark :: more =>
      simp only [List.cons_append, List.cons.injEq] at equal
      rcases equal with ⟨rfl, rfl, _⟩ | ⟨rfl, rfl, _⟩
      · exact ⟨more, .inl rfl⟩
      · exact ⟨more, .inr rfl⟩

theorem readDecimal_append {after : List Char} (separated : Separated after) (text : List Char) :
    readDecimal (text ++ after) = ((readDecimal text).1, (readDecimal text).2 ++ after) := by
  unfold readDecimal
  rw [takeWhile_append_stop separated.not_digit, dropWhile_append_stop separated.not_digit]
  cases text.dropWhile Char.isDigit with
  | nil =>
      split
      · rename_i rest equal
        exact absurd equal (separated.not_point rest)
      · rfl
  | cons character rest =>
      by_cases point : character = '.'
      · subst point
        simp [takeWhile_append_stop separated.not_digit,
          dropWhile_append_stop separated.not_digit]
      · simp [point]

theorem read_append {after : List Char} (separated : Separated after) (text : List Char) :
    read (text ++ after) = ((read text).1, (read text).2 ++ after) := by
  by_cases marked : HexMarked text
  · obtain ⟨rest, rfl | rfl⟩ := marked
    · simp [read, takeWhile_append_stop separated.not_hexDigit,
        dropWhile_append_stop separated.not_hexDigit]
    · simp [read, takeWhile_append_stop separated.not_hexDigit,
        dropWhile_append_stop separated.not_hexDigit]
  · have unmarked : ¬ HexMarked (text ++ after) := fun appended =>
      marked (appended.of_append separated)
    rw [read_eq_readDecimal marked, read_eq_readDecimal unmarked, readDecimal_append separated]

end Numeral.Magnitude

theorem Numeral.read_append {after : List Char} (separated : Separated after) (character : Char)
    (rest : List Char) :
    read (character :: rest ++ after) =
      ((read (character :: rest)).1, (read (character :: rest)).2 ++ after) := by
  by_cases minus : character = '-'
  · subst minus
    simp only [List.cons_append, read, Magnitude.read_append separated]
  · have unsigned : ∀ text : List Char, read (character :: text) =
        (⟨false, (Magnitude.read (character :: text)).1⟩,
          (Magnitude.read (character :: text)).2) := by
      intro text
      simp [read, minus]
    rw [List.cons_append, unsigned, unsigned, ← List.cons_append,
      Magnitude.read_append separated]

theorem Identifier.read_append {after : List Char} (separated : Separated after)
    (text : List Char) : read (text ++ after) = ((read text).1, (read text).2 ++ after) := by
  unfold read
  rw [takeWhile_append_stop separated.not_alphanum, dropWhile_append_stop separated.not_alphanum]

/-! ### Places and steps -/

/-- The same place when more text follows. -/
def Cursor.append (cursor : Cursor) (after : List Char) : Cursor :=
  ⟨cursor.rest ++ after, cursor.line⟩

def Step.append (step : Step) (after : List Char) : Step :=
  match step with
  | .token found place => .token found (place.append after)
  | .fault found place => .fault found (place.append after)
  | .finished place => .finished (place.append after)

namespace Cursor

theorem classify_append (kind : Option TokenKind) (lexeme : List Char)
    (cause : String → LexicalFault.Cause) (line : Nat) (rest after : List Char) :
    classify kind lexeme cause line (rest ++ after) =
      (classify kind lexeme cause line rest).append after := by
  cases kind <;> rfl

/-- The token at a place is the same with and without a separator behind the text. -/
theorem tokenHere_append {after : List Char} (separated : Separated after) (character : Char)
    (rest : List Char) (line : Nat) :
    tokenHere (character :: rest ++ after) line =
      (tokenHere (character :: rest) line).append after := by
  simp only [List.cons_append, tokenHere]
  split
  · rfl
  · split
    · rw [← List.cons_append, Numeral.read_append separated, classify_append]
    · split
      · rw [← List.cons_append, Identifier.read_append separated, classify_append]
      · rfl

end Cursor

end RiscAssembler
