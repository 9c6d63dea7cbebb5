import Mathlib.Algebra.Group.Int.Defs
import RiscAssembler.Proofs.Token.Separation

/-!
Contract: numbers are read as they are spelled, and as far as they reach.

Owns:
- the magnitudes and numerals whose digits are digits;
- the texts that do not go on with a number in front of them;
- the longest number at the front of a text, which is the number that is read from it;
- reading the spelling of a numeral alone, which gives the numeral and leaves nothing.

Does not own: what a number stands for.

Main statements: `Numeral.read_eq_iff` and `Numeral.read_spelling`.
-/

namespace RiscAssembler.Numeral

theorem inRange_iff (value : Int) : inRange value ↔ -2 ^ 63 ≤ value ∧ value < 2 ^ 63 := by
  simp only [inRange, Bool.and_eq_true, decide_eq_true_eq, Int64.toInt_minValue,
    Int64.toInt_maxValue]
  omega

namespace Magnitude

/-- Every digit is a digit of its base. A magnitude built by hand may hold other characters. -/
def WellSpelled : Magnitude → Prop
  | hexadecimal _ digits => ∀ digit ∈ digits, Text.isHexDigit digit
  | decimal whole none => ∀ digit ∈ whole, digit.isDigit
  | decimal whole (some fraction) =>
      (∀ digit ∈ whole, digit.isDigit) ∧ ∀ digit ∈ fraction, digit.isDigit

/-- The text behind a magnitude does not go on with it: with no digit of its base, and behind a
decimal without a point with no point either. Nor do the two together start with the mark of a
hexadecimal number. -/
def EndsBefore : Magnitude → List Char → Prop
  | hexadecimal _ _, after => ∀ character ∈ after.head?, Text.isHexDigit character = false
  | decimal whole none, after =>
      (∀ character ∈ after.head?, character.isDigit = false ∧ character ≠ '.') ∧
        ¬ HexMarked (whole ++ after)
  | decimal _ (some _), after => ∀ character ∈ after.head?, character.isDigit = false

/-! ### Reading a spelling -/

theorem readDecimal_whole {whole after : List Char} (digits : ∀ digit ∈ whole, digit.isDigit)
    (ends : ∀ character ∈ after.head?, character.isDigit = false ∧ character ≠ '.') :
    readDecimal (whole ++ after) = (decimal whole none, after) := by
  have stops : ∀ character ∈ after.head?, character.isDigit = false :=
    fun character first => (ends character first).1
  unfold readDecimal
  rw [takeWhile_run stops digits, dropWhile_run stops digits]
  split
  · exact absurd rfl (ends '.' rfl).2
  · rfl

theorem readDecimal_fraction {whole fraction after : List Char}
    (wholeDigits : ∀ digit ∈ whole, digit.isDigit)
    (fractionDigits : ∀ digit ∈ fraction, digit.isDigit)
    (ends : ∀ character ∈ after.head?, character.isDigit = false) :
    readDecimal (whole ++ '.' :: (fraction ++ after)) =
      (decimal whole (some fraction), after) := by
  have stops : ∀ character ∈ ('.' :: (fraction ++ after)).head?, character.isDigit = false := by
    simp
  unfold readDecimal
  rw [takeWhile_run stops wholeDigits, dropWhile_run stops wholeDigits]
  simp only
  rw [takeWhile_run ends fractionDigits, dropWhile_run ends fractionDigits]

/-- A hexadecimal mark is a letter, and there is none in front of a point. -/
theorem not_hexMarked_point {whole : List Char} (digits : ∀ digit ∈ whole, digit.isDigit)
    (rest : List Char) : ¬ HexMarked (whole ++ '.' :: rest) := by
  rintro ⟨more, marked⟩
  match whole with
  | [] => simp at marked
  | [_] => simp at marked
  | _ :: mark :: _ =>
      have isDigit := digits mark (by simp)
      simp only [List.cons_append, List.cons.injEq] at marked
      rcases marked with ⟨_, rfl, _⟩ | ⟨_, rfl, _⟩
      all_goals exact absurd isDigit (by decide)

theorem not_hexMarked_whole {whole : List Char} (digits : ∀ digit ∈ whole, digit.isDigit) :
    ¬ HexMarked whole := by
  rintro ⟨rest, rfl | rfl⟩
  · exact absurd (digits 'x' (by simp)) (by decide)
  · exact absurd (digits 'X' (by simp)) (by decide)

/-- What is spelled is read, whatever follows, unless that goes on with it. -/
theorem read_spelling_append {magnitude : Magnitude} (well : magnitude.WellSpelled)
    {after : List Char} (ends : magnitude.EndsBefore after) :
    read (magnitude.spelling ++ after) = (magnitude, after) := by
  match magnitude with
  | hexadecimal capitalMark digits =>
      have taken := takeWhile_run ends well
      have dropped := dropWhile_run ends well
      cases capitalMark with
      | false => simp [spelling, read, taken, dropped]
      | true => simp [spelling, read, taken, dropped]
  | decimal whole none =>
      rw [spelling, read_eq_readDecimal ends.2]
      exact readDecimal_whole well ends.1
  | decimal whole (some fraction) =>
      have unmarked := not_hexMarked_point well.1 (fraction ++ after)
      rw [spelling, List.append_assoc, List.cons_append, read_eq_readDecimal unmarked]
      exact readDecimal_fraction well.1 well.2 ends

theorem endsBefore_nil {magnitude : Magnitude} (well : magnitude.WellSpelled) :
    magnitude.EndsBefore [] := by
  match magnitude with
  | hexadecimal _ _ | decimal _ (some _) => simp [EndsBefore]
  | decimal whole none =>
      refine ⟨by simp, ?_⟩
      rw [List.append_nil]
      exact not_hexMarked_whole well

/-! ### What is read -/

theorem wellSpelled_readDecimal (text : List Char) : (readDecimal text).1.WellSpelled := by
  unfold readDecimal
  split
  · exact ⟨fun _ => of_mem_takeWhile, fun _ => of_mem_takeWhile⟩
  · exact fun _ => of_mem_takeWhile

theorem wellSpelled_read (text : List Char) : (read text).1.WellSpelled := by
  unfold read
  split
  · exact fun _ => of_mem_takeWhile
  · exact fun _ => of_mem_takeWhile
  · exact wellSpelled_readDecimal _

theorem endsBefore_readDecimal {text : List Char} (unmarked : ¬ HexMarked text) :
    (readDecimal text).1.EndsBefore (readDecimal text).2 := by
  have stops : ∀ character ∈ (text.dropWhile Char.isDigit).head?, character.isDigit = false :=
    head?_dropWhile_eq_false
  have whole := List.takeWhile_append_dropWhile (p := Char.isDigit) (l := text)
  unfold readDecimal
  generalize text.dropWhile Char.isDigit = rest at stops whole ⊢
  split
  · exact head?_dropWhile_eq_false
  · rename_i noPoint
    refine ⟨fun character first => ⟨stops character first, ?_⟩, ?_⟩
    · rintro rfl
      obtain ⟨more, rfl⟩ := List.head?_eq_some_iff.mp first
      exact noPoint more rfl
    · rw [whole]
      exact unmarked

theorem endsBefore_read (text : List Char) : (read text).1.EndsBefore (read text).2 := by
  by_cases marked : HexMarked text
  · obtain ⟨rest, rfl | rfl⟩ := marked
    · exact head?_dropWhile_eq_false
    · exact head?_dropWhile_eq_false
  · rw [read_eq_readDecimal marked]
    exact endsBefore_readDecimal marked

/-- Only the sign of a number is a minus sign. -/
theorem spelling_ne_minus {magnitude : Magnitude} (well : magnitude.WellSpelled)
    (rest : List Char) : magnitude.spelling ≠ '-' :: rest := by
  intro equal
  match magnitude with
  | hexadecimal capitalMark digits => cases equal
  | decimal whole none =>
      obtain rfl : whole = '-' :: rest := equal
      have digit := well '-' List.mem_cons_self
      exact absurd digit (by decide)
  | decimal [] (some fraction) => cases equal
  | decimal (first :: whole) (some fraction) =>
      cases equal
      have digit := well.1 '-' List.mem_cons_self
      exact absurd digit (by decide)

end Magnitude

def WellSpelled (numeral : Numeral) : Prop :=
  numeral.magnitude.WellSpelled

theorem wellSpelled_read (text : List Char) : (read text).1.WellSpelled := by
  unfold read
  split
  · exact Magnitude.wellSpelled_read _
  · exact Magnitude.wellSpelled_read _

/-! ### The longest number -/

/-- A number is the longest one at the front of a text: the text starts with its spelling, a minus
sign in front belongs to it, and what follows does not go on with it. -/
structure IsLongest (numeral : Numeral) (text after : List Char) : Prop where
  split : numeral.spelling ++ after = text
  signed : text.head? = some '-' → numeral.negative
  wellSpelled : numeral.WellSpelled
  ends : numeral.magnitude.EndsBefore after

theorem read_negative (text : List Char) :
    read ('-' :: text) = (⟨true, (Magnitude.read text).1⟩, (Magnitude.read text).2) := rfl

theorem read_unsigned {text : List Char} (unsigned : text.head? ≠ some '-') :
    read text = (⟨false, (Magnitude.read text).1⟩, (Magnitude.read text).2) := by
  unfold read
  split
  · exact absurd rfl unsigned
  · rfl

theorem IsLongest.read_eq {numeral : Numeral} {text after : List Char}
    (longest : numeral.IsLongest text after) : read text = (numeral, after) := by
  obtain ⟨rfl, signed, well, ends⟩ := longest
  have whole := Magnitude.read_spelling_append well ends
  obtain ⟨negative, magnitude⟩ := numeral
  cases negative with
  | true =>
      show read ('-' :: (magnitude.spelling ++ after)) = _
      rw [read_negative, whole]
  | false =>
      rw [read_unsigned fun minus => nomatch signed minus]
      show (Numeral.mk false (Magnitude.read (magnitude.spelling ++ after)).1,
        (Magnitude.read (magnitude.spelling ++ after)).2) = _
      rw [whole]

theorem isLongest_read (text : List Char) : (read text).1.IsLongest text (read text).2 where
  split := spelling_append_read text
  signed := by
    intro minus
    obtain ⟨rest, rfl⟩ := List.head?_eq_some_iff.mp minus
    rfl
  wellSpelled := wellSpelled_read text
  ends := by
    unfold read
    split
    · exact Magnitude.endsBefore_read _
    · exact Magnitude.endsBefore_read _

/-- The number that is read from a text is the longest one at its front, and the only such. -/
theorem read_eq_iff {numeral : Numeral} {text after : List Char} :
    read text = (numeral, after) ↔ numeral.IsLongest text after := by
  constructor
  · intro equal
    have longest := isLongest_read text
    rwa [equal] at longest
  · exact IsLongest.read_eq

theorem read_spelling {numeral : Numeral} (well : numeral.WellSpelled) :
    read numeral.spelling = (numeral, []) := by
  apply IsLongest.read_eq
  refine ⟨List.append_nil _, ?_, well, Magnitude.endsBefore_nil well⟩
  intro minus
  obtain ⟨rest, equal⟩ := List.head?_eq_some_iff.mp minus
  obtain ⟨negative, magnitude⟩ := numeral
  cases negative with
  | true => rfl
  | false => exact absurd equal (Magnitude.spelling_ne_minus well rest)

end RiscAssembler.Numeral
