import RiscAssembler.Text

/-!
Contract: ASCII letters in upper case.

Owns:
- what a character and its upper-case form have in common: every view of characters that gives the
  same for `a` to `z` as for `A` to `Z`;
- such views: the classes of characters, and the value of a digit;
- runs of a class in a text, and the value of its digits;
- whole strings, put together and in upper case.

All other characters are their own upper-case forms, whatever their script.
-/

namespace RiscAssembler.Text

/-! ### Characters -/

theorem isLower_iff (character : Char) :
    character.isLower ↔ 'a'.val ≤ character.val ∧ character.val ≤ 'z'.val := by
  show (decide ('a'.val ≤ character.val) && decide (character.val ≤ 'z'.val)) = true ↔ _
  rw [Bool.and_eq_true, decide_eq_true_eq, decide_eq_true_eq]

theorem toUpper_of_not_isLower {character : Char} (other : character.isLower = false) :
    character.toUpper = character := by
  refine dif_neg fun bounds => ?_
  rw [(isLower_iff character).mpr bounds] at other
  cases other

/-- A lower-case letter is one of twenty-six characters. -/
theorem forall_of_isLower {property : Char → Prop}
    (letters : ∀ index < 26, property (Char.ofNat ('a'.toNat + index))) {character : Char}
    (lower : character.isLower) : property character := by
  obtain ⟨first, last⟩ := (isLower_iff character).mp lower
  have first : 'a'.toNat ≤ character.toNat := UInt32.le_iff_toNat_le.mp first
  have last : character.toNat ≤ 'z'.toNat := UInt32.le_iff_toNat_le.mp last
  have width : 'z'.toNat = 'a'.toNat + 25 := rfl
  have here := letters (character.toNat - 'a'.toNat) (by omega)
  rwa [Nat.add_sub_cancel' first, Char.ofNat_toNat] at here

/-- What is the same for all pairs of a small and a capital letter is the same for a character and
its upper-case form. -/
theorem view_toUpper {View : Type} (view : Char → View)
    (letters : ∀ index < 26, view (Char.ofNat ('a'.toNat + index)).toUpper =
      view (Char.ofNat ('a'.toNat + index))) (character : Char) :
    view character.toUpper = view character := by
  cases lower : character.isLower with
  | true =>
      exact @forall_of_isLower (fun letter => view letter.toUpper = view letter) letters character
        lower
  | false => rw [toUpper_of_not_isLower lower]

theorem toUpper_toUpper (character : Char) : character.toUpper.toUpper = character.toUpper :=
  view_toUpper Char.toUpper (by decide) character

theorem isDigit_toUpper (character : Char) : character.toUpper.isDigit = character.isDigit :=
  view_toUpper Char.isDigit (by decide) character

theorem isAlpha_toUpper (character : Char) : character.toUpper.isAlpha = character.isAlpha :=
  view_toUpper Char.isAlpha (by decide) character

theorem isAlphanum_toUpper (character : Char) :
    character.toUpper.isAlphanum = character.isAlphanum :=
  view_toUpper Char.isAlphanum (by decide) character

theorem isHexDigit_toUpper (character : Char) :
    isHexDigit character.toUpper = isHexDigit character :=
  view_toUpper isHexDigit (by decide) character

theorem digitValue_toUpper (character : Char) :
    digitValue character.toUpper = digitValue character :=
  view_toUpper digitValue (by decide) character

/-- Only a letter is another character in upper case. -/
theorem toUpper_eq_iff {mark : Char} (noLetter : mark.isAlpha = false) (character : Char) :
    character.toUpper = mark ↔ character = mark := by
  cases lower : character.isLower with
  | false => rw [toUpper_of_not_isLower lower]
  | true =>
      have letter : character.isAlpha := by
        show (character.isUpper || character.isLower) = true
        rw [lower, Bool.or_true]
      have capital : character.toUpper.isAlpha := by rw [isAlpha_toUpper, letter]
      constructor
      · rintro rfl
        rw [capital] at noLetter
        cases noLetter
      · rintro rfl
        rw [letter] at noLetter
        cases noLetter

/-! ### Texts -/

section Runs

variable {property : Char → Bool}
  (invariant : ∀ character, property character.toUpper = property character)
include invariant

theorem takeWhile_toUpper (text : List Char) :
    (text.map Char.toUpper).takeWhile property = (text.takeWhile property).map Char.toUpper := by
  rw [List.takeWhile_map, show property ∘ Char.toUpper = property from funext invariant]

theorem dropWhile_toUpper (text : List Char) :
    (text.map Char.toUpper).dropWhile property = (text.dropWhile property).map Char.toUpper := by
  rw [List.dropWhile_map, show property ∘ Char.toUpper = property from funext invariant]

end Runs

theorem digitsValue_toUpper (base : Nat) (digits : List Char) :
    digitsValue base (digits.map Char.toUpper) = digitsValue base digits := by
  unfold digitsValue
  rw [List.foldl_map]
  simp only [digitValue_toUpper]

/-! ### Strings -/

theorem toList_toUpper (text : String) : text.toUpper.toList = text.toList.map Char.toUpper :=
  String.toList_map

theorem ofList_map_toUpper (text : List Char) :
    String.ofList (text.map Char.toUpper) = (String.ofList text).toUpper := by
  apply String.toList_inj.mp
  rw [toList_toUpper, String.toList_ofList, String.toList_ofList]

theorem toUpper_append (first second : String) :
    (first ++ second).toUpper = first.toUpper ++ second.toUpper := by
  apply String.toList_inj.mp
  simp only [toList_toUpper, String.toList_append, List.map_append]

theorem toUpper_toUpper_string (text : String) : text.toUpper.toUpper = text.toUpper := by
  apply String.toList_inj.mp
  simp only [toList_toUpper, List.map_map]
  exact List.map_congr_left fun character _ => toUpper_toUpper character

/-- A text that quotes another is the same up to letter case if it quotes it in upper case. -/
theorem toUpper_append_toUpper (before quoted : String) :
    (before ++ quoted.toUpper).toUpper = (before ++ quoted).toUpper := by
  rw [toUpper_append, toUpper_append, toUpper_toUpper_string]

theorem toUpper_append_congr {first second : String} (same : first.toUpper = second.toUpper)
    (after : String) : (first ++ after).toUpper = (second ++ after).toUpper := by
  rw [toUpper_append, toUpper_append, same]

theorem toUpper_empty : "".toUpper = "" :=
  String.toList_inj.mp (toList_toUpper "")

theorem toUpper_eq_empty_iff (text : String) : text.toUpper = "" ↔ text = "" := by
  rw [← String.toList_inj, ← String.toList_inj, toList_toUpper]
  exact List.map_eq_nil_iff

end RiscAssembler.Text
