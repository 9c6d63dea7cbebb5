import RiscAssembler.Json.Quoted

/-!
Contract: a string between quotes is read back, whatever characters it holds.

Owns:
- the characters of an escape, which are read as the one character that they stand for;
- a whole string, up to the quote that closes it.

An escaped character is never a bare quote, so the first bare quote is the closing one.

Main statement: `unquote?_flatMap_escaped`.
-/

namespace RiscAssembler.Json

theorem hexValue?_hexDigit {value : Nat} (small : value < 16) :
    hexValue? (hexDigit value) = some value := by
  revert value
  decide

/-- A control character is read back from its two last hexadecimal digits. -/
theorem codePoint?_hexDigits {character : Char} (control : character.toNat < 0x20) :
    codePoint? '0' '0' (hexDigit (character.toNat / 16)) (hexDigit (character.toNat % 16)) =
      some character := by
  have zero : hexValue? '0' = some 0 := rfl
  have high : hexValue? (hexDigit (character.toNat / 16)) = some (character.toNat / 16) :=
    hexValue?_hexDigit (by omega)
  have low : hexValue? (hexDigit (character.toNat % 16)) = some (character.toNat % 16) :=
    hexValue?_hexDigit (by omega)
  have code : 4096 * 0 + 256 * 0 + 16 * (character.toNat / 16) + character.toNat % 16 =
      character.toNat := by omega
  have valid : character.toNat.isValidChar := character.valid
  simp only [codePoint?, zero, high, low, Option.bind_eq_bind, Option.bind_some, code,
    if_pos valid, Char.ofNat_toNat]

theorem unescape?_of_shortEscape? {character letter : Char}
    (short : shortEscape? character = some letter) :
    letter ≠ 'u' ∧ unescape? letter = some character := by
  unfold shortEscape? at short
  split at short
  case h_8 => cases short
  all_goals
    cases short
    exact ⟨by decide, rfl⟩

variable {rest text after : List Char}

/-- A character's escape is read as that character. -/
theorem unquote?_escaped_append (character : Char) (read : unquote? rest = some (text, after)) :
    unquote? (escaped character ++ rest) = some (character :: text, after) := by
  unfold escaped
  split
  case h_1 letter short =>
    obtain ⟨notCode, unescaped⟩ := unescape?_of_shortEscape? short
    rw [List.cons_append, List.cons_append, List.nil_append, unquote?]
    · simp only [unescaped, read, Option.bind_eq_bind, Option.bind_some]
    · intro _ _ _ _ _ isCode
      exact absurd isCode notCode
  case h_2 notShort =>
    split
    case isTrue control =>
      have code := codePoint?_hexDigits control
      simp only [List.cons_append, List.nil_append, unquote?, code, read, Option.bind_eq_bind,
        Option.bind_some]
    case isFalse notControl =>
      have notQuote : character ≠ '"' := by
        rintro rfl
        cases notShort
      have notBackslash : character ≠ '\\' := by
        rintro rfl
        cases notShort
      rw [List.cons_append, List.nil_append, unquote?]
      · rw [if_neg (not_or_intro notControl notBackslash), read]
        rfl
      · exact notQuote
      · intro _ _ _ _ _ isBackslash
        exact absurd isBackslash notBackslash
      · intro _ _ isBackslash
        exact absurd isBackslash notBackslash

/-- A string is read back from behind its opening quote, up to the quote that closes it. -/
theorem unquote?_flatMap_escaped (text after : List Char) :
    unquote? (text.flatMap escaped ++ '"' :: after) = some (text, after) := by
  induction text with
  | nil => rw [List.flatMap_nil, List.nil_append, unquote?]
  | cons character text inductionHypothesis =>
      rw [List.flatMap_cons, List.append_assoc]
      exact unquote?_escaped_append character inductionHypothesis

end RiscAssembler.Json
