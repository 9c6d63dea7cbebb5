import RiscAssembler.Token.Scan

/-!
Contract: what one step through a program text reads.

Owns:
- the characters that numbers and words are made of;
- the step at a number and the step at a word;
- the text that has been read when a fault is reported;
- for every step, the text that it takes off and where it leaves the place;
- from steps to scans: induction along a scan, what all steps find, and texts whose steps are
  matched one by one.

Main statements: `Cursor.tokenHere_reads` and `Cursor.scan_induction`. Later modules take steps and
scans apart through these alone.
-/

namespace RiscAssembler

theorem of_mem_takeWhile {property : Char → Bool} {text : List Char} {character : Char}
    (member : character ∈ text.takeWhile property) : property character := by
  have all := List.all_takeWhile (p := property) (l := text)
  exact List.all_eq_true.mp all character member

theorem isHexDigit_of_isDigit (character : Char) (digit : character.isDigit) :
    Text.isHexDigit character := by
  simp [Text.isHexDigit, digit]

theorem isAlphanum_of_isDigit (character : Char) (digit : character.isDigit) :
    character.isAlphanum := by
  simp [Char.isAlphanum, digit]

theorem isAlphanum_of_isHexDigit {character : Char} (hexDigit : Text.isHexDigit character) :
    character.isAlphanum := by
  change (character.isUpper || character.isLower || character.isDigit) = true
  simp only [Text.isHexDigit, Bool.or_eq_true, Bool.and_eq_true, decide_eq_true_eq, Char.le_def,
    UInt32.le_iff_toNat_le] at hexDigit ⊢
  rcases hexDigit with (digit | lower) | upper
  · exact .inr digit
  · have isLower : character.isLower = true := by
      apply Bool.and_eq_true_iff.mpr
      exact ⟨decide_eq_true lower.1, decide_eq_true (Nat.le_trans lower.2 (by decide))⟩
    exact .inl (.inr isLower)
  · have isUpper : character.isUpper = true := by
      apply decide_eq_true
      exact ⟨upper.1, Nat.le_trans upper.2 (by decide)⟩
    exact .inl (.inl isUpper)

/-- What is taken off the front of a text starts where the text starts. -/
theorem head?_piece {piece after rest : List Char} {character : Char}
    (whole : piece ++ after = character :: rest)
    (shorter : after.length < (character :: rest).length) : piece.head? = some character := by
  cases piece with
  | nil =>
      rw [List.nil_append] at whole
      rw [whole] at shorter
      exact absurd shorter (Nat.lt_irrefl _)
  | cons first more =>
      obtain ⟨rfl, _⟩ := List.cons.inj whole
      rfl

/-! ### The characters of numbers and words -/

/-- Whether a character can stand in a number. -/
def Numeral.isMember (character : Char) : Bool :=
  character.isAlphanum || character = '.' || character = '-'

namespace Numeral

theorem isMember_of_isDigit {character : Char} (digit : character.isDigit) :
    isMember character := by
  simp [isMember, isAlphanum_of_isDigit character digit]

theorem isMember_of_isHexDigit {character : Char} (hexDigit : Text.isHexDigit character) :
    isMember character := by
  simp [isMember, isAlphanum_of_isHexDigit hexDigit]

theorem Magnitude.isMember_of_mem_readDecimal {text : List Char} {character : Char}
    (member : character ∈ (readDecimal text).1.spelling) : isMember character := by
  have digits : ∀ rest : List Char, character ∈ rest.takeWhile Char.isDigit →
      isMember character := fun rest taken => isMember_of_isDigit (of_mem_takeWhile taken)
  unfold readDecimal at member
  split at member
  · simp only [spelling, List.mem_append, List.mem_cons] at member
    rcases member with whole | rfl | fraction
    · exact digits _ whole
    · rfl
    · exact digits _ fraction
  · exact digits _ member

theorem Magnitude.isMember_of_mem_read {text : List Char} {character : Char}
    (member : character ∈ (read text).1.spelling) : isMember character := by
  unfold read at member
  split at member
  · simp only [spelling, List.mem_cons, Bool.false_eq_true, if_false] at member
    rcases member with rfl | rfl | digit
    · rfl
    · rfl
    · exact isMember_of_isHexDigit (of_mem_takeWhile digit)
  · simp only [spelling, List.mem_cons, if_true] at member
    rcases member with rfl | rfl | digit
    · rfl
    · rfl
    · exact isMember_of_isHexDigit (of_mem_takeWhile digit)
  · exact isMember_of_mem_readDecimal member

theorem isMember_of_mem_read {text : List Char} {character : Char}
    (member : character ∈ (read text).1.spelling) : isMember character := by
  unfold read at member
  split at member
  · simp only [spelling, if_true, List.mem_cons] at member
    rcases member with rfl | inMagnitude
    · rfl
    · exact Magnitude.isMember_of_mem_read inMagnitude
  · simp only [spelling, Bool.false_eq_true, if_false] at member
    exact Magnitude.isMember_of_mem_read member

theorem head?_spelling_read {character : Char} (starts : startsWith character)
    (rest : List Char) : (read (character :: rest)).1.spelling.head? = some character :=
  head?_piece (spelling_append_read _) (length_read_lt starts)

end Numeral

theorem Identifier.head?_read {character : Char} (letter : character.isAlpha)
    (rest : List Char) : (read (character :: rest)).1.head? = some character := by
  have alphanumeric : character.isAlphanum := by simp [Char.isAlphanum, letter]
  exact head?_piece (append_read _) (length_read_lt alphanumeric)

/-! ### The step at a number and at a word -/

namespace Cursor

theorem punctuation?_eq_none {character : Char}
    (other : Numeral.startsWith character ∨ character.isAlpha) : punctuation? character = none := by
  unfold punctuation?
  split
  · exact absurd other (by decide)
  · exact absurd other (by decide)
  · exact absurd other (by decide)
  · rfl

theorem isDigit_eq_false_of_isAlpha {character : Char} (letter : character.isAlpha) :
    character.isDigit = false := by
  rw [Bool.eq_false_iff]
  intro digit
  change (decide (65 ≤ character.val ∧ character.val ≤ 90) ||
    (decide (97 ≤ character.val) && decide (character.val ≤ 122))) = true at letter
  change (decide (48 ≤ character.val) && decide (character.val ≤ 57)) = true at digit
  simp only [Bool.or_eq_true, Bool.and_eq_true, decide_eq_true_eq, UInt32.le_iff_toNat_le,
    UInt32.reduceToNat] at letter digit
  omega

theorem startsWith_eq_false_of_isAlpha {character : Char} (letter : character.isAlpha) :
    Numeral.startsWith character = false := by
  have noMinus : character ≠ '-' := by
    rintro rfl
    exact absurd letter (by decide)
  simp [Numeral.startsWith, isDigit_eq_false_of_isAlpha letter, noMinus]

theorem tokenHere_number {character : Char} (starts : Numeral.startsWith character)
    (rest : List Char) (line : Nat) :
    tokenHere (character :: rest) line =
      classify (Numeral.read (character :: rest)).1.kind?
        (Numeral.read (character :: rest)).1.spelling .invalidNumber line
        (Numeral.read (character :: rest)).2 := by
  simp only [tokenHere, punctuation?_eq_none (.inl starts), starts, if_true]

theorem tokenHere_word {character : Char} (letter : character.isAlpha) (rest : List Char)
    (line : Nat) :
    tokenHere (character :: rest) line =
      classify (Identifier.kind? (Identifier.read (character :: rest)).1)
        (Identifier.read (character :: rest)).1 .unrecognizedWord line
        (Identifier.read (character :: rest)).2 := by
  simp only [tokenHere, punctuation?_eq_none (.inr letter),
    startsWith_eq_false_of_isAlpha letter, letter, Bool.false_eq_true, if_false, if_true]

theorem classify_eq_token {kind : Option TokenKind} {lexeme after : List Char}
    {cause : String → LexicalFault.Cause} {line : Nat} {token : Token} {place : Cursor}
    (found : classify kind lexeme cause line after = .token token place) :
    kind = some token.kind ∧ token.lexeme.toList = lexeme ∧ place.rest = after := by
  cases kind with
  | none => cases found
  | some kind =>
      cases found
      exact ⟨rfl, String.toList_ofList, rfl⟩

theorem classify_eq_token_iff {known : Option TokenKind} {lexeme after : List Char}
    {cause : String → LexicalFault.Cause} {line : Nat} {kind : TokenKind} :
    classify known lexeme cause line after =
        .token ⟨kind, String.ofList lexeme, line⟩ ⟨after, line⟩ ↔
      known = some kind := by
  cases known <;> simp [classify]

theorem classify_of_forall_ne {known : Option TokenKind} (unknown : ∀ kind, known ≠ some kind)
    (lexeme : List Char) (cause : String → LexicalFault.Cause) (line : Nat) (after : List Char) :
    classify known lexeme cause line after =
      .fault ⟨cause (String.ofList lexeme), line⟩ ⟨after, line⟩ := by
  rw [Option.eq_none_iff_forall_ne_some.mpr unknown]
  rfl

/-- What a token is that stands at the front of a text, with the text behind it. -/
inductive TokenAtFront (character : Char) (rest : List Char) (token : Token) (after : List Char) :
    Prop
  | punctuation (known : punctuation? character = some token.kind)
      (lexeme : token.lexeme.toList = [character]) (left : after = rest)
  | number (starts : Numeral.startsWith character)
      (known : (Numeral.read (character :: rest)).1.kind? = some token.kind)
      (lexeme : token.lexeme.toList = (Numeral.read (character :: rest)).1.spelling)
      (left : after = (Numeral.read (character :: rest)).2)
  | word (letter : character.isAlpha)
      (known : Identifier.kind? (Identifier.read (character :: rest)).1 = some token.kind)
      (lexeme : token.lexeme.toList = (Identifier.read (character :: rest)).1)
      (left : after = (Identifier.read (character :: rest)).2)

theorem tokenAtFront {character : Char} {rest : List Char} {line : Nat} {token : Token}
    {after : Cursor} (found : tokenHere (character :: rest) line = .token token after) :
    TokenAtFront character rest token after.rest := by
  simp only [tokenHere] at found
  split at found
  · rename_i punctuation
    cases found
    exact .punctuation punctuation (String.toList_singleton ..) rfl
  · split at found
    · rename_i starts
      obtain ⟨known, lexeme, left⟩ := classify_eq_token found
      exact .number starts known lexeme left
    · split at found
      · rename_i letter
        obtain ⟨known, lexeme, left⟩ := classify_eq_token found
        exact .word letter known lexeme left
      · cases found

end Cursor

/-! ### The text that a step takes off -/

/-- The text that has been read when a fault is reported. -/
def LexicalFault.Cause.consumed : LexicalFault.Cause → List Char
  | unexpectedCharacter _ => []
  | invalidNumber spelling => spelling.toList
  | unrecognizedWord spelling => spelling.toList

theorem LexicalFault.Cause.consumed_invalidNumber (spelling : String) :
    (invalidNumber spelling).consumed = spelling.toList := rfl

theorem LexicalFault.Cause.consumed_unrecognizedWord (spelling : String) :
    (unrecognizedWord spelling).consumed = spelling.toList := rfl

/-- What a step from the start of a text takes off it, and where it leaves the place. A step never
goes past the end of its line. -/
def Step.Reads (text : List Char) (line : Nat) : Step → Prop
  | .token found after =>
      found.line = line ∧ after.line = line ∧ found.lexeme.toList ++ after.rest = text ∧
        '\n' ∉ found.lexeme.toList
  | .fault found after =>
      found.line = line ∧ after.line = line ∧ found.cause.consumed ++ after.rest = text ∧
        '\n' ∉ found.cause.consumed
  | .finished after => after = ⟨[], line⟩ ∧ text = []

namespace Cursor

private theorem classify_reads (kind : Option TokenKind) {lexeme : List Char}
    {cause : String → LexicalFault.Cause} (consumed : ∀ text, (cause text).consumed = text.toList)
    (line : Nat) (after : List Char) (breaks : '\n' ∉ lexeme) :
    (classify kind lexeme cause line after).Reads (lexeme ++ after) line := by
  cases kind with
  | some kind => simpa [classify, Step.Reads] using breaks
  | none => simpa [classify, Step.Reads, consumed] using breaks

theorem tokenHere_reads (text : List Char) (line : Nat) :
    (tokenHere text line).Reads text line := by
  cases text with
  | nil => exact ⟨rfl, rfl⟩
  | cons character rest =>
      simp only [tokenHere]
      split
      · rename_i kind punctuation
        have breaks : character ≠ '\n' := by
          rintro rfl
          cases punctuation
        simpa [Step.Reads] using breaks.symm
      · split
        · have spelled := Numeral.spelling_append_read (character :: rest)
          have breaks : '\n' ∉ (Numeral.read (character :: rest)).1.spelling := by
            intro member
            cases Numeral.isMember_of_mem_read member
          have reads := classify_reads (Numeral.read (character :: rest)).1.kind?
            LexicalFault.Cause.consumed_invalidNumber line (Numeral.read (character :: rest)).2
            breaks
          rwa [spelled] at reads
        · split
          · have spelled := Identifier.append_read (character :: rest)
            have breaks : '\n' ∉ (Identifier.read (character :: rest)).1 := by
              intro member
              cases of_mem_takeWhile member
            have reads := classify_reads (Identifier.kind? (Identifier.read (character :: rest)).1)
              LexicalFault.Cause.consumed_unrecognizedWord line
              (Identifier.read (character :: rest)).2 breaks
            rwa [spelled] at reads
          · simp [Step.Reads, LexicalFault.Cause.consumed]

theorem next_reads (cursor : Cursor) :
    cursor.next.Reads cursor.skipTrivia.rest cursor.skipTrivia.line :=
  tokenHere_reads cursor.skipTrivia.rest cursor.skipTrivia.line

end Cursor

/-! ### From steps to scans -/

def ScanItem.map (token : Token → Token) (fault : LexicalFault → LexicalFault) :
    ScanItem → ScanItem
  | .token found => .token (token found)
  | .fault found => .fault (fault found)

def Step.map (token : Token → Token) (fault : LexicalFault → LexicalFault)
    (place : Cursor → Cursor) : Step → Step
  | .token found after => .token (token found) (place after)
  | .fault found after => .fault (fault found) (place after)
  | .finished after => .finished (place after)

namespace Cursor

@[elab_as_elim]
theorem scan_induction {motive : Cursor → Prop}
    (token : ∀ (cursor : Cursor) (found : Token) (after : Cursor),
      cursor.next = .token found after → motive after → motive cursor)
    (fault : ∀ (cursor : Cursor) (found : LexicalFault) (after : Cursor),
      cursor.next = .fault found after → motive after.nextLine → motive cursor)
    (finished : ∀ (cursor after : Cursor), cursor.next = .finished after → motive cursor)
    (cursor : Cursor) : motive cursor := by
  match step : cursor.next with
  | .token found after =>
      exact token cursor found after step (scan_induction token fault finished after)
  | .fault found after =>
      exact fault cursor found after step (scan_induction token fault finished after.nextLine)
  | .finished after => exact finished cursor after step
termination_by cursor.rest.length
decreasing_by
  · exact length_lt_of_next_eq_token step
  · exact length_lt_of_next_eq_fault step

/-- What holds of the findings of single steps holds of all that a scan finds. -/
theorem forall_mem_scan {property : ScanItem → Prop}
    (token : ∀ {cursor found after}, next cursor = .token found after → property (.token found))
    (fault : ∀ {cursor found after}, next cursor = .fault found after → property (.fault found))
    (cursor : Cursor) : ∀ item ∈ cursor.scan, property item := by
  induction cursor using Cursor.scan_induction with
  | token cursor found after step inductionHypothesis =>
      rw [scan_eq, step]
      exact List.forall_mem_cons.mpr ⟨token step, inductionHypothesis⟩
  | fault cursor found after step inductionHypothesis =>
      rw [scan_eq, step]
      exact List.forall_mem_cons.mpr ⟨fault step, inductionHypothesis⟩
  | finished cursor after step =>
      rw [scan_eq, step]
      exact List.forall_mem_nil _

/-- A change of places that changes what each step finds, and that recovery does not notice, changes
what a whole scan finds. -/
theorem scan_map {token : Token → Token} {fault : LexicalFault → LexicalFault}
    {place : Cursor → Cursor}
    (changedStep : ∀ cursor, (place cursor).next = cursor.next.map token fault place)
    (recovery : ∀ cursor, (place cursor).nextLine = place cursor.nextLine) (cursor : Cursor) :
    (place cursor).scan = cursor.scan.map (ScanItem.map token fault) := by
  induction cursor using Cursor.scan_induction with
  | token cursor found after step inductionHypothesis =>
      rw [scan_eq, scan_eq cursor, changedStep, step]
      simp [Step.map, ScanItem.map, inductionHypothesis]
  | fault cursor found after step inductionHypothesis =>
      rw [scan_eq, scan_eq cursor, changedStep, step]
      simp [Step.map, ScanItem.map, recovery, inductionHypothesis]
  | finished cursor after step =>
      rw [scan_eq, scan_eq cursor, changedStep, step]
      rfl

end Cursor

end RiscAssembler
