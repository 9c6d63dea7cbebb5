import RiscAssembler.Proofs.Token.Spelling

/-!
Contract: the spelling of a token, taken out of its text, is read as the token again.

Owns:
- words as texts that are one token;
- for every token that a step finds, and so for every token of a text, its spelling as such a text;
- the spellings of a mnemonic.

A step takes the longest number or word off the text ahead. What it takes off stands alone in the
spelling, so nothing that follows could have changed what it is.

Main statement: `spells_of_mem_tokenize`.
-/

namespace RiscAssembler

theorem spells_punctuation {character : Char} {kind : TokenKind}
    (punctuation : Cursor.punctuation? character = some kind) : Spells [character] kind := by
  intro line
  simp only [Cursor.tokenHere, punctuation]
  rfl

/-- What is read to its end as a word is one token. -/
theorem spells_word {text : List Char} {kind : TokenKind} {character : Char}
    (head : text.head? = some character) (letter : character.isAlpha)
    (whole : Identifier.read text = (text, [])) (known : Identifier.kind? text = some kind) :
    Spells text kind := by
  obtain ⟨rest, rfl⟩ := List.head?_eq_some_iff.mp head
  intro line
  rw [Cursor.tokenHere_word letter, whole, known]
  rfl

theorem Identifier.read_read (text : List Char) :
    read (read text).1 = ((read text).1, []) := by
  have whole : ∀ character ∈ (read text).1, character.isAlphanum := fun _ => of_mem_takeWhile
  rw [read, List.takeWhile_eq_self_iff.mpr whole, List.dropWhile_eq_nil_iff.mpr whole]

/-- The spelling of the token at a place is the same token by itself. -/
theorem spells_of_tokenHere {text : List Char} {line : Nat} {token : Token} {after : Cursor}
    (found : Cursor.tokenHere text line = .token token after) :
    Spells token.lexeme.toList token.kind := by
  cases text with
  | nil => cases found
  | cons character rest =>
      cases Cursor.tokenAtFront found with
      | punctuation known lexeme _ =>
          rw [lexeme]
          exact spells_punctuation known
      | number starts known lexeme _ =>
          have whole := Numeral.read_spelling (Numeral.wellSpelled_read (character :: rest))
          rw [lexeme]
          refine spells_number ?_ whole known
          rw [Numeral.head?_spelling_read starts rest]
          exact starts
      | word letter known lexeme _ =>
          have head := Identifier.head?_read letter rest
          rw [lexeme]
          exact spells_word head letter (Identifier.read_read _) known

theorem Cursor.spells_of_mem_scan {cursor : Cursor} {token : Token}
    (member : ScanItem.token token ∈ cursor.scan) : Spells token.lexeme.toList token.kind := by
  have spelled : ∀ item ∈ cursor.scan, ∀ found, item = .token found →
      Spells found.lexeme.toList found.kind := by
    refine forall_mem_scan (fun step found same => ?_) (fun _ found same => ?_) cursor
    · cases same
      exact spells_of_tokenHere step
    · cases same
  exact spelled _ member token rfl

/-- Every token of a text is read off its own spelling, whatever stands around it in the text. -/
theorem spells_of_mem_tokenize {source : String} {token : Token}
    (member : token ∈ (tokenize source).value) : Spells token.lexeme.toList token.kind := by
  obtain ⟨item, found, isToken⟩ := List.mem_filterMap.mp member
  cases item with
  | token other =>
      cases isToken
      exact Cursor.spells_of_mem_scan found
  | fault other => cases isToken

/-! ### Mnemonics -/

theorem Numeral.kind?_ne_opcode (numeral : Numeral) (mnemonic : Mnemonic) :
    numeral.kind? ≠ some (.opcode mnemonic) := by
  unfold kind?
  split
  all_goals
    dsimp only
    split <;> simp

theorem Identifier.toUpper_eq_name {word : List Char} {mnemonic : Mnemonic}
    (known : kind? word = some (.opcode mnemonic)) :
    word.map Char.toUpper = mnemonic.name.toList := by
  unfold kind? at known
  dsimp only at known
  split at known
  · rename_i other found
    cases known
    rw [Mnemonic.ofName?_eq_some_iff.mp found, String.toList_ofList]
  · obtain ⟨number, _, isRegister⟩ := Option.map_eq_some_iff.mp known
    cases isRegister

theorem Cursor.punctuation?_ne_opcode (character : Char) (mnemonic : Mnemonic) :
    punctuation? character ≠ some (.opcode mnemonic) := by
  unfold punctuation?
  split <;> simp

/-- A mnemonic is spelled by its name, whatever the case of the letters. -/
theorem Spells.toUpper_eq_name {text : List Char} {mnemonic : Mnemonic}
    (spells : Spells text (.opcode mnemonic)) : text.map Char.toUpper = mnemonic.name.toList := by
  cases text with
  | nil => exact absurd rfl spells.ne_nil
  | cons character rest =>
      cases Cursor.tokenAtFront (spells 0) with
      | punctuation known _ _ => exact absurd known (Cursor.punctuation?_ne_opcode _ mnemonic)
      | number _ known _ _ => exact absurd known (Numeral.kind?_ne_opcode _ mnemonic)
      | word _ known lexeme _ =>
          rw [String.toList_ofList] at lexeme
          rw [lexeme]
          exact Identifier.toUpper_eq_name known

end RiscAssembler
