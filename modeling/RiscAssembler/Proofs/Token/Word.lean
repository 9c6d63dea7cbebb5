import RiscAssembler.Proofs.Text.Digits
import RiscAssembler.Proofs.Text.LetterCase
import RiscAssembler.Proofs.Token.Literal
import RiscAssembler.Proofs.Token.Respelling

/-!
Contract: the words of a program text, how far they reach and what they name.

Owns:
- the mnemonics and the registers that a word names, told from its upper-case letters;
- the longest word at the front of a text;
- the step at a letter;
- the numbers of the registers in a program text.

No word names two things: the letter of a register is followed by digits, and no mnemonic has a
digit.

Main statement: `word_classification`.
-/

namespace RiscAssembler

namespace Identifier

/-- What a word names, whatever the case of its letters. The number of a register has no leading
zero. -/
inductive Names : List Char → TokenKind → Prop
  | mnemonic {word : List Char} {mnemonic : Mnemonic}
      (spelled : word.map Char.toUpper = mnemonic.name.toList) : Names word (.opcode mnemonic)
  | register {word : List Char} {number : Nat} (lower : 1 ≤ number) (upper : number ≤ 32)
      (spelled : word.map Char.toUpper = 'X' :: Text.decimal number) :
      Names word (.register number)

theorem registerNumber?_eq_some_iff {word : List Char} {number : Nat} :
    registerNumber? word = some number ↔
      1 ≤ number ∧ number ≤ 32 ∧ word = 'X' :: Text.decimal number := by
  constructor
  · intro named
    unfold registerNumber? at named
    split at named
    · rename_i digits
      dsimp only at named
      split at named
      · rename_i accepted
        obtain ⟨allDigits, noZero, lower, upper⟩ := accepted
        obtain rfl := Option.some.inj named
        have nonempty : digits ≠ [] := by
          rintro rfl
          exact absurd lower (by decide)
        rw [Text.decimal_digitsValue nonempty (List.all_eq_true.mp allDigits) noZero]
        exact ⟨lower, upper, rfl⟩
      · cases named
    · cases named
  · rintro ⟨lower, upper, rfl⟩
    have allDigits : (Text.decimal number).all Char.isDigit :=
      List.all_eq_true.mpr fun digit => Text.isDigit_of_mem_decimal
    have noZero : (Text.decimal number).head? ≠ some '0' :=
      Text.head?_decimal_eq_zero_iff.not.mpr (by omega)
    simp only [registerNumber?, Text.digitsValue_decimal]
    exact if_pos ⟨allDigits, noZero, lower, upper⟩

/-- No mnemonic is the letter of a register with a number behind it. -/
theorem name_ne_register (mnemonic : Mnemonic) (number : Nat) :
    mnemonic.name.toList ≠ 'X' :: Text.decimal number := by
  intro equal
  have noDigit : mnemonic.name.toList.all (fun character => !character.isDigit) := by
    cases mnemonic <;> rfl
  obtain ⟨digit, member⟩ := List.exists_mem_of_ne_nil _ (Text.decimal_ne_nil number)
  have other := List.all_eq_true.mp noDigit digit (equal ▸ List.mem_cons_of_mem 'X' member)
  rw [Text.isDigit_of_mem_decimal member] at other
  cases other

theorem kind?_eq_some_iff {word : List Char} {kind : TokenKind} :
    kind? word = some kind ↔ Names word kind := by
  unfold kind?
  dsimp only
  cases found : Mnemonic.ofName? (String.ofList (word.map Char.toUpper)) with
  | some mnemonic =>
      have spelled := congrArg String.toList (Mnemonic.ofName?_eq_some_iff.mp found)
      rw [String.toList_ofList] at spelled
      constructor
      · intro known
        obtain rfl := Option.some.inj known
        exact .mnemonic spelled.symm
      · intro names
        cases names with
        | mnemonic other =>
            rw [other, String.toList_inj] at spelled
            rw [Mnemonic.name_injective spelled]
        | register lower upper other => exact absurd (spelled.trans other) (name_ne_register _ _)
  | none =>
      constructor
      · intro known
        obtain ⟨number, named, rfl⟩ := Option.map_eq_some_iff.mp known
        obtain ⟨lower, upper, spelled⟩ := registerNumber?_eq_some_iff.mp named
        exact .register lower upper spelled
      · intro names
        cases names with
        | mnemonic spelled =>
            rw [spelled, String.ofList_toList, Mnemonic.ofName?_eq_some_iff.mpr rfl] at found
            cases found
        | register lower upper spelled =>
            rw [registerNumber?_eq_some_iff.mpr ⟨lower, upper, spelled⟩]
            rfl

/-- A word is the longest one at the front of a text: the text starts with it, it has letters and
digits only, and neither follows. -/
structure IsLongest (word text after : List Char) : Prop where
  split : word ++ after = text
  inside : ∀ character ∈ word, character.isAlphanum
  ends : ∀ character ∈ after.head?, character.isAlphanum = false

/-- The word that is read from a text is the longest one at its front, and the only such. -/
theorem read_eq_iff {word text after : List Char} :
    read text = (word, after) ↔ IsLongest word text after := by
  constructor
  · intro equal
    obtain ⟨rfl, rfl⟩ := Prod.mk.inj equal
    exact ⟨append_read text, fun _ => of_mem_takeWhile, head?_dropWhile_eq_false⟩
  · rintro ⟨rfl, inside, ends⟩
    rw [read, takeWhile_run ends inside, dropWhile_run ends inside]

end Identifier

/-! ### Registers -/

/-- Only a word names a register, and it names one of thirty-two. -/
theorem Spells.register_bounds {text : List Char} {number : Nat}
    (spells : Spells text (.register number)) : 1 ≤ number ∧ number ≤ 32 := by
  cases text with
  | nil => exact absurd rfl spells.ne_nil
  | cons character rest =>
      cases Cursor.tokenAtFront (spells 0) with
      | punctuation known _ _ =>
          unfold Cursor.punctuation? at known
          split at known <;> cases known
      | number _ known _ _ =>
          generalize (Numeral.read (character :: rest)).1 = numeral at known
          cases Numeral.kind?_eq_some_iff.mp known
      | word _ known _ _ =>
          cases Identifier.kind?_eq_some_iff.mp known with
          | register lower upper _ => exact ⟨lower, upper⟩

/-! ### The step at a letter -/

theorem Cursor.next_word {cursor : Cursor} {text : List Char} {line : Nat}
    (here : cursor.skipTrivia = ⟨text, line⟩)
    (starts : ∃ character ∈ text.head?, character.isAlpha) :
    ∃ word after,
      (∀ other rest, Identifier.IsLongest other text rest ↔ other = word ∧ rest = after) ∧
      (∀ kind, cursor.next = .token ⟨kind, String.ofList word, line⟩ ⟨after, line⟩ ↔
        Identifier.Names word kind) ∧
      ((∀ kind, ¬ Identifier.Names word kind) →
        cursor.next = .fault ⟨.unrecognizedWord (String.ofList word), line⟩ ⟨after, line⟩) := by
  obtain ⟨character, first, letter⟩ := starts
  obtain ⟨rest, rfl⟩ := List.head?_eq_some_iff.mp first
  have step := tokenHere_word letter rest line
  generalize read : Identifier.read (character :: rest) = found at step
  obtain ⟨word, after⟩ := found
  rw [next, here]
  refine ⟨word, after, fun other rest => ?_, fun kind => ?_, fun nothing => ?_⟩
  · rw [← Identifier.read_eq_iff, read, Prod.mk.injEq, eq_comm, @eq_comm _ after]
  · rw [step, classify_eq_token_iff, Identifier.kind?_eq_some_iff]
  · have unknown : ∀ kind, Identifier.kind? word ≠ some kind :=
      fun kind known => nothing kind (Identifier.kind?_eq_some_iff.mp known)
    rw [step, classify_of_forall_ne unknown]

theorem Identifier.names_opcode_iff {word : List Char} {mnemonic : Mnemonic} :
    Names word (.opcode mnemonic) ↔ (String.ofList word).toUpper = mnemonic.name := by
  rw [← String.toList_inj, Text.toList_toUpper, String.toList_ofList]
  constructor
  · intro names
    cases names with
    | mnemonic spelled => exact spelled
  · exact .mnemonic

theorem toList_registerText (number : Nat) :
    ("X" ++ String.ofList (Text.decimal number)).toList = 'X' :: Text.decimal number := by
  rw [String.toList_append]
  exact congrArg ('X' :: ·) String.toList_ofList

theorem Identifier.names_register_iff {word : List Char} {number : Nat} :
    Names word (.register number) ↔
      1 ≤ number ∧ number ≤ 32 ∧
        (String.ofList word).toUpper = "X" ++ String.ofList (Text.decimal number) := by
  rw [← String.toList_inj, Text.toList_toUpper, String.toList_ofList, toList_registerText]
  constructor
  · intro names
    cases names with
    | register lower upper spelled => exact ⟨lower, upper, spelled⟩
  · rintro ⟨lower, upper, spelled⟩
    exact .register lower upper spelled

/-- Where the next character that is neither blank nor in a comment is a letter, a step takes off
the longest run of letters and digits that starts there. In upper case it is the name of a mnemonic,
or the letter `X` and the decimal number of a register from one to thirty-two, and becomes that
token; or else it is reported as it is spelled, on the line of its first character, and has been
read then. No name of a mnemonic is the name of a register or of another mnemonic. So the registers
of a program text are always among the thirty-two. -/
theorem word_classification :
    (∀ {cursor : Cursor} {text : List Char} {line : Nat}, cursor.skipTrivia = ⟨text, line⟩ →
      (∃ character ∈ text.head?, character.isAlpha) →
      (∃ skipped, skipped ++ text = cursor.rest ∧ line = cursor.line + skipped.count '\n') ∧
        ∃ word after,
          (∀ other rest, Identifier.IsLongest other text rest ↔ other = word ∧ rest = after) ∧
          (∀ mnemonic,
            cursor.next = .token ⟨.opcode mnemonic, String.ofList word, line⟩ ⟨after, line⟩ ↔
              (String.ofList word).toUpper = mnemonic.name) ∧
          (∀ number,
            cursor.next = .token ⟨.register number, String.ofList word, line⟩ ⟨after, line⟩ ↔
              1 ≤ number ∧ number ≤ 32 ∧
                (String.ofList word).toUpper = "X" ++ String.ofList (Text.decimal number)) ∧
          ((∀ mnemonic : Mnemonic, (String.ofList word).toUpper ≠ mnemonic.name) →
            (∀ number, 1 ≤ number → number ≤ 32 →
              (String.ofList word).toUpper ≠ "X" ++ String.ofList (Text.decimal number)) →
            ∃ fault, cursor.next = .fault fault ⟨after, line⟩ ∧
              fault.diagnostic = ⟨line, "unrecognized token: " ++ String.ofList word⟩)) ∧
      (∀ (mnemonic : Mnemonic) (number : Nat),
        mnemonic.name ≠ "X" ++ String.ofList (Text.decimal number)) ∧
      (∀ left right : Mnemonic, left.name = right.name → left = right) ∧
      ∀ (source : String), ∀ token ∈ (tokenize source).value, ∀ number,
        token.kind = .register number → 1 ≤ number ∧ number ≤ 32 := by
  refine ⟨?_, ?_, fun _ _ => Mnemonic.name_injective, ?_⟩
  · intro cursor text line here starts
    have skipped := cursor.exists_skipped
    rw [here] at skipped
    obtain ⟨word, after, longest, kinds, unknown⟩ := Cursor.next_word here starts
    refine ⟨skipped, word, after, longest, fun mnemonic => ?_, fun number => ?_, ?_⟩
    · rw [kinds, Identifier.names_opcode_iff]
    · rw [kinds, Identifier.names_register_iff]
    · intro noMnemonic noRegister
      refine ⟨_, unknown fun kind names => ?_, rfl⟩
      cases names with
      | mnemonic spelled => exact noMnemonic _ (Identifier.names_opcode_iff.mp (.mnemonic spelled))
      | register lower upper spelled =>
          have named := Identifier.names_register_iff.mp (.register lower upper spelled)
          exact noRegister _ lower upper named.2.2
  · intro mnemonic number equal
    have letters := congrArg String.toList equal
    rw [toList_registerText] at letters
    exact Identifier.name_ne_register mnemonic number letters
  · intro source token member number register
    have spells := spells_of_mem_tokenize member
    rw [register] at spells
    exact spells.register_bounds

/-- The last register, in lower case, in front of a comma. -/
theorem word_classification_register :
    (Cursor.start "\tx32,").skipTrivia = ⟨['x', '3', '2', ','], 1⟩ ∧
      (∃ character ∈ ['x', '3', '2', ','].head?, character.isAlpha) ∧
      (Cursor.start "\tx32,").next = .token ⟨.register 32, "x32", 1⟩ ⟨[','], 1⟩ := by
  have here : (Cursor.start "\tx32,").skipTrivia = ⟨['x', '3', '2', ','], 1⟩ := by
    decide +kernel
  have starts : ∃ character ∈ ['x', '3', '2', ','].head?, character.isAlpha :=
    ⟨'x', rfl, by decide⟩
  have longest : Identifier.IsLongest ['x', '3', '2'] ['x', '3', '2', ','] [','] := by
    refine ⟨rfl, List.all_eq_true.mp rfl, ?_⟩
    rintro character ⟨⟩
    rfl
  obtain ⟨_, word, after, only, _, registers, _⟩ := word_classification.1 here starts
  obtain ⟨rfl, rfl⟩ := (only _ _).mp longest
  have upper : (String.ofList ['x', '3', '2']).toUpper =
      "X" ++ String.ofList (Text.decimal 32) := by
    decide +kernel
  exact ⟨here, starts, (registers 32).mpr ⟨by decide, by decide, upper⟩⟩

end RiscAssembler
