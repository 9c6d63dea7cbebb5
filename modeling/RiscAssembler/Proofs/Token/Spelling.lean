import Mathlib.Data.List.Basic
import RiscAssembler.Proofs.Text.Digits
import RiscAssembler.Proofs.Token.Lines
import RiscAssembler.Proofs.Token.Numeral

/-!
Contract: texts that are read as one token, and texts put together from such texts.

Owns:
- the texts that are one token and nothing else, wherever they stand;
- the spellings of mnemonics and of integers in range as such texts;
- the scan of a text that starts with such a text, a blank, a comma or a line break;
- the scan of such texts with the same text between any two of them;
- the same for commas, also behind a mnemonic;
- the report on a text in which a scan finds tokens only.

Main statements: `Spells.scan_append`, `spells_signedDecimal` and `scan_separated`.
-/

namespace RiscAssembler

/-- A text is one token of a kind, with nothing around it. -/
def Spells (text : List Char) (kind : TokenKind) : Prop :=
  ∀ line, Cursor.tokenHere text line = .token ⟨kind, String.ofList text, line⟩ ⟨[], line⟩

namespace Spells

theorem ne_nil {text : List Char} {kind : TokenKind} (spells : Spells text kind) : text ≠ [] := by
  rintro rfl
  cases spells 0

theorem not_trivia {character : Char} {rest : List Char} {kind : TokenKind}
    (spells : Spells (character :: rest) kind) :
    character ≠ '#' ∧ Cursor.isBlank character = false := by
  have here := spells 0
  constructor
  · rintro rfl
    cases here
  · rw [Bool.eq_false_iff]
    intro blank
    simp only [Cursor.isBlank, Bool.or_eq_true, decide_eq_true_eq] at blank
    obtain ((rfl | rfl) | rfl) | rfl := blank
    all_goals cases here

theorem skipFrom_append {text : List Char} {kind : TokenKind} (spells : Spells text kind)
    (after : List Char) (line : Nat) :
    Cursor.skipFrom false (text ++ after) line = ⟨text ++ after, line⟩ := by
  match text with
  | [] => exact absurd rfl spells.ne_nil
  | character :: rest =>
      obtain ⟨noComment, noBlank⟩ := spells.not_trivia
      have noBreak : character ≠ '\n' := by
        rintro rfl
        cases noBlank
      simp [Cursor.skipFrom, noComment, noBlank, noBreak]

/-- A text that is one token is scanned as that token, if a separator follows. -/
theorem scan_append {text after : List Char} {kind : TokenKind} (spells : Spells text kind)
    (separated : Separated after) (line : Nat) :
    Cursor.scan ⟨text ++ after, line⟩ =
      .token ⟨kind, String.ofList text, line⟩ :: Cursor.scan ⟨after, line⟩ := by
  match text with
  | [] => exact absurd rfl spells.ne_nil
  | character :: rest =>
      have step : Cursor.next ⟨character :: rest ++ after, line⟩ =
          .token ⟨kind, String.ofList (character :: rest), line⟩ ⟨after, line⟩ := by
        unfold Cursor.next Cursor.skipTrivia
        rw [spells.skipFrom_append, Cursor.tokenHere_append separated, spells line]
        rfl
      rw [Cursor.scan_eq, step]

end Spells

/-- The line of a text has no part in what it spells. -/
theorem spells_of_here {text : List Char} {kind : TokenKind}
    (here : Cursor.tokenHere text 0 = .token ⟨kind, String.ofList text, 0⟩ ⟨[], 0⟩) :
    Spells text kind := by
  intro line
  have moved := Cursor.tokenHere_shifted text 0 line
  rw [Nat.zero_add, here] at moved
  rw [moved]
  simp [Step.shifted, Token.shifted, Cursor.shifted]

theorem spells_name (mnemonic : Mnemonic) : Spells mnemonic.name.toList (.opcode mnemonic) := by
  intro line
  cases mnemonic <;> rfl

/-! ### Integers -/

/-- The parts of the decimal spelling of an integer. -/
def signedNumeral (value : Int) : Numeral :=
  ⟨decide (value < 0), .decimal (Text.decimal value.natAbs) none⟩

theorem spelling_signedNumeral (value : Int) :
    (signedNumeral value).spelling = Text.signedDecimal value := by
  unfold Numeral.spelling Text.signedDecimal
  by_cases negative : value < 0
  · simp [signedNumeral, negative, Numeral.Magnitude.spelling]
  · simp [signedNumeral, negative, Numeral.Magnitude.spelling]

theorem read_signedDecimal (value : Int) :
    Numeral.read (Text.signedDecimal value) = (signedNumeral value, []) := by
  have well : (signedNumeral value).WellSpelled := fun _ => Text.isDigit_of_mem_decimal
  rw [← spelling_signedNumeral, Numeral.read_spelling well]

theorem signed_natAbs (value : Int) :
    Numeral.signed (decide (value < 0)) value.natAbs = value := by
  unfold Numeral.signed
  split
  · rename_i negative
    have below : value < 0 := by simpa using negative
    omega
  · rename_i positive
    have above : 0 ≤ value := by simpa using positive
    omega

/-- What is read to its end as a number is one token. -/
theorem spells_number {text : List Char} {numeral : Numeral} {kind : TokenKind}
    (starts : text.head?.any Numeral.startsWith) (whole : Numeral.read text = (numeral, []))
    (known : numeral.kind? = some kind) : Spells text kind := by
  match text with
  | [] => cases starts
  | character :: rest =>
      intro line
      have spelled := Numeral.spelling_append_read (character :: rest)
      rw [whole, List.append_nil] at spelled
      have first : Numeral.startsWith character := starts
      rw [Cursor.tokenHere_number first, whole, known, spelled]
      rfl

theorem Numeral.kind?_signedNumeral {value : Int} (inRange : inRange value) :
    (signedNumeral value).kind? = some (.immediate value) := by
  have nonempty : Text.decimal value.natAbs ≠ [] := Text.decimal_ne_nil _
  simp [signedNumeral, kind?, Text.digitsValue_decimal, signed_natAbs, nonempty, inRange]

/-- An integer in range is one token in its decimal spelling. -/
theorem spells_signedDecimal {value : Int} (inRange : Numeral.inRange value) :
    Spells (Text.signedDecimal value) (.immediate value) := by
  have starts : (Text.signedDecimal value).head?.any Numeral.startsWith := by
    unfold Text.signedDecimal
    split
    · rfl
    · obtain ⟨digit, first, isDigit⟩ := Text.exists_head_decimal value.natAbs
      rw [Option.mem_def.mp first]
      simp [Numeral.startsWith, isDigit]
  exact spells_number starts (read_signedDecimal value) (Numeral.kind?_signedNumeral inRange)

/-! ### Lists -/

theorem scan_blank (text : List Char) (line : Nat) :
    Cursor.scan ⟨' ' :: text, line⟩ = Cursor.scan ⟨text, line⟩ := by
  rw [Cursor.scan_eq, Cursor.scan_eq ⟨text, line⟩]
  rfl

theorem scan_newline (text : List Char) (line : Nat) :
    Cursor.scan ⟨'\n' :: text, line⟩ = Cursor.scan ⟨text, line + 1⟩ := by
  rw [Cursor.scan_eq, Cursor.scan_eq ⟨text, line + 1⟩]
  rfl

theorem scan_blanks {gap : List Char} (blanks : ∀ character ∈ gap, character = ' ')
    (text : List Char) (line : Nat) :
    Cursor.scan ⟨gap ++ text, line⟩ = Cursor.scan ⟨text, line⟩ := by
  induction gap with
  | nil => rfl
  | cons character gap inductionHypothesis =>
      obtain ⟨rfl, gapBlanks⟩ := List.forall_mem_cons.mp blanks
      rw [List.cons_append, scan_blank, inductionHypothesis gapBlanks]

def commaOn (line : Nat) : Token :=
  ⟨.comma, ",", line⟩

theorem scan_comma (text : List Char) (line : Nat) :
    Cursor.scan ⟨',' :: text, line⟩ = .token (commaOn line) :: Cursor.scan ⟨text, line⟩ := by
  rw [Cursor.scan_eq]
  rfl

theorem separated_comma (rest : List Char) : Separated (',' :: rest) :=
  separated_cons (by decide)

/-- Tokens written with the same text between any two of them, if a token ends in front of that
text, are scanned as these tokens with the tokens of that text between them. -/
theorem scan_separated {gap : List Char} {between : List Token} {line : Nat}
    (separates : ∀ rest, Separated (gap ++ rest))
    (scanned : ∀ rest, Cursor.scan ⟨gap ++ rest, line⟩ =
      between.map ScanItem.token ++ Cursor.scan ⟨rest, line⟩)
    {tokens : List Token}
    (spelled : ∀ token ∈ tokens, Spells token.lexeme.toList token.kind ∧ token.line = line)
    {after : List Char} (separated : Separated after) :
    Cursor.scan ⟨gap.intercalate (tokens.map (·.lexeme.toList)) ++ after, line⟩ =
      (between.intercalate (tokens.map ([·]))).map ScanItem.token ++
        Cursor.scan ⟨after, line⟩ := by
  induction tokens with
  | nil => rfl
  | cons token rest inductionHypothesis =>
      obtain ⟨⟨spells, rfl⟩, restSpelled⟩ := List.forall_mem_cons.mp spelled
      cases rest with
      | nil => simp [List.intercalate_singleton, spells.scan_append separated]
      | cons next rest =>
          have later := inductionHypothesis restSpelled
          simp only [List.map_cons] at later ⊢
          rw [List.intercalate_cons_cons, List.append_assoc, List.append_assoc,
            spells.scan_append (separates _), scanned, later, List.intercalate_cons_cons]
          simp

theorem intercalate_singletons (separator : Token) (tokens : List Token) :
    [separator].intercalate (tokens.map ([·])) = tokens.intersperse separator := by
  induction tokens with
  | nil => rfl
  | cons token rest inductionHypothesis =>
      cases rest with
      | nil => rfl
      | cons next rest =>
          rw [List.map_cons] at inductionHypothesis
          rw [List.map_cons, List.map_cons, List.intercalate_cons_cons, inductionHypothesis]
          rfl

/-- Tokens written with a comma, and maybe blanks, between any two of them are scanned as these
tokens with commas between them. -/
theorem scan_intercalate {gap : List Char} (blanks : ∀ character ∈ gap, character = ' ')
    {tokens : List Token} {line : Nat}
    (spelled : ∀ token ∈ tokens, Spells token.lexeme.toList token.kind ∧ token.line = line)
    {after : List Char} (separated : Separated after) :
    Cursor.scan ⟨(',' :: gap).intercalate (tokens.map (·.lexeme.toList)) ++ after, line⟩ =
      (tokens.intersperse (commaOn line)).map ScanItem.token ++ Cursor.scan ⟨after, line⟩ := by
  rw [← intercalate_singletons]
  refine scan_separated (fun rest => separated_comma _) (fun rest => ?_) spelled separated
  rw [List.cons_append, scan_comma, scan_blanks blanks]
  rfl

/-- A mnemonic and its operands on a line are scanned as an opcode and these operands with commas
between them. -/
theorem scan_instruction {gap : List Char} (blanks : ∀ character ∈ gap, character = ' ')
    (mnemonic : Mnemonic) {operands : List Token} {line : Nat}
    (spelled : ∀ token ∈ operands, Spells token.lexeme.toList token.kind ∧ token.line = line)
    {after : List Char} (separated : Separated after) :
    Cursor.scan ⟨mnemonic.name.toList ++ (' ' ::
        (',' :: gap).intercalate (operands.map (·.lexeme.toList)) ++ after), line⟩ =
      (⟨.opcode mnemonic, mnemonic.name, line⟩ ::
          operands.intersperse (commaOn line)).map ScanItem.token ++ Cursor.scan ⟨after, line⟩ := by
  have blank (rest : List Char) : Separated (' ' :: rest) := separated_cons (by decide)
  rw [List.cons_append, (spells_name mnemonic).scan_append (blank _), scan_blank,
    scan_intercalate blanks spelled separated, String.ofList_toList]
  rfl

/-! ### Scans without a fault -/

theorem Scan.tokens_map_token (found : List Token) : tokens (found.map ScanItem.token) = found := by
  simp [tokens, List.filterMap_map, Function.comp_def, ScanItem.token?]

theorem Scan.faults_map_token (found : List Token) : faults (found.map ScanItem.token) = [] := by
  simp [faults, List.filterMap_map, Function.comp_def, ScanItem.fault?]

/-- A text in which a scan finds tokens only has nothing to report. -/
theorem tokenize_of_scan_eq {source : String} {found : List Token} (nonempty : found ≠ [])
    (scanned : (Cursor.start source).scan = found.map ScanItem.token) :
    tokenize source = ⟨found, []⟩ := by
  have notEmpty : (found.map ScanItem.token).isEmpty = false := by
    simpa using nonempty
  unfold tokenize Cursor.tokenize Scan.reported Scan.diagnostics
  rw [scanned, notEmpty, Scan.tokens_map_token, Scan.faults_map_token]
  rfl

end RiscAssembler
