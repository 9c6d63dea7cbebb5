import RiscAssembler.Instruction
import RiscAssembler.Proofs.Assembly.Outcome
import RiscAssembler.Proofs.Machine.RoundTrip
import RiscAssembler.Proofs.Token.Respelling

/-!
Contract: a program printed in its canonical form and assembled again.

Owns:
- the same instructions on lines of their own;
- what an instruction needs so that it can be printed, which every instruction of a text has;
- the tokens of printed instructions, and the instructions that these tokens make.

The commas of the canonical form keep every operand apart, so a base offset is not taken for one a
second time, and none arises from operands that only look like its parts.

Main statement: `assemble_programText`.
-/

namespace RiscAssembler

/-! ### Instructions on lines of their own -/

/-- The same token on another line. -/
def Token.onLine (token : Token) (line : Nat) : Token :=
  { token with line := line }

/-- The same instruction with all its parts on one line. -/
def Instruction.onLine (instruction : Instruction) (line : Nat) : Instruction :=
  ⟨instruction.mnemonic, instruction.operands.map (·.onLine line), line⟩

/-- The same instructions, one on each line from the first on. -/
def onLines (instructions : List Instruction) (first : Nat) : List Instruction :=
  (instructions.zipIdx first).map fun placed => placed.1.onLine placed.2

theorem onLines_cons (instruction : Instruction) (rest : List Instruction) (first : Nat) :
    onLines (instruction :: rest) first =
      instruction.onLine first :: onLines rest (first + 1) := rfl

theorem mem_onLines {instruction : Instruction} {instructions : List Instruction} {first : Nat}
    (member : instruction ∈ onLines instructions first) :
    ∃ origin ∈ instructions, ∃ line, instruction = origin.onLine line := by
  obtain ⟨⟨origin, line⟩, placed, rfl⟩ := List.mem_map.mp member
  exact ⟨origin, List.fst_mem_of_mem_zipIdx placed, line, rfl⟩

/-- What does not depend on lines is the same for instructions on lines of their own. -/
theorem map_onLines {Result : Type} {view : Instruction → Result}
    (anywhere : ∀ instruction line, view (instruction.onLine line) = view instruction)
    (instructions : List Instruction) (first : Nat) :
    (onLines instructions first).map view = instructions.map view := by
  induction instructions generalizing first with
  | nil => rfl
  | cons instruction rest inductionHypothesis =>
      rw [onLines_cons, List.map_cons, List.map_cons, anywhere, inductionHypothesis]

theorem text_onLine (instruction : Instruction) (line : Nat) :
    (instruction.onLine line).text = instruction.text := by
  have lexemes : (instruction.onLine line).operands.map Token.lexeme =
      instruction.operands.map Token.lexeme := by
    rw [Instruction.onLine, List.map_map]
    rfl
  unfold Instruction.text
  rw [lexemes]
  rfl

theorem encodeLine_value_onLine (instruction : Instruction) (line : Nat) :
    (instruction.onLine line).encodeLine.value = instruction.encodeLine.value := by
  apply Instruction.encodeLine_value_of_kinds_eq
  · rfl
  · rw [Instruction.onLine, List.map_map]
    rfl

/-! ### Instructions that can be printed -/

/-- Every operand of an instruction is read off its spelling, and none ends the operand list or is
dropped from it. -/
structure Instruction.Printable (instruction : Instruction) : Prop where
  spells : ∀ operand ∈ instruction.operands, Spells operand.lexeme.toList operand.kind
  plain : ∀ operand ∈ instruction.operands, operand.kind ≠ .comma ∧ operand.isOpcode = false

theorem Instruction.Printable.onLine {instruction : Instruction} (printable : instruction.Printable)
    (line : Nat) : (instruction.onLine line).Printable where
  spells := by
    intro operand member
    obtain ⟨origin, isOperand, rfl⟩ := List.mem_map.mp member
    exact printable.spells origin isOperand
  plain := by
    intro operand member
    obtain ⟨origin, isOperand, rfl⟩ := List.mem_map.mp member
    exact printable.plain origin isOperand

theorem printable_of_mem_assemble {source : String} {instruction : Instruction}
    (member : instruction ∈ (assemble source).instructions) : instruction.Printable := by
  rw [assemble_instructions] at member
  have tokens := (of_mem_segments (tokenize source).value).2 instruction member
  constructor
  · intro operand isOperand
    exact spells_of_mem_tokenize (tokens.2 operand isOperand)
  · exact (plain_of_mem_segments (tokenize source).value).2 instruction member

/-! ### Printed instructions -/

/-- The tokens of an instruction as it is printed on its line. -/
def Instruction.tokens (instruction : Instruction) : List Token :=
  ⟨.opcode instruction.mnemonic, instruction.mnemonic.name, instruction.line⟩ ::
    instruction.operands.intersperse (commaOn instruction.line)

theorem segments_tokens {instruction : Instruction} (printable : instruction.Printable) :
    segments instruction.tokens = ([], [instruction]) := by
  have isComma : (commaOn instruction.line).kind = .comma := rfl
  exact segments_separated isComma printable.plain

/-- Each printed instruction opens with its opcode, so no operand goes to a neighbour. -/
theorem segments_flatMap_tokens {instructions : List Instruction}
    (printable : ∀ instruction ∈ instructions, instruction.Printable) :
    segments (instructions.flatMap Instruction.tokens) = ([], instructions) := by
  induction instructions with
  | nil => rfl
  | cons instruction rest inductionHypothesis =>
      obtain ⟨first, restPrintable⟩ := List.forall_mem_cons.mp printable
      have later := inductionHypothesis restPrintable
      cases rest with
      | nil => simpa using segments_tokens first
      | cons next rest =>
          have opens : ((next :: rest).flatMap Instruction.tokens).head?.any Token.isOpcode := rfl
          rw [List.flatMap_cons, segments_append opens, segments_tokens first, later]
          rfl

theorem toList_text (instruction : Instruction) :
    instruction.text.toList =
      instruction.mnemonic.name.toList ++ ' ' ::
        [',', ' '].intercalate (instruction.operands.map (·.lexeme.toList)) := by
  unfold Instruction.text
  rw [String.toList_append, String.toList_append, String.toList_intercalate, List.map_map,
    List.append_assoc]
  rfl

theorem scan_text_append {instruction : Instruction} (printable : instruction.Printable)
    (line : Nat) {after : List Char} (separated : Separated after) :
    Cursor.scan ⟨instruction.text.toList ++ after, line⟩ =
      (instruction.onLine line).tokens.map ScanItem.token ++ Cursor.scan ⟨after, line⟩ := by
  have spelled : ∀ token ∈ (instruction.onLine line).operands,
      Spells token.lexeme.toList token.kind ∧ token.line = line := by
    intro token member
    refine ⟨(printable.onLine line).spells token member, ?_⟩
    obtain ⟨origin, _, rfl⟩ := List.mem_map.mp member
    rfl
  have blanks : ∀ character ∈ [' '], character = ' ' := by simp
  have scanned := scan_instruction blanks instruction.mnemonic spelled separated
  rw [← text_onLine instruction line, toList_text, List.append_assoc]
  exact scanned

theorem toList_programText_cons_cons (instruction next : Instruction) (rest : List Instruction) :
    (programText (instruction :: next :: rest)).toList =
      instruction.text.toList ++ '\n' :: (programText (next :: rest)).toList := by
  unfold programText
  rw [String.toList_intercalate, String.toList_intercalate, List.map_cons, List.map_cons,
    List.map_cons, List.map_cons, List.intercalate_cons_cons, List.append_assoc]
  rfl

theorem scan_programText {instructions : List Instruction}
    (printable : ∀ instruction ∈ instructions, instruction.Printable) (first : Nat) :
    Cursor.scan ⟨(programText instructions).toList, first⟩ =
      ((onLines instructions first).flatMap Instruction.tokens).map ScanItem.token := by
  induction instructions generalizing first with
  | nil => exact Cursor.scan_nil first
  | cons instruction rest inductionHypothesis =>
      obtain ⟨here, restPrintable⟩ := List.forall_mem_cons.mp printable
      have later := inductionHypothesis restPrintable (first + 1)
      rw [onLines_cons, List.flatMap_cons, List.map_append, ← later]
      cases rest with
      | nil =>
          have alone := scan_text_append here first separated_nil
          rw [List.append_nil, Cursor.scan_nil] at alone
          have last : programText [instruction] = instruction.text := by simp [programText]
          rw [last, alone]
          exact congrArg _ (Cursor.scan_nil (first + 1)).symm
      | cons next rest =>
          have lines := scan_text_append here first
            (Cursor.separated_newline (programText (next :: rest)).toList)
          rw [scan_newline] at lines
          rw [toList_programText_cons_cons, lines]

/-! ### The printed program -/

/-- The text of instructions that can be printed is parsed into these instructions, each on a line
of its own, and without complaint. -/
theorem parse_programText {instructions : List Instruction} (nonempty : instructions ≠ [])
    (printable : ∀ instruction ∈ instructions, instruction.Printable) :
    parse (programText instructions) = ⟨onLines instructions 1, []⟩ := by
  have scanned : (Cursor.start (programText instructions)).scan =
      ((onLines instructions 1).flatMap Instruction.tokens).map ScanItem.token :=
    scan_programText printable 1
  have placed : ∀ instruction ∈ onLines instructions 1, instruction.Printable := by
    intro instruction member
    obtain ⟨origin, isOrigin, line, rfl⟩ := mem_onLines member
    exact (printable origin isOrigin).onLine line
  obtain ⟨first, rest, rfl⟩ := List.exists_cons_of_ne_nil nonempty
  have opens : ((onLines (first :: rest) 1).flatMap Instruction.tokens).head?.any
      Token.isOpcode := rfl
  have found : (onLines (first :: rest) 1).flatMap Instruction.tokens ≠ [] := by
    intro nothing
    rw [nothing] at opens
    exact Bool.noConfusion opens
  rw [parse, tokenize_of_scan_eq found scanned]
  show (⟨(segments ((onLines (first :: rest) 1).flatMap Instruction.tokens)).2,
    [] ++ (strayTokens ((onLines (first :: rest) 1).flatMap Instruction.tokens)).map
      opcodeExpected⟩ : Reported (List Instruction)) = _
  rw [segments_flatMap_tokens placed, strayTokens_of_opens opens]
  rfl

theorem assemble_instructions_programText {instructions : List Instruction}
    (nonempty : instructions ≠ [])
    (printable : ∀ instruction ∈ instructions, instruction.Printable) :
    (assemble (programText instructions)).instructions = onLines instructions 1 := by
  rw [assemble_instructions, parse_programText nonempty printable]

theorem programText_onLines (instructions : List Instruction) (first : Nat) :
    programText (onLines instructions first) = programText instructions := by
  unfold programText
  rw [map_onLines text_onLine]

/-- A program is unchanged by being printed and assembled again. The text that prints the
instructions of any program text, one on each line, is parsed without complaint into the same
instructions with the same mnemonics and the same kinds and spellings of operands. It is assembled
into the same output lines, and it prints as itself. -/
theorem assemble_programText {source : String} (nonempty : (assemble source).instructions ≠ []) :
    (parse (programText (assemble source).instructions)).diagnostics = [] ∧
      (parse (programText (assemble source).instructions)).value =
        ((assemble source).instructions.zipIdx 1).map (fun placed =>
          ⟨placed.1.mnemonic,
            placed.1.operands.map fun operand => ⟨operand.kind, operand.lexeme, placed.2⟩,
            placed.2⟩) ∧
      (assemble (programText (assemble source).instructions)).lines = (assemble source).lines ∧
      programText (assemble (programText (assemble source).instructions)).instructions =
        programText (assemble source).instructions := by
  have printable : ∀ instruction ∈ (assemble source).instructions, instruction.Printable :=
    fun _ => printable_of_mem_assemble
  have again := assemble_instructions_programText nonempty printable
  rw [parse_programText nonempty printable]
  refine ⟨rfl, rfl, ?_, ?_⟩
  · rw [assemble_lines, assemble_lines source, again, map_onLines encodeLine_value_onLine]
  · rw [again, programText_onLines]

/-- A program with a base offset, one that is not closed, and a stray parenthesis. -/
theorem assemble_programText_offsets :
    (assemble "lw x1 8(X2) # load\nADDI X3 (4(X5,3.").instructions ≠ [] ∧
      programText (assemble "lw x1 8(X2) # load\nADDI X3 (4(X5,3.").instructions =
        "LW x1, 8, X2\nADDI X3, (, 4, (, X5, 3." ∧
      (parse "LW x1, 8, X2\nADDI X3, (, 4, (, X5, 3.").diagnostics = [] ∧
      (assemble "LW x1, 8, X2\nADDI X3, (, 4, (, X5, 3.").lines =
        (assemble "lw x1 8(X2) # load\nADDI X3 (4(X5,3.").lines := by
  have nonempty : (assemble "lw x1 8(X2) # load\nADDI X3 (4(X5,3.").instructions ≠ [] := by
    decide +kernel
  have printed : programText (assemble "lw x1 8(X2) # load\nADDI X3 (4(X5,3.").instructions =
      "LW x1, 8, X2\nADDI X3, (, 4, (, X5, 3." := by
    decide +kernel
  obtain ⟨silent, _, lines, _⟩ := assemble_programText nonempty
  rw [printed] at silent lines
  exact ⟨nonempty, printed, silent, lines⟩

end RiscAssembler
