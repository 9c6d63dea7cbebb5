import RiscAssembler.Excerpt
import RiscAssembler.Proofs.Assembly.Report
import RiscAssembler.Proofs.Token.Whereabouts

/-!
Contract: every entry of a report points at a line that shows what it is about.

Owns:
- what the line of an entry shows, by the stage that raised the entry;
- the entries of each stage, and the lines that they point at;
- the excerpt of an entry, which is shown whenever the line exists.

The line of an entry is that of a token or of a lexical fault, carried along through grouping and
encoding. Only an instruction without operands has no token to blame for their number; its entry
points at line zero, which no text has.

Main statement: `report_shown`.
-/

namespace RiscAssembler

/-- What the line of an entry shows: the text of a lexical fault, the spelling of a stray token, the
name of an unsupported mnemonic in either letter case, the spelling of the first operand where their
number is wrong, or the spelling of an operand of a wrong kind. A text that has neither tokens nor
lexical faults has nothing to show. -/
inductive ShownOn (source : String) (line : List Char) : Diagnostic → Prop where
  | nothing (noToken : (tokenize source).value = []) (noFault : lexicalFaults source = []) :
      ShownOn source line ⟨1, "empty or invalid instruction"⟩
  | lexical (fault : LexicalFault) (found : fault ∈ lexicalFaults source)
      (shown : fault.cause.offending <:+: line) : ShownOn source line fault.diagnostic
  | stray (token : Token) (found : token ∈ strayTokens (tokenize source).value)
      (shown : token.lexeme.toList <:+: line) : ShownOn source line (opcodeExpected token)
  | unsupported (instruction : Instruction) (found : instruction ∈ (assemble source).instructions)
      (fault : EncodingFault) (failed : instruction.encode = .error fault)
      (blames : fault = .unsupported instruction.mnemonic instruction.line)
      (shown : instruction.mnemonic.name.toList <:+: line.map Char.toUpper) :
      ShownOn source line fault.diagnostic
  | wrongArity (instruction : Instruction) (found : instruction ∈ (assemble source).instructions)
      (fault : EncodingFault) (failed : instruction.encode = .error fault)
      (expected : Nat) (first : Token) (isFirst : instruction.operands.head? = some first)
      (blames : fault = .wrongArity instruction.mnemonic expected instruction.operands.length
        first.line)
      (shown : first.lexeme.toList <:+: line) : ShownOn source line fault.diagnostic
  | wrongOperand (instruction : Instruction) (found : instruction ∈ (assemble source).instructions)
      (fault : EncodingFault) (failed : instruction.encode = .error fault)
      (index : Nat) (expected : OperandKind) (operand : Token)
      (isOperand : operand ∈ instruction.operands)
      (blames : fault = .wrongOperand instruction.mnemonic index expected operand)
      (shown : operand.lexeme.toList <:+: line) : ShownOn source line fault.diagnostic

/-- An entry that no line can be blamed for: the number of operands of an instruction that has
none. -/
def Unlocated (source : String) (diagnostic : Diagnostic) : Prop :=
  ∃ instruction ∈ (assemble source).instructions, ∃ expected,
    instruction.operands = [] ∧
      instruction.encode = .error (.wrongArity instruction.mnemonic expected 0 0) ∧
      diagnostic = (EncodingFault.wrongArity instruction.mnemonic expected 0 0).diagnostic

/-- A line of the text has the number of an entry and shows what the entry is about. -/
def Located (source : String) (diagnostic : Diagnostic) : Prop :=
  ∃ line, Text.line? source.toList diagnostic.line = some line ∧ ShownOn source line diagnostic

theorem Located.line_ne_zero {source : String} {diagnostic : Diagnostic}
    (located : Located source diagnostic) : diagnostic.line ≠ 0 := by
  obtain ⟨line, found, _⟩ := located
  intro zero
  rw [zero, Text.line?_zero] at found
  cases found

/-! ### Stages -/

theorem located_of_mem_tokenize {source : String} (nonempty : source ≠ "")
    {diagnostic : Diagnostic} (member : diagnostic ∈ (tokenize source).diagnostics) :
    Located source diagnostic := by
  rw [tokenize_diagnostics] at member
  split at member
  · rename_i blank
    rw [List.mem_singleton] at member
    subst member
    have someCharacter : source.toList ≠ [] := by simpa using nonempty
    obtain ⟨line, found⟩ := Text.exists_line?_one someCharacter
    exact ⟨line, found, .nothing blank.1 blank.2⟩
  · obtain ⟨fault, isFault, rfl⟩ := List.mem_map.mp member
    obtain ⟨line, found, shown⟩ := lexicalFaults_shown isFault
    exact ⟨line, found, .lexical fault isFault shown⟩

theorem located_of_mem_stray {source : String} {diagnostic : Diagnostic}
    (member : diagnostic ∈ strayDiagnostics source) : Located source diagnostic := by
  obtain ⟨token, isStray, rfl⟩ := List.mem_map.mp member
  have isToken : token ∈ (tokenize source).value := (List.takeWhile_sublist _).subset isStray
  obtain ⟨line, found, shown⟩ := tokenize_shown isToken
  exact ⟨line, found, .stray token isStray shown⟩

section Instructions

variable {source : String} {instruction : Instruction}
  (member : instruction ∈ (assemble source).instructions)
include member

theorem operand_shown {operand : Token} (isOperand : operand ∈ instruction.operands) :
    ShowsOn source operand.line operand.lexeme.toList := by
  rw [assemble_instructions] at member
  have tokens := (of_mem_segments (tokenize source).value).2 instruction member
  exact tokenize_shown (tokens.2 operand isOperand)

/-- The line of an instruction shows the name of its mnemonic, in either letter case. -/
theorem mnemonic_shown :
    ∃ line, Text.line? source.toList instruction.line = some line ∧
      instruction.mnemonic.name.toList <:+: line.map Char.toUpper := by
  rw [assemble_instructions] at member
  obtain ⟨⟨token, isToken, isOpcode, here⟩, _⟩ :=
    (of_mem_segments (tokenize source).value).2 instruction member
  obtain ⟨line, found, shown⟩ := tokenize_shown isToken
  have spells := spells_of_mem_tokenize isToken
  rw [isOpcode] at spells
  rw [← here, ← spells.toUpper_eq_name]
  exact ⟨line, found, shown.map Char.toUpper⟩

/-- What is wrong with an instruction is shown, unless it is the lack of operands. -/
theorem located_of_encode_error {fault : EncodingFault}
    (failed : instruction.encode = .error fault) :
    Unlocated source fault.diagnostic ∨ Located source fault.diagnostic := by
  rcases Instruction.encode_error_cases failed with rfl | ⟨expected, rfl⟩ |
    ⟨index, expected, operand, isOperand, rfl⟩
  · obtain ⟨line, found, shown⟩ := mnemonic_shown member
    exact .inr ⟨line, found, .unsupported instruction member _ failed rfl shown⟩
  · cases operands : instruction.operands with
    | nil =>
        have noLine : instruction.operandLine = 0 := by
          rw [Instruction.operandLine, operands]
          rfl
        rw [operands, noLine] at failed
        rw [noLine]
        exact .inl ⟨instruction, member, expected, operands, failed, rfl⟩
    | cons first rest =>
        have isFirst : instruction.operands.head? = some first := by
          rw [operands]
          rfl
        have firstLine : instruction.operandLine = first.line := by
          rw [Instruction.operandLine, isFirst]
          rfl
        obtain ⟨line, found, shown⟩ := operand_shown member (List.mem_of_head? isFirst)
        rw [← operands]
        rw [firstLine] at failed ⊢
        exact .inr ⟨line, found,
          .wrongArity instruction member _ failed expected first isFirst rfl shown⟩
  · obtain ⟨line, found, shown⟩ := operand_shown member isOperand
    exact .inr ⟨line, found,
      .wrongOperand instruction member _ failed index expected operand isOperand rfl shown⟩

end Instructions

theorem located_of_mem_encoding {source : String} {diagnostic : Diagnostic}
    (member : diagnostic ∈ encodingDiagnostics source) :
    Unlocated source diagnostic ∨ Located source diagnostic := by
  obtain ⟨instruction, isInstruction, raised⟩ := List.mem_flatMap.mp member
  rw [← assemble_instructions] at isInstruction
  cases result : instruction.encode with
  | ok word =>
      have silent := Instruction.encodeLine_diagnostics_eq_nil_iff.mpr ⟨word, result⟩
      rw [silent] at raised
      cases raised
  | error fault =>
      rw [Instruction.encodeLine, result, List.mem_singleton] at raised
      rw [raised]
      exact located_of_encode_error isInstruction result

theorem mem_report_iff {source : String} (nonempty : source ≠ "") {diagnostic : Diagnostic} :
    diagnostic ∈ (assemble source).diagnostics ↔ diagnostic ∈ raisedDiagnostics source := by
  rw [report_eq_sorted nonempty]
  exact (Diagnostics.sorted_perm _).mem_iff

theorem unlocated_or_located {source : String} (nonempty : source ≠ "") {diagnostic : Diagnostic}
    (member : diagnostic ∈ (assemble source).diagnostics) :
    Unlocated source diagnostic ∨ Located source diagnostic := by
  rw [mem_report_iff nonempty, raisedDiagnostics, List.mem_append, List.mem_append] at member
  rcases member with (scanned | stray) | encoding
  · exact .inr (located_of_mem_tokenize nonempty scanned)
  · exact .inr (located_of_mem_stray stray)
  · exact located_of_mem_encoding encoding

/-- An entry whose line the source has is rendered with its position and the line. -/
theorem Excerpt.render_of_line? {source : String} {diagnostic : Diagnostic} {line : List Char}
    (found : Text.line? source.toList diagnostic.line = some line) (colours : Terminal.Colours)
    (path : String) :
    render colours diagnostic path source =
      String.ofList (heading colours diagnostic.message ++
        (position (path.toList ++ ':' :: Text.decimal diagnostic.line) ++
          rows colours diagnostic.line line)) := by
  rw [render, found]

/-- Every entry of the report on a text points at a real line, which shows the text that the entry
is about, and is rendered with an excerpt of that line. The one exception is an instruction without
operands that should have some: its entry points at line zero, and no other entry does. -/
theorem report_shown {source : String} (nonempty : source ≠ "") {diagnostic : Diagnostic}
    (member : diagnostic ∈ (assemble source).diagnostics) :
    (diagnostic.line = 0 →
        ∃ instruction ∈ (assemble source).instructions, ∃ expected,
          instruction.operands = [] ∧
            instruction.encode = .error (.wrongArity instruction.mnemonic expected 0 0) ∧
            diagnostic =
              (EncodingFault.wrongArity instruction.mnemonic expected 0 0).diagnostic) ∧
      (diagnostic.line ≠ 0 →
        ∃ line, Text.line? source.toList diagnostic.line = some line ∧
          ShownOn source line diagnostic ∧
          ∀ (colours : Terminal.Colours) (path : String),
            Excerpt.render colours diagnostic path source =
              String.ofList (Excerpt.heading colours diagnostic.message ++
                (Excerpt.position (path.toList ++ ':' :: Text.decimal diagnostic.line) ++
                  Excerpt.rows colours diagnostic.line line))) := by
  rcases unlocated_or_located nonempty member with unlocated | located
  · refine ⟨fun _ => unlocated, fun positive => ?_⟩
    obtain ⟨instruction, _, expected, _, _, rfl⟩ := unlocated
    exact absurd rfl positive
  · refine ⟨fun zero => absurd zero located.line_ne_zero, fun _ => ?_⟩
    obtain ⟨line, found, shown⟩ := located
    exact ⟨line, found, shown, Excerpt.render_of_line? found⟩

/-- An operand of a wrong kind on another line than its opcode, behind a carriage return. -/
theorem report_shown_operand :
    "@\nLW X5,\r\n 8(X6)\r\n" ≠ "" ∧
      (⟨3, "instruction LW operand 2: expected REG, found IMM"⟩ : Diagnostic) ∈
        (assemble "@\nLW X5,\r\n 8(X6)\r\n").diagnostics ∧
      Text.line? "@\nLW X5,\r\n 8(X6)\r\n".toList 3 = some " 8(X6)".toList ∧
      ShownOn "@\nLW X5,\r\n 8(X6)\r\n" " 8(X6)".toList
        ⟨3, "instruction LW operand 2: expected REG, found IMM"⟩ := by
  have nonempty : "@\nLW X5,\r\n 8(X6)\r\n" ≠ "" := by decide
  have member : (⟨3, "instruction LW operand 2: expected REG, found IMM"⟩ : Diagnostic) ∈
      (assemble "@\nLW X5,\r\n 8(X6)\r\n").diagnostics := by
    rw [mem_report_iff nonempty]
    decide +kernel
  have third : Text.line? "@\nLW X5,\r\n 8(X6)\r\n".toList 3 = some " 8(X6)".toList := by
    decide +kernel
  obtain ⟨line, found, shown, _⟩ := (report_shown nonempty member).2 (by decide)
  obtain rfl : line = " 8(X6)".toList := Option.some.inj (found.symm.trans third)
  exact ⟨nonempty, member, third, shown⟩

end RiscAssembler
