import RiscAssembler.Proofs.Assembly.Blame
import RiscAssembler.Proofs.Diagnostic.Reading

/-!
Contract: the plain report and the artifact of an assembly lose nothing.

Owns:
- messages without line breaks, stage by stage;
- output lines without line breaks, and the words that they spell;
- the pieces of an artifact between its line feeds.

Messages quote the text. What they quote is a token, a word, a number or a single character, none of
which holds a blank, so a message cannot go on to a second line. It may hold any other character.

Main statement: `assemble_readable`.
-/

namespace RiscAssembler

/-! ### Messages -/

theorem unbroken_of_noBlank {text : String}
    (noBlank : ∀ character ∈ text.toList, Cursor.isBlank character = false) : Unbroken text := by
  constructor
  · intro member
    cases noBlank '\n' member
  · intro member
    cases noBlank '\r' member

theorem unbroken_lexeme {source : String} {token : Token}
    (member : token ∈ (tokenize source).value) : Unbroken token.lexeme :=
  unbroken_of_noBlank (visible_of_mem_tokenize member).noBlank

theorem LexicalFault.Cause.unbroken_message {cause : LexicalFault.Cause}
    (noBlank : ∀ character ∈ cause.offending, Cursor.isBlank character = false) :
    Unbroken cause.message := by
  cases cause with
  | unexpectedCharacter character =>
      have single : Unbroken (String.singleton character) := by
        apply unbroken_of_noBlank
        intro quoted member
        exact noBlank quoted (by simpa [LexicalFault.Cause.offending] using member)
      exact ((by decide : Unbroken "unexpected character: '").append single).append (by decide)
  | invalidNumber spelling =>
      exact (by decide : Unbroken "invalid number: ").append (unbroken_of_noBlank noBlank)
  | unrecognizedWord spelling =>
      exact (by decide : Unbroken "unrecognized token: ").append (unbroken_of_noBlank noBlank)

theorem Mnemonic.unbroken_name (mnemonic : Mnemonic) : Unbroken mnemonic.name := by
  cases mnemonic <;> decide

theorem OperandKind.unbroken_name (kind : OperandKind) : Unbroken kind.name := by
  cases kind <;> decide

theorem TokenKind.unbroken_name (kind : TokenKind) : Unbroken kind.name := by
  cases kind with
  | opcode mnemonic => exact mnemonic.unbroken_name
  | register number => exact (by decide : Unbroken "REG")
  | immediate value => exact (by decide : Unbroken "IMM")
  | floatImmediate value => exact (by decide : Unbroken "IMM_FLOAT")
  | leftParenthesis | rightParenthesis | comma => decide

/-- An encoding quotes nothing but names and numbers. -/
theorem EncodingFault.unbroken_message (fault : EncodingFault) : Unbroken fault.message := by
  have named (mnemonic : Mnemonic) : Unbroken ("instruction " ++ mnemonic.name) :=
    (by decide : Unbroken "instruction ").append mnemonic.unbroken_name
  cases fault with
  | unsupported mnemonic line =>
      exact (by decide : Unbroken "unsupported opcode: ").append mnemonic.unbroken_name
  | wrongArity mnemonic expected actual line =>
      exact ((((named mnemonic).append (by decide)).append (.decimal expected)).append
        (by decide)).append (.decimal actual)
  | wrongOperand mnemonic index expected found =>
      exact ((((((named mnemonic).append (by decide)).append (.decimal index)).append
        (by decide)).append expected.unbroken_name).append (by decide)).append
        found.kind.unbroken_name

theorem unbroken_of_mem_tokenize {source : String} {diagnostic : Diagnostic}
    (member : diagnostic ∈ (tokenize source).diagnostics) : Unbroken diagnostic.message := by
  rw [tokenize_diagnostics] at member
  split at member
  · rw [List.mem_singleton] at member
    subst member
    decide
  · obtain ⟨fault, isFault, rfl⟩ := List.mem_map.mp member
    exact LexicalFault.Cause.unbroken_message (visible_of_mem_lexicalFaults isFault).noBlank

theorem unbroken_of_mem_stray {source : String} {diagnostic : Diagnostic}
    (member : diagnostic ∈ strayDiagnostics source) : Unbroken diagnostic.message := by
  obtain ⟨token, isStray, rfl⟩ := List.mem_map.mp member
  have isToken : token ∈ (tokenize source).value := (List.takeWhile_sublist _).subset isStray
  exact ((by decide : Unbroken "unexpected token: ").append (unbroken_lexeme isToken)).append
    (by decide)

theorem unbroken_of_mem_encoding {source : String} {diagnostic : Diagnostic}
    (member : diagnostic ∈ encodingDiagnostics source) : Unbroken diagnostic.message := by
  obtain ⟨instruction, _, raised⟩ := List.mem_flatMap.mp member
  cases result : instruction.encode with
  | ok word =>
      rw [Instruction.encodeLine_of_ok result] at raised
      cases raised
  | error fault =>
      rw [Instruction.encodeLine_of_error result, List.mem_singleton] at raised
      rw [raised]
      exact fault.unbroken_message

/-- No message of a report goes on to a second line. -/
theorem unbroken_of_mem_report {source : String} {diagnostic : Diagnostic}
    (member : diagnostic ∈ (assemble source).diagnostics) : Unbroken diagnostic.message := by
  by_cases empty : source = ""
  · subst empty
    rw [show (assemble "").diagnostics = [emptySource] from rfl, List.mem_singleton] at member
    rw [member]
    decide
  · rw [mem_report_iff empty, raisedDiagnostics, List.mem_append, List.mem_append] at member
    rcases member with (scanned | stray) | encoding
    · exact unbroken_of_mem_tokenize scanned
    · exact unbroken_of_mem_stray stray
    · exact unbroken_of_mem_encoding encoding

/-! ### Output lines -/

/-- A line spells what an instruction comes to: thirty-two binary digits, which in base two are its
word, or the error line if it has no word. -/
inductive Instruction.SpelledBy (instruction : Instruction) (line : String) : Prop where
  | word (word : Word) (encoded : instruction.encode = .ok word) (width : line.toList.length = 32)
      (binary : ∀ digit ∈ line.toList, digit = '0' ∨ digit = '1')
      (value : Text.digitsValue 2 line.toList = word.toNat)
  | error (fault : EncodingFault) (failed : instruction.encode = .error fault)
      (isError : line = "ERROR")

theorem Instruction.spelledBy_encodeLine (instruction : Instruction) :
    instruction.SpelledBy instruction.encodeLine.value := by
  cases result : instruction.encode with
  | ok word =>
      rw [encodeLine_of_ok result]
      exact .word word result word.length_bits word.binary_bits word.digitsValue_bits
  | error fault =>
      rw [encodeLine_of_error result]
      exact .error fault result rfl

theorem Instruction.SpelledBy.unbroken {instruction : Instruction} {line : String}
    (spelled : instruction.SpelledBy line) : Unbroken line := by
  cases spelled with
  | word word encoded width binary value =>
      apply unbroken_of_noBlank
      intro digit member
      rcases binary digit member with rfl | rfl
      · rfl
      · rfl
  | error fault failed isError =>
      rw [isError]
      decide

theorem assemble_spelledBy (source : String) :
    List.Forall₂ Instruction.SpelledBy (assemble source).instructions (assemble source).lines := by
  rw [assemble_lines, List.forall₂_map_right_iff, List.forall₂_same]
  intro instruction _
  exact instruction.spelledBy_encodeLine

theorem unbroken_of_mem_lines {source line : String} (member : line ∈ (assemble source).lines) :
    Unbroken line := by
  rw [assemble_lines] at member
  obtain ⟨instruction, _, rfl⟩ := List.mem_map.mp member
  exact instruction.spelledBy_encodeLine.unbroken

/-! ### Artifacts -/

/-- Lines that each end in a line feed are lines with a line feed between any two, and nothing
behind the last line feed. -/
theorem flatMap_ended (lines : List (List Char)) :
    lines.flatMap (· ++ ['\n']) = ['\n'].intercalate (lines ++ [[]]) := by
  induction lines with
  | nil => rfl
  | cons line rest inductionHypothesis =>
      rw [List.flatMap_cons, inductionHypothesis, List.cons_append]
      cases rest with
      | nil => simp
      | cons next rest => rw [List.cons_append, List.intercalate_cons_cons]

/-- An artifact has its lines for pieces, and one empty piece behind the last line feed. -/
theorem splitOn_artifact {assembly : Assembly} (unbroken : ∀ line ∈ assembly.lines, Unbroken line) :
    assembly.artifact.toList.splitOn '\n' = assembly.lines.map String.toList ++ [[]] := by
  have characters : assembly.artifact.toList =
      ['\n'].intercalate (assembly.lines.map String.toList ++ [[]]) := by
    rw [← flatMap_ended, Assembly.artifact, String.toList_join, List.flatMap_map, List.flatMap_map]
    simp only [String.toList_append]
    rfl
  rw [characters]
  apply List.splitOn_intercalate
  · intro piece member
    rcases List.mem_append.mp member with isPiece | last
    · obtain ⟨line, isLine, rfl⟩ := List.mem_map.mp isPiece
      exact (unbroken line isLine).1
    · rw [List.mem_singleton.mp last]
      exact List.not_mem_nil
  · simp

theorem endedLines_artifact {assembly : Assembly}
    (unbroken : ∀ line ∈ assembly.lines, Unbroken line) :
    endedLines assembly.artifact = assembly.lines := by
  rw [endedLines, splitOn_artifact unbroken, List.dropLast_concat, List.map_map]
  exact List.map_id'' (fun line => String.ofList_toList) assembly.lines

/-! ### Both read back -/

/-- The report and the artifact of an assembly are read back without loss. No message and no output
line holds a line feed or a carriage return. Between its line feeds the artifact has the output
lines, and nothing behind the last one; each of them is the error line, or thirty-two binary digits
that spell the word of its instruction in base two. Between its line feeds a report that is not
empty has one piece for each diagnostic, from which line and message are read back; so texts with
the same report have the same diagnostics. -/
theorem assemble_readable (source : String) :
    (∀ diagnostic ∈ (assemble source).diagnostics, Unbroken diagnostic.message) ∧
      (∀ line ∈ (assemble source).lines, Unbroken line) ∧
      (assemble source).artifact.toList.splitOn '\n' =
        (assemble source).lines.map String.toList ++ [[]] ∧
      endedLines (assemble source).artifact = (assemble source).lines ∧
      List.Forall₂ Instruction.SpelledBy (assemble source).instructions (assemble source).lines ∧
      ((assemble source).diagnostics ≠ [] →
        ((assemble source).report.toList.splitOn '\n').map
            (fun piece => Diagnostic.ofText? (String.ofList piece)) =
          (assemble source).diagnostics.map some) ∧
      Diagnostics.ofReport? (assemble source).report = some (assemble source).diagnostics ∧
      ∀ other, (assemble other).report = (assemble source).report →
        (assemble other).diagnostics = (assemble source).diagnostics := by
  have messages (source : String) :
      ∀ diagnostic ∈ (assemble source).diagnostics, Unbroken diagnostic.message :=
    fun _ => unbroken_of_mem_report
  have lines : ∀ line ∈ (assemble source).lines, Unbroken line := fun _ => unbroken_of_mem_lines
  have readBack (source : String) :
      Diagnostics.ofReport? (assemble source).report = some (assemble source).diagnostics :=
    Diagnostics.ofReport?_report (messages source)
  refine ⟨messages source, lines, splitOn_artifact lines, endedLines_artifact lines,
    assemble_spelledBy source,
    Diagnostics.map_ofText?_splitOn_report (messages source), readBack source, ?_⟩
  intro other sameReport
  have sameAnswer := readBack other
  rw [sameReport, readBack source] at sameAnswer
  exact (Option.some.inj sameAnswer).symm

end RiscAssembler
