import RiscAssembler.Proofs.Diagnostic.Sorting
import RiscAssembler.Proofs.Machine.Faults

/-!
Contract: an assembly in terms of the stages that it runs through.

Owns:
- the diagnostics of an assembly in the order in which its stages raise them;
- the instructions and the output lines, also of the empty text, for which no stage runs;
- the output lines of texts whose tokens differ in spelling only;
- texts that start with an opcode, which have a token and no stray one;
- the lines that the stages blame.

An assembly sorts what its stages have raised. All that is stated here holds before the sorting.
-/

namespace RiscAssembler

/-! ### Stages -/

/-- The diagnostics of the tokens in front of the first instruction. -/
def strayDiagnostics (source : String) : List Diagnostic :=
  (strayTokens (tokenize source).value).map opcodeExpected

def encodingDiagnostics (source : String) : List Diagnostic :=
  (parse source).value.flatMap (·.encodeLine.diagnostics)

/-- The diagnostics of a program text in the order of raising. -/
def raisedDiagnostics (source : String) : List Diagnostic :=
  (tokenize source).diagnostics ++ strayDiagnostics source ++ encodingDiagnostics source

theorem assemble_of_nonempty {source : String} (nonempty : source.isEmpty = false) :
    assemble source =
      ⟨(parse source).value.map (·.encodeLine.value), (parse source).value,
        Diagnostics.sorted (raisedDiagnostics source)⟩ := by
  have raised : (parse source).diagnostics ++ (encodeLines (parse source).value).diagnostics =
      raisedDiagnostics source := by
    rw [encodeLines_diagnostics]
    rfl
  simp only [assemble, nonempty, encodeLines_value, raised]
  rfl

/-- Diagnostics that are raised line by line are reported as they were raised. -/
theorem assemble_diagnostics_of_ordered {source : String} (nonempty : source.isEmpty = false)
    (ordered : (raisedDiagnostics source).Pairwise fun first second => first.line ≤ second.line) :
    (assemble source).diagnostics = raisedDiagnostics source := by
  rw [assemble_of_nonempty nonempty]
  apply List.mergeSort_of_pairwise
  exact ordered.imp fun before => by simpa using before

/-- A text that holds a token or a fault is reported by its faults alone. -/
theorem tokenize_diagnostics_of_found {source : String}
    (found : (tokenize source).value ≠ [] ∨ lexicalFaults source ≠ []) :
    (tokenize source).diagnostics = (lexicalFaults source).map LexicalFault.diagnostic := by
  rw [tokenize_diagnostics, if_neg]
  rintro ⟨noToken, noFault⟩
  rcases found with token | fault
  · exact token noToken
  · exact fault noFault

theorem tokenize_value_empty : (tokenize "").value = [] :=
  congrArg Scan.tokens (Cursor.scan_nil 1)

theorem parse_value_empty : (parse "").value = [] := by
  show (segments (tokenize "").value).2 = []
  rw [tokenize_value_empty]
  rfl

theorem lexicalFaults_empty : lexicalFaults "" = [] :=
  congrArg Scan.faults (Cursor.scan_nil 1)

theorem isEmpty_of_found {source : String}
    (found : (tokenize source).value ≠ [] ∨ lexicalFaults source ≠ []) :
    source.isEmpty = false := by
  rw [Bool.eq_false_iff]
  intro empty
  rw [String.isEmpty_iff.mp empty] at found
  rcases found with token | fault
  · exact token tokenize_value_empty
  · exact fault lexicalFaults_empty

/-- The instructions of an assembly are those of the parse; the empty text has none either way. -/
theorem assemble_instructions (source : String) :
    (assemble source).instructions = (parse source).value := by
  cases empty : source.isEmpty with
  | false => rw [assemble_of_nonempty empty]
  | true =>
      obtain rfl := String.isEmpty_iff.mp empty
      rw [parse_value_empty]
      rfl

theorem assemble_lines (source : String) :
    (assemble source).lines =
      (assemble source).instructions.map (·.encodeLine.value) := by
  cases empty : source.isEmpty with
  | false => rw [assemble_of_nonempty empty]
  | true => simp [assemble, empty]

/-! ### Texts that start with an opcode -/

section Opening

variable {source : String} (opens : (tokenize source).value.head?.any Token.isOpcode)
include opens

theorem tokenize_ne_nil_of_opens : (tokenize source).value ≠ [] := by
  intro empty
  simp [empty] at opens

theorem strayDiagnostics_of_opens : strayDiagnostics source = [] := by
  rw [strayDiagnostics, strayTokens_of_opens opens]
  rfl

end Opening

/-! ### Lines -/

theorem line_of_mem_parse {source : String} {instruction : Instruction}
    (member : instruction ∈ (parse source).value) :
    (1 ≤ instruction.line ∧ instruction.line ≤ 1 + source.toList.count '\n') ∧
      ∀ operand ∈ instruction.operands,
        1 ≤ operand.line ∧ operand.line ≤ 1 + source.toList.count '\n' := by
  obtain ⟨⟨token, isToken, _, here⟩, operands⟩ :=
    (of_mem_segments (tokenize source).value).2 instruction member
  rw [← here]
  exact ⟨line_of_mem_tokenize isToken,
    fun operand isOperand => line_of_mem_tokenize (operands operand isOperand)⟩

theorem placed_of_mem_parse {source : String} {instruction : Instruction}
    (member : instruction ∈ (parse source).value) : instruction.Placed := by
  have lines := line_of_mem_parse member
  exact ⟨Nat.ne_of_gt lines.1.1,
    fun operand isOperand => Nat.ne_of_gt (lines.2 operand isOperand).1⟩

/-- Texts whose tokens differ in spelling only have the same output lines. -/
theorem lines_eq_of_relabel_eq {left right : String} (spell : String → String)
    (same : (tokenize left).value.map (Token.relabel spell id) =
      (tokenize right).value.map (Token.relabel spell id)) :
    (assemble left).lines = (assemble right).lines := by
  have relabelled (source : String) : (assemble source).lines =
      (segments ((tokenize source).value.map (Token.relabel spell id))).2.map
        (·.encodeLine.value) := by
    rw [assemble_lines, assemble_instructions, segments_relabel, List.map_map]
    refine List.map_congr_left fun instruction member => ?_
    rw [Function.comp_apply, Instruction.encodeLine_relabel (placed_of_mem_parse member)]
  rw [relabelled left, same, relabelled right]

theorem line_of_mem_tokenize_diagnostics {source : String} {diagnostic : Diagnostic}
    (member : diagnostic ∈ (tokenize source).diagnostics) :
    1 ≤ diagnostic.line ∧ diagnostic.line ≤ 1 + source.toList.count '\n' := by
  rw [tokenize_diagnostics] at member
  split at member
  · rw [List.mem_singleton] at member
    subst member
    exact ⟨Nat.le_refl 1, Nat.le_add_right 1 _⟩
  · obtain ⟨fault, isFault, rfl⟩ := List.mem_map.mp member
    exact line_of_mem_lexicalFaults isFault

theorem line_of_mem_stray {source : String} {diagnostic : Diagnostic}
    (member : diagnostic ∈ strayDiagnostics source) :
    1 ≤ diagnostic.line ∧ diagnostic.line ≤ 1 + source.toList.count '\n' := by
  obtain ⟨token, isStray, rfl⟩ := List.mem_map.mp member
  exact line_of_mem_tokenize ((List.takeWhile_sublist _).subset isStray)

theorem line_of_mem_encoding {source : String} {diagnostic : Diagnostic}
    (member : diagnostic ∈ encodingDiagnostics source) :
    diagnostic.line ≤ 1 + source.toList.count '\n' := by
  obtain ⟨instruction, isInstruction, raised⟩ := List.mem_flatMap.mp member
  have lines := line_of_mem_parse isInstruction
  rcases Instruction.line_of_mem_encodeLine raised with zero | own | ⟨operand, isOperand, own⟩
  · rw [zero]
    exact Nat.zero_le _
  · rw [own]
    exact lines.1.2
  · rw [own]
    exact (lines.2 operand isOperand).2

/-- No diagnostic blames a line behind the text. -/
theorem line_of_mem_raised {source : String} {diagnostic : Diagnostic}
    (member : diagnostic ∈ raisedDiagnostics source) :
    diagnostic.line ≤ 1 + source.toList.count '\n' := by
  rcases List.mem_append.mp member with scannedOrStray | encoding
  · rcases List.mem_append.mp scannedOrStray with scanned | stray
    · exact (line_of_mem_tokenize_diagnostics scanned).2
    · exact (line_of_mem_stray stray).2
  · exact line_of_mem_encoding encoding

end RiscAssembler
