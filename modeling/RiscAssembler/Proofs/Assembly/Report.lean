import RiscAssembler.Proofs.Assembly.Outcome

/-!
Contract: where the entries of a report come from, and how they are ordered.

Owns:
- the instructions that have an error line for output, and what is reported of each of them;
- the number of entries of a report;
- the entries of a line, stage by stage.

The stages add to one list in the order in which they run, not in the order of lines. The report
lists that by lines, so the order of the stages shows within a line only.

Main statement: `report_listsByLine`.
-/

namespace RiscAssembler

/-! ### Error lines -/

/-- The instructions that have an error line for output, in order. -/
def Assembly.failedInstructions (assembly : Assembly) : List Instruction :=
  ((assembly.instructions.zip assembly.lines).filter (·.2 = "ERROR")).map Prod.fst

/-- A diagnostic says why an instruction has no word. -/
def Instruction.FailsWith (instruction : Instruction) (diagnostic : Diagnostic) : Prop :=
  ∃ fault, instruction.encode = .error fault ∧ diagnostic = fault.diagnostic

theorem assemble_failedInstructions (source : String) :
    (assemble source).failedInstructions =
      (parse source).value.filter (·.encodeLine.value = "ERROR") := by
  have paired (instructions : List Instruction) :
      instructions.zip (instructions.map (·.encodeLine.value)) =
        instructions.map fun instruction => (instruction, instruction.encodeLine.value) := by
    simpa using List.zip_map' (f := id) (g := (·.encodeLine.value)) (l := instructions)
  unfold Assembly.failedInstructions
  rw [assemble_lines, assemble_instructions, paired, List.filter_map, List.map_map]
  exact List.map_id _

/-- The faults of a list of instructions are those of the ones with an error line, one each. -/
theorem forall₂_failsWith (instructions : List Instruction) :
    List.Forall₂ Instruction.FailsWith
      (instructions.filter (·.encodeLine.value = "ERROR"))
      (instructions.flatMap (·.encodeLine.diagnostics)) := by
  induction instructions with
  | nil => exact .nil
  | cons instruction rest inductionHypothesis =>
      rw [List.filter_cons, List.flatMap_cons]
      cases result : instruction.encode with
      | ok word =>
          have noError : word.bits ≠ "ERROR" := Instruction.bits_ne_errorLine word
          rw [Instruction.encodeLine_of_ok result, if_neg (by simpa using noError)]
          exact inductionHypothesis
      | error fault =>
          rw [Instruction.encodeLine_of_error result, if_pos (by simp [Instruction.errorLine])]
          exact .cons ⟨fault, result, rfl⟩ inductionHypothesis

theorem encodingDiagnostics_failsWith (source : String) :
    List.Forall₂ Instruction.FailsWith (assemble source).failedInstructions
      (encodingDiagnostics source) := by
  rw [assemble_failedInstructions]
  exact forall₂_failsWith (parse source).value

theorem length_encodingDiagnostics (source : String) :
    (encodingDiagnostics source).length = (assemble source).lines.count "ERROR" := by
  rw [← (encodingDiagnostics_failsWith source).length_eq, assemble_failedInstructions,
    assemble_lines, assemble_instructions, ← List.countP_eq_length_filter, List.count,
    List.countP_map]
  rfl

/-! ### Entries -/

theorem report_eq_sorted {source : String} (nonempty : source ≠ "") :
    (assemble source).diagnostics = Diagnostics.sorted (raisedDiagnostics source) := by
  have notEmpty : source.isEmpty = false := by simpa using nonempty
  rw [assemble_of_nonempty notEmpty]

theorem length_report {source : String} (nonempty : source ≠ "") :
    (assemble source).diagnostics.length =
      if (tokenize source).value = [] ∧ lexicalFaults source = [] then 1
      else (lexicalFaults source).length + (strayTokens (tokenize source).value).length +
        (assemble source).lines.count "ERROR" := by
  rw [report_eq_sorted nonempty, (Diagnostics.sorted_perm _).length_eq, raisedDiagnostics,
    List.length_append, List.length_append, length_encodingDiagnostics, tokenize_diagnostics,
    strayDiagnostics, List.length_map]
  by_cases blank : (tokenize source).value = [] ∧ lexicalFaults source = []
  · have noLine : (assemble source).lines = [] := by
      rw [assemble_lines, assemble_instructions]
      show (segments (tokenize source).value).2.map _ = []
      rw [blank.1]
      rfl
    rw [if_pos blank, if_pos blank, noLine, blank.1]
    rfl
  · rw [if_neg blank, if_neg blank, List.length_map]

/-- The report of a text lists by lines what the stages raise: the lexical faults, or one entry for
a text that has neither tokens nor lexical faults; then an entry for each token in front of the
first opcode; then an entry for each instruction with an error line. Nothing is lost and nothing
comes twice. On each line the entries of an earlier stage come first, and those of one stage stand
in the order of the text. -/
theorem report_listsByLine {source : String} (nonempty : source ≠ "") :
    (tokenize source).diagnostics =
        (if (tokenize source).value = [] ∧ lexicalFaults source = [] then
          [⟨1, "empty or invalid instruction"⟩]
        else (lexicalFaults source).map LexicalFault.diagnostic) ∧
      strayDiagnostics source =
        ((tokenize source).value.takeWhile (!·.isOpcode)).map (fun token =>
          ⟨token.line, "unexpected token: " ++ token.lexeme ++ ", expected an opcode"⟩) ∧
      List.Forall₂ Instruction.FailsWith (assemble source).failedInstructions
        (encodingDiagnostics source) ∧
      Diagnostics.ListsByLine (assemble source).diagnostics
        ((tokenize source).diagnostics ++ strayDiagnostics source ++
          encodingDiagnostics source) ∧
      (assemble source).diagnostics.length =
        (if (tokenize source).value = [] ∧ lexicalFaults source = [] then 1
        else (lexicalFaults source).length +
          ((tokenize source).value.takeWhile (!·.isOpcode)).length +
          (assemble source).lines.count "ERROR") ∧
      ∀ line, (assemble source).diagnostics.filter (·.line = line) =
        (tokenize source).diagnostics.filter (·.line = line) ++
          (strayDiagnostics source).filter (·.line = line) ++
          (encodingDiagnostics source).filter (·.line = line) := by
  have listed :
      Diagnostics.ListsByLine (assemble source).diagnostics (raisedDiagnostics source) := by
    rw [report_eq_sorted nonempty]
    exact Diagnostics.sorted_listsByLine (raisedDiagnostics source)
  refine ⟨tokenize_diagnostics source, rfl, encodingDiagnostics_failsWith source, listed,
    length_report nonempty, ?_⟩
  intro line
  rw [← List.filter_append, ← List.filter_append]
  exact listed.stable line

/-- Faults of every stage on two lines, and one by itself on a third. -/
theorem report_listsByLine_mixed :
    "X1, @\nLW X5, 8(X6) LUI X1 $\nJALR\n" ≠ "" ∧
      (assemble "X1, @\nLW X5, 8(X6) LUI X1 $\nJALR\n").diagnostics.length = 7 ∧
      (assemble "X1, @\nLW X5, 8(X6) LUI X1 $\nJALR\n").diagnostics.filter (·.line = 1) =
        [⟨1, "unexpected character: '@'"⟩, ⟨1, "unexpected token: X1, expected an opcode"⟩,
          ⟨1, "unexpected token: ,, expected an opcode"⟩] ∧
      (assemble "X1, @\nLW X5, 8(X6) LUI X1 $\nJALR\n").diagnostics.filter (·.line = 2) =
        [⟨2, "unexpected character: '$'"⟩,
          ⟨2, "instruction LW operand 2: expected REG, found IMM"⟩,
          ⟨2, "instruction LUI expects 2 operands, but got 1"⟩] := by
  have nonempty : "X1, @\nLW X5, 8(X6) LUI X1 $\nJALR\n" ≠ "" := by decide
  obtain ⟨_, _, _, _, length, onLines⟩ := report_listsByLine nonempty
  refine ⟨nonempty, length.trans ?_, (onLines 1).trans ?_, (onLines 2).trans ?_⟩
  · decide +kernel
  · decide +kernel
  · decide +kernel

end RiscAssembler
