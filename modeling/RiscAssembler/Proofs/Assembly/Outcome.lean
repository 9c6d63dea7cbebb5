import Mathlib.Data.List.Forall2
import RiscAssembler.Proofs.Assembly.Stages
import RiscAssembler.Proofs.Machine.Bits

/-!
Contract: what an assembly yields for each instruction, and which texts are assembled without
complaint.

Owns:
- the output line of an instruction, which no other instruction has a part in;
- one instruction for each opcode among the tokens, in order;
- for each stage, the texts about which it has nothing to report.

An assembly counts as a success if its report is empty, so every way to fail has to leave something
in the report. The four ways are an empty text, a lexical fault, tokens that do not start with an
opcode and an instruction without a word.

Main statement: `assemble_outcome`.
-/

namespace RiscAssembler

/-! ### Output lines -/

/-- A text is the output for an instruction: the thirty-two binary digits of its word, the most
significant first, or the error line if it has no word. -/
def Instruction.Outputs (instruction : Instruction) (line : String) : Prop :=
  match instruction.encode with
  | .ok word =>
      line.toList.length = 32 ∧
        ∀ place < 32, line.toList[place]? =
          some (if word.toNat.testBit (31 - place) then '1' else '0')
  | .error _ => line = "ERROR"

theorem Word.getMsbD_eq_testBit (word : Word) {place : Nat} (inside : place < 32) :
    word.getMsbD place = word.toNat.testBit (31 - place) := by
  rw [BitVec.getMsbD_eq_getLsbD, decide_eq_true inside, Bool.true_and]
  rfl

namespace Instruction

theorem outputs_encodeLine (instruction : Instruction) :
    instruction.Outputs instruction.encodeLine.value := by
  unfold Outputs encodeLine
  cases instruction.encode with
  | error fault => rfl
  | ok word =>
      refine ⟨word.length_bits, ?_⟩
      intro place inside
      rw [word.getElem?_bits inside, word.getMsbD_eq_testBit inside]

theorem encodeLine_of_ok {instruction : Instruction} {word : Word}
    (encoded : instruction.encode = .ok word) : instruction.encodeLine = ⟨word.bits, []⟩ := by
  rw [encodeLine, encoded]

theorem encodeLine_of_error {instruction : Instruction} {fault : EncodingFault}
    (failed : instruction.encode = .error fault) :
    instruction.encodeLine = ⟨errorLine, [fault.diagnostic]⟩ := by
  rw [encodeLine, failed]

/-- The digits of a word are never taken for the error line. -/
theorem bits_ne_errorLine (word : Word) : word.bits ≠ errorLine := by
  have width := word.length_bits
  intro same
  rw [same] at width
  exact absurd width (by decide)

theorem encodeLine_value_eq_errorLine_iff {instruction : Instruction} :
    instruction.encodeLine.value = errorLine ↔ ∃ fault, instruction.encode = .error fault := by
  unfold encodeLine
  cases instruction.encode with
  | error fault => simp
  | ok word => simp [bits_ne_errorLine word]

theorem encodeLine_diagnostics_eq_nil_iff {instruction : Instruction} :
    instruction.encodeLine.diagnostics = [] ↔ ∃ word, instruction.encode = .ok word := by
  unfold encodeLine
  cases instruction.encode with
  | error fault => simp
  | ok word => simp

end Instruction

/-! ### Instructions -/

theorem assemble_outputs (source : String) :
    List.Forall₂ Instruction.Outputs (assemble source).instructions (assemble source).lines := by
  rw [assemble_lines, List.forall₂_map_right_iff, List.forall₂_same]
  intro instruction _
  exact instruction.outputs_encodeLine

theorem assemble_opcodes (source : String) :
    (assemble source).instructions.map (fun instruction =>
        (TokenKind.opcode instruction.mnemonic, instruction.line)) =
      ((tokenize source).value.filter Token.isOpcode).map fun token =>
        (token.kind, token.line) := by
  rw [assemble_instructions]
  exact segments_opcodes (tokenize source).value

/-- Tokens that start with an opcode make at least one instruction. -/
theorem assemble_instructions_ne_nil {source : String}
    (opens : (tokenize source).value.head?.any Token.isOpcode) :
    (assemble source).instructions ≠ [] := by
  have opcodes := assemble_opcodes source
  intro nothing
  rw [nothing] at opcodes
  cases tokens : (tokenize source).value with
  | nil => simp [tokens] at opens
  | cons token rest =>
      have isOpcode : token.isOpcode := by simpa [tokens] using opens
      simp [tokens, isOpcode] at opcodes

/-! ### Stages without complaint -/

theorem tokenize_diagnostics_eq_nil_iff (source : String) :
    (tokenize source).diagnostics = [] ↔
      lexicalFaults source = [] ∧ (tokenize source).value ≠ [] := by
  rw [tokenize_diagnostics]
  by_cases tokens : (tokenize source).value = []
  · by_cases faults : lexicalFaults source = []
    · simp [tokens, faults]
    · simp [tokens, faults]
  · simp [tokens]

/-- No token is stray if there are none, or if the first of them is an opcode. -/
theorem strayDiagnostics_eq_nil_iff (source : String) :
    strayDiagnostics source = [] ↔
      (tokenize source).value = [] ∨ (tokenize source).value.head?.any Token.isOpcode := by
  unfold strayDiagnostics strayTokens
  cases (tokenize source).value with
  | nil => simp
  | cons token rest =>
      cases isOpcode : token.isOpcode with
      | true => simp [isOpcode]
      | false => simp [isOpcode]

theorem encodingDiagnostics_eq_nil_iff (source : String) :
    encodingDiagnostics source = [] ↔
      ∀ instruction ∈ (assemble source).instructions, ∃ word, instruction.encode = .ok word := by
  unfold encodingDiagnostics
  rw [assemble_instructions, List.flatMap_eq_nil_iff]
  constructor
  · intro silent instruction member
    exact Instruction.encodeLine_diagnostics_eq_nil_iff.mp (silent instruction member)
  · intro encodable instruction member
    exact Instruction.encodeLine_diagnostics_eq_nil_iff.mpr (encodable instruction member)

theorem raisedDiagnostics_eq_nil_iff (source : String) :
    raisedDiagnostics source = [] ↔
      lexicalFaults source = [] ∧ (tokenize source).value.head?.any Token.isOpcode ∧
        ∀ instruction ∈ (assemble source).instructions, ∃ word, instruction.encode = .ok word := by
  unfold raisedDiagnostics
  rw [List.append_eq_nil_iff, List.append_eq_nil_iff, tokenize_diagnostics_eq_nil_iff,
    strayDiagnostics_eq_nil_iff, encodingDiagnostics_eq_nil_iff]
  constructor
  · rintro ⟨⟨⟨noFault, someToken⟩, noStray⟩, encodable⟩
    exact ⟨noFault, noStray.resolve_left someToken, encodable⟩
  · rintro ⟨noFault, opens, encodable⟩
    exact ⟨⟨⟨noFault, tokenize_ne_nil_of_opens opens⟩, .inr opens⟩, encodable⟩

/-! ### Success -/

theorem succeeded_iff_raised_eq_nil {source : String} (nonempty : source.isEmpty = false) :
    (assemble source).succeeded ↔ raisedDiagnostics source = [] := by
  have kept : (assemble source).diagnostics.length = (raisedDiagnostics source).length := by
    rw [assemble_of_nonempty nonempty]
    exact (Diagnostics.sorted_perm _).length_eq
  unfold Assembly.succeeded
  rw [List.isEmpty_iff, ← List.length_eq_zero_iff, kept, List.length_eq_zero_iff]

theorem succeeded_iff (source : String) :
    (assemble source).succeeded ↔
      lexicalFaults source = [] ∧ (tokenize source).value.head?.any Token.isOpcode ∧
        ∀ instruction ∈ (assemble source).instructions, ∃ word, instruction.encode = .ok word := by
  cases empty : source.isEmpty with
  | false => rw [succeeded_iff_raised_eq_nil empty, raisedDiagnostics_eq_nil_iff]
  | true =>
      -- the empty text is reported, and it has no token to start with
      obtain rfl := String.isEmpty_iff.mp empty
      rw [tokenize_value_empty]
      constructor
      · intro success
        cases success
      · rintro ⟨_, opens, _⟩
        cases opens

/-- A success has output, and none of it is an error line. -/
theorem lines_of_succeeded {source : String} (success : (assemble source).succeeded) :
    (assemble source).lines ≠ [] ∧ "ERROR" ∉ (assemble source).lines := by
  obtain ⟨_, opens, encodable⟩ := (succeeded_iff source).mp success
  rw [assemble_lines]
  constructor
  · intro nothing
    exact assemble_instructions_ne_nil opens (List.map_eq_nil_iff.mp nothing)
  · intro member
    obtain ⟨instruction, isInstruction, isError⟩ := List.mem_map.mp member
    obtain ⟨fault, failed⟩ := Instruction.encodeLine_value_eq_errorLine_iff.mp isError
    obtain ⟨word, accepted⟩ := encodable instruction isInstruction
    rw [accepted] at failed
    cases failed

/-- An assembly does not fail in silence. Every instruction has one output line, which depends on
nothing but its own encoding, and every opcode among the tokens makes one instruction, in order. The
report is empty if and only if the text has no lexical fault, starts with an opcode, and every
instruction of it has a word. So a success has output and no error line, and a text without output
is reported. -/
theorem assemble_outcome (source : String) :
    List.Forall₂ Instruction.Outputs (assemble source).instructions (assemble source).lines ∧
      (assemble source).instructions.map (fun instruction =>
          (TokenKind.opcode instruction.mnemonic, instruction.line)) =
        ((tokenize source).value.filter Token.isOpcode).map (fun token =>
          (token.kind, token.line)) ∧
      ((assemble source).succeeded ↔
        lexicalFaults source = [] ∧ (tokenize source).value.head?.any Token.isOpcode ∧
          ∀ instruction ∈ (assemble source).instructions,
            ∃ word, instruction.encode = .ok word) ∧
      ((assemble source).succeeded →
        (assemble source).lines ≠ [] ∧ "ERROR" ∉ (assemble source).lines) ∧
      ((assemble source).lines = [] → (assemble source).diagnostics ≠ []) := by
  refine ⟨assemble_outputs source, assemble_opcodes source, succeeded_iff source,
    lines_of_succeeded, ?_⟩
  intro noLine noDiagnostic
  have success : (assemble source).succeeded := List.isEmpty_iff.mpr noDiagnostic
  exact (lines_of_succeeded success).1 noLine

end RiscAssembler
