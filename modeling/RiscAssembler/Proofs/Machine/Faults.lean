import RiscAssembler.Assembly.Basic
import RiscAssembler.Proofs.Instruction.Segments

/-!
Contract: the faults of an encoding and the lines that they blame.

Owns:
- every fault that an instruction can have, with its line;
- the encoding of an instruction whose tokens are spelled otherwise or stand elsewhere;
- the output lines and the faults of a list of instructions, one instruction at a time.

Main statements: `Instruction.encode_error_cases` and `Instruction.encodeLine_relabel`.
-/

namespace RiscAssembler

/-- The same diagnostic a number of lines further down. One that no line can be blamed for stays
so. -/
def Diagnostic.shifted (diagnostic : Diagnostic) (count : Nat) : Diagnostic :=
  if diagnostic.line = 0 then diagnostic
  else { diagnostic with line := diagnostic.line + count }

/-- The same diagnostic for another line. One that no line can be blamed for stays so. -/
def Diagnostic.relocate (move : Nat → Nat) (diagnostic : Diagnostic) : Diagnostic :=
  if diagnostic.line = 0 then diagnostic else { diagnostic with line := move diagnostic.line }

theorem Diagnostic.relocate_id : Diagnostic.relocate id = id := by
  funext diagnostic
  exact ite_self diagnostic

/-- The same fault of tokens that are spelled otherwise and stand elsewhere. One that no line can
be blamed for stays so. -/
def EncodingFault.relabel (spell : String → String) (move : Nat → Nat) :
    EncodingFault → EncodingFault
  | .unsupported mnemonic line => .unsupported mnemonic (move line)
  | .wrongArity mnemonic expected actual line =>
      .wrongArity mnemonic expected actual (if line = 0 then 0 else move line)
  | .wrongOperand mnemonic index expected found =>
      .wrongOperand mnemonic index expected (found.relabel spell move)

def OperandMismatch.relabel (spell : String → String) (move : Nat → Nat)
    (mismatch : OperandMismatch) : OperandMismatch :=
  { mismatch with found := mismatch.found.relabel spell move }

/-! ### The faults of an instruction -/

theorem found_mem_of_readOperands {index : Nat} {kinds : List OperandKind}
    {operands : List Token} {sameLength : operands.length = kinds.length}
    {mismatch : OperandMismatch}
    (failed : readOperands index kinds operands sameLength = .error mismatch) :
    mismatch.found ∈ operands := by
  induction kinds generalizing index operands with
  | nil => simp [readOperands] at failed
  | cons kind kinds inductionHypothesis =>
      match operands with
      | operand :: operands =>
          unfold readOperands at failed
          split at failed
          · cases failed
            exact List.mem_cons_self
          · split at failed
            · rename_i other later
              cases failed
              exact List.mem_cons_of_mem operand (inductionHypothesis later)
            · cases failed

theorem readOperands_relabel (spell : String → String) (move : Nat → Nat) (index : Nat)
    (kinds : List OperandKind) (operands : List Token)
    (sameLength : operands.length = kinds.length)
    (relabelledLength : (operands.map (Token.relabel spell move)).length = kinds.length) :
    readOperands index kinds (operands.map (Token.relabel spell move)) relabelledLength =
      (readOperands index kinds operands sameLength).mapError
        (OperandMismatch.relabel spell move) := by
  induction kinds generalizing index operands with
  | nil => rfl
  | cons kind kinds inductionHypothesis =>
      match operands with
      | operand :: operands =>
          have sameKind : (operand.relabel spell move).kind = operand.kind := rfl
          simp only [List.map_cons, readOperands, sameKind]
          cases kind.read operand.kind with
          | none => rfl
          | some value =>
              simp only
              rw [inductionHypothesis (index + 1) operands (by simpa using sameLength)]
              cases readOperands (index + 1) kinds operands (by simpa using sameLength) <;> rfl

namespace Instruction

section Verdict

variable {instruction : Instruction} {pattern : Pattern}

theorem encode_of_no_pattern (none : instruction.mnemonic.pattern? = none) :
    instruction.encode = .error (.unsupported instruction.mnemonic instruction.line) := by
  simp [encode, none]

theorem encode_of_length_ne (encodable : instruction.mnemonic.pattern? = some pattern)
    (wrong : instruction.operands.length ≠ pattern.format.operands.length) :
    instruction.encode = .error (.wrongArity instruction.mnemonic pattern.format.operands.length
      instruction.operands.length instruction.operandLine) := by
  simp [encode, encodable, wrong]

theorem encode_of_mismatch (encodable : instruction.mnemonic.pattern? = some pattern)
    {sameLength : instruction.operands.length = pattern.format.operands.length}
    {mismatch : OperandMismatch}
    (failed : readOperands 1 pattern.format.operands instruction.operands sameLength =
      .error mismatch) :
    instruction.encode = .error (.wrongOperand instruction.mnemonic mismatch.index
      mismatch.expected mismatch.found) := by
  simp [encode, encodable, sameLength, failed]

theorem encode_of_values (encodable : instruction.mnemonic.pattern? = some pattern)
    {sameLength : instruction.operands.length = pattern.format.operands.length}
    {values : OperandValues pattern.format.operands}
    (read : readOperands 1 pattern.format.operands instruction.operands sameLength = .ok values) :
    instruction.encode = .ok (pattern.word values) := by
  simp [encode, encodable, sameLength, read]

end Verdict

/-- Everything that can be wrong with an instruction, and what it blames. -/
theorem encode_error_cases {instruction : Instruction} {fault : EncodingFault}
    (failed : instruction.encode = .error fault) :
    fault = .unsupported instruction.mnemonic instruction.line ∨
      (∃ expected, fault = .wrongArity instruction.mnemonic expected instruction.operands.length
        instruction.operandLine) ∨
      ∃ index expected, ∃ found ∈ instruction.operands,
        fault = .wrongOperand instruction.mnemonic index expected found := by
  unfold encode at failed
  split at failed
  · cases failed
    exact .inl rfl
  · split at failed
    · split at failed
      · rename_i mismatch readFailed
        cases failed
        exact .inr (.inr ⟨_, _, _, found_mem_of_readOperands readFailed, rfl⟩)
      · cases failed
    · cases failed
      exact .inr (.inl ⟨_, rfl⟩)

/-- An instruction as a source text has it: no part of it stands on line zero. -/
def Placed (instruction : Instruction) : Prop :=
  instruction.line ≠ 0 ∧ ∀ operand ∈ instruction.operands, operand.line ≠ 0

section Relabel

variable {instruction : Instruction} (placed : instruction.Placed) (spell : String → String)
  (move : Nat → Nat)
include placed

theorem operandLine_relabel :
    (instruction.relabel spell move).operandLine =
      if instruction.operandLine = 0 then 0 else move instruction.operandLine := by
  obtain ⟨mnemonic, operands, line⟩ := instruction
  cases operands with
  | nil => rfl
  | cons operand rest =>
      have positive : operand.line ≠ 0 := placed.2 operand List.mem_cons_self
      simp [operandLine, relabel, Token.relabel, positive]

/-- Where an instruction stands decides the line of its fault, and nothing else. How its operands
are spelled decides nothing. -/
theorem encode_relabel :
    (instruction.relabel spell move).encode =
      instruction.encode.mapError (EncodingFault.relabel spell move) := by
  have sameCount :
      (instruction.relabel spell move).operands.length = instruction.operands.length := by
    simp [relabel]
  cases encodable : instruction.mnemonic.pattern? with
  | none =>
      rw [encode_of_no_pattern encodable]
      exact encode_of_no_pattern encodable
  | some pattern =>
      have stillEncodable : (instruction.relabel spell move).mnemonic.pattern? = some pattern :=
        encodable
      by_cases sameLength : instruction.operands.length = pattern.format.operands.length
      · have relabelledLength := sameCount.trans sameLength
        have read := readOperands_relabel spell move 1 pattern.format.operands
          instruction.operands sameLength relabelledLength
        cases result : readOperands 1 pattern.format.operands instruction.operands sameLength with
        | error mismatch =>
            rw [result] at read
            rw [encode_of_mismatch encodable result]
            exact encode_of_mismatch stillEncodable read
        | ok values =>
            rw [result] at read
            rw [encode_of_values encodable result]
            exact encode_of_values stillEncodable read
      · have relabelledLength :
            (instruction.relabel spell move).operands.length ≠ pattern.format.operands.length :=
          sameCount ▸ sameLength
        have relabelled := encode_of_length_ne stillEncodable relabelledLength
        rw [operandLine_relabel placed, sameCount] at relabelled
        rw [encode_of_length_ne encodable sameLength]
        exact relabelled

theorem diagnostic_relabel {fault : EncodingFault} (failed : instruction.encode = .error fault) :
    (fault.relabel spell move).diagnostic = fault.diagnostic.relocate move := by
  have line : (fault.relabel spell move).line =
      if fault.line = 0 then 0 else move fault.line := by
    rcases encode_error_cases failed with rfl | ⟨expected, rfl⟩ |
      ⟨index, expected, found, member, rfl⟩
    · exact (if_neg placed.1).symm
    · rfl
    · exact (if_neg (placed.2 found member)).symm
  have message : (fault.relabel spell move).message = fault.message := by
    cases fault <;> rfl
  unfold EncodingFault.diagnostic Diagnostic.relocate
  rw [line, message]
  by_cases zero : fault.line = 0
  · rw [if_pos zero, if_pos zero, zero]
  · rw [if_neg zero, if_neg zero]

/-- The output line of an instruction does not depend on where it stands or how it is spelled. -/
theorem encodeLine_relabel :
    (instruction.relabel spell move).encodeLine =
      ⟨instruction.encodeLine.value,
        instruction.encodeLine.diagnostics.map (Diagnostic.relocate move)⟩ := by
  have relabelled := encode_relabel placed spell move
  unfold encodeLine
  cases result : instruction.encode with
  | ok word =>
      rw [result] at relabelled
      rw [relabelled]
      rfl
  | error fault =>
      rw [result] at relabelled
      rw [relabelled]
      simp only [Except.mapError, List.map_cons, List.map_nil,
        diagnostic_relabel placed spell move result]

end Relabel

theorem encodeLine_shifted {instruction : Instruction} (placed : instruction.Placed)
    (count : Nat) :
    (instruction.shifted count).encodeLine =
      ⟨instruction.encodeLine.value, instruction.encodeLine.diagnostics.map (·.shifted count)⟩ :=
  encodeLine_relabel placed id (· + count)

/-- A fault blames line zero, the line of the opcode or the line of an operand. -/
theorem line_of_mem_encodeLine {instruction : Instruction} {diagnostic : Diagnostic}
    (member : diagnostic ∈ instruction.encodeLine.diagnostics) :
    diagnostic.line = 0 ∨ diagnostic.line = instruction.line ∨
      ∃ operand ∈ instruction.operands, diagnostic.line = operand.line := by
  unfold encodeLine at member
  split at member
  · cases member
  · rename_i fault failed
    rw [List.mem_singleton] at member
    subst member
    rcases encode_error_cases failed with rfl | ⟨expected, rfl⟩ |
      ⟨index, expected, found, found_mem, rfl⟩
    · exact .inr (.inl rfl)
    · match operands : instruction.operands with
      | [] =>
          exact .inl (by simp [EncodingFault.diagnostic, EncodingFault.line, operandLine, operands])
      | operand :: rest =>
          refine .inr (.inr ⟨operand, List.mem_cons_self, ?_⟩)
          simp [EncodingFault.diagnostic, EncodingFault.line, operandLine, operands]
    · exact .inr (.inr ⟨found, found_mem, rfl⟩)

end Instruction

/-! ### Lists of instructions -/

theorem encodeLines_value (instructions : List Instruction) :
    (encodeLines instructions).value = instructions.map (·.encodeLine.value) := by
  induction instructions with
  | nil => rfl
  | cons instruction rest inductionHypothesis =>
      simp [encodeLines, inductionHypothesis]

theorem encodeLines_diagnostics (instructions : List Instruction) :
    (encodeLines instructions).diagnostics = instructions.flatMap (·.encodeLine.diagnostics) := by
  induction instructions with
  | nil => rfl
  | cons instruction rest inductionHypothesis =>
      simp [encodeLines, inductionHypothesis]

end RiscAssembler
