import Mathlib.Data.List.Forall2
import RiscAssembler.Proofs.Machine.RoundTrip

/-!
Contract: which instructions are encoded, and why each of the others is not.

Owns:
- the kinds of token that each kind of operand accepts, as a relation;
- the operand lists that a format accepts;
- the one reason for which an instruction is refused.

An instruction can have several things wrong with it at once. The mnemonic is looked at first, then
the number of operands, then the operands from the left to the right.

Main statement: `encode_verdict`.
-/

namespace RiscAssembler

/-! ### Operands -/

/-- A token of a kind can stand where an operand of another kind is wanted. -/
inductive OperandKind.Accepts : OperandKind → TokenKind → Prop where
  | register (number : Nat) : Accepts .register (.register number)
  | immediate (value : Int) : Accepts .immediate (.immediate value)
  | upperInteger (value : Int) : Accepts .upperImmediate (.immediate value)
  | upperFloat (value : Double) : Accepts .upperImmediate (.floatImmediate value)

/-- Each operand of a list is accepted at its place, and no place is left. -/
abbrev AcceptsAll (kinds : List OperandKind) (operands : List Token) : Prop :=
  List.Forall₂ (fun kind operand => kind.Accepts operand.kind) kinds operands

theorem OperandKind.exists_read_iff {kind : OperandKind} {found : TokenKind} :
    (∃ value, kind.read found = some value) ↔ kind.Accepts found := by
  constructor
  · rintro ⟨value, read⟩
    unfold OperandKind.read at read
    split at read
    · exact .register _
    · exact .immediate _
    · exact .upperInteger _
    · exact .upperFloat _
    · cases read
  · intro accepts
    cases accepts with
    | register | immediate | upperInteger | upperFloat => exact ⟨_, rfl⟩

theorem OperandKind.read_eq_none_iff {kind : OperandKind} {found : TokenKind} :
    kind.read found = none ↔ ¬ kind.Accepts found := by
  rw [← exists_read_iff, ← Option.isSome_iff_exists, Option.not_isSome_iff_eq_none]

theorem exists_readAs_iff {kinds : List OperandKind} {operands : List Token} :
    (∃ values, ReadAs kinds operands values) ↔ AcceptsAll kinds operands := by
  induction kinds generalizing operands with
  | nil =>
      constructor
      · rintro ⟨values, read⟩
        obtain rfl := read.eq_nil
        exact .nil
      · intro accepts
        cases accepts
        exact ⟨(), trivial⟩
  | cons kind kinds inductionHypothesis =>
      constructor
      · rintro ⟨values, read⟩
        obtain ⟨operand, rest, rfl, first, restRead⟩ := read.uncons
        exact .cons (OperandKind.exists_read_iff.mp ⟨_, first⟩)
          (inductionHypothesis.mp ⟨_, restRead⟩)
      · intro accepts
        cases accepts with
        | cons first later =>
            obtain ⟨value, read⟩ := OperandKind.exists_read_iff.mpr first
            obtain ⟨values, restRead⟩ := inductionHypothesis.mpr later
            exact ⟨(value, values), read, restRead⟩

/-- An operand is the first one of a list that is not accepted at its place. -/
structure FirstMismatch (kinds : List OperandKind) (operands : List Token) (place : Nat)
    (expected : OperandKind) (found : Token) : Prop where
  expected_at : kinds[place]? = some expected
  found_at : operands[place]? = some found
  refused : ¬ expected.Accepts found.kind
  accepted_before : AcceptsAll (kinds.take place) (operands.take place)

theorem firstMismatch_cons_iff {kind expected : OperandKind} {kinds : List OperandKind}
    {operand found : Token} {operands : List Token} {place : Nat} :
    FirstMismatch (kind :: kinds) (operand :: operands) place expected found ↔
      (¬ kind.Accepts operand.kind ∧ place = 0 ∧ expected = kind ∧ found = operand) ∨
        (kind.Accepts operand.kind ∧
          ∃ later, place = later + 1 ∧ FirstMismatch kinds operands later expected found) := by
  cases place with
  | zero =>
      constructor
      · rintro ⟨expectedAt, foundAt, refused, _⟩
        cases expectedAt
        cases foundAt
        exact .inl ⟨refused, rfl, rfl, rfl⟩
      · rintro (⟨refused, _, rfl, rfl⟩ | ⟨_, later, impossible, _⟩)
        · exact ⟨rfl, rfl, refused, .nil⟩
        · cases impossible
  | succ place =>
      constructor
      · rintro ⟨expectedAt, foundAt, refused, accepted⟩
        cases accepted with
        | cons first before => exact .inr ⟨first, place, rfl, expectedAt, foundAt, refused, before⟩
      · rintro (⟨_, impossible, _⟩ | ⟨first, later, same, mismatch⟩)
        · cases impossible
        · cases same
          exact ⟨mismatch.expected_at, mismatch.found_at, mismatch.refused,
            .cons first mismatch.accepted_before⟩

section Reading

variable {index : Nat} {kind : OperandKind} {kinds : List OperandKind} {operand : Token}
  {operands : List Token} {mismatch : OperandMismatch}

theorem readOperands_cons_of_refused
    {sameLength : (operand :: operands).length = (kind :: kinds).length}
    (refused : kind.read operand.kind = none) :
    readOperands index (kind :: kinds) (operand :: operands) sameLength =
      .error ⟨index, kind, operand⟩ := by
  rw [readOperands, refused]

theorem readOperands_cons_eq_error_iff
    {sameLength : (operand :: operands).length = (kind :: kinds).length} {value : kind.Value}
    (read : kind.read operand.kind = some value) (restLength : operands.length = kinds.length) :
    readOperands index (kind :: kinds) (operand :: operands) sameLength = .error mismatch ↔
      readOperands (index + 1) kinds operands restLength = .error mismatch := by
  rw [readOperands, read]
  cases readOperands (index + 1) kinds operands restLength <;> simp

/-- Reading stops at the first operand that is not accepted. -/
theorem readOperands_eq_error_iff {sameLength : operands.length = kinds.length} :
    readOperands index kinds operands sameLength = .error mismatch ↔
      ∃ place, mismatch.index = index + place ∧
        FirstMismatch kinds operands place mismatch.expected mismatch.found := by
  induction kinds generalizing index operands with
  | nil =>
      constructor
      · intro failed
        cases failed
      · rintro ⟨place, _, first⟩
        cases first.expected_at
  | cons kind kinds inductionHypothesis =>
      match operands with
      | operand :: operands =>
          simp only [firstMismatch_cons_iff]
          cases read : kind.read operand.kind with
          | none =>
              have refused := OperandKind.read_eq_none_iff.mp read
              rw [readOperands_cons_of_refused read]
              obtain ⟨place, expected, found⟩ := mismatch
              constructor
              · intro failed
                cases failed
                exact ⟨0, rfl, .inl ⟨refused, rfl, rfl, rfl⟩⟩
              · rintro ⟨_, rfl, ⟨_, rfl, rfl, rfl⟩ | ⟨accepts, _⟩⟩
                · rfl
                · exact absurd accepts refused
          | some value =>
              have accepts := OperandKind.exists_read_iff.mp ⟨value, read⟩
              have restLength : operands.length = kinds.length := by simpa using sameLength
              rw [readOperands_cons_eq_error_iff read restLength, inductionHypothesis]
              constructor
              · rintro ⟨place, isIndex, first⟩
                exact ⟨place + 1, by omega, .inr ⟨accepts, place, rfl, first⟩⟩
              · rintro ⟨_, isIndex, ⟨refused, _⟩ | ⟨_, place, rfl, first⟩⟩
                · exact absurd accepts refused
                · exact ⟨place, by omega, first⟩

end Reading

/-! ### Instructions -/

theorem Mnemonic.format?_eq_none_iff {mnemonic : Mnemonic} :
    mnemonic.format? = none ↔ mnemonic = .jalr := by
  cases mnemonic <;> decide

namespace Instruction

/-- The one reason for which an instruction is refused. The number of operands counts only if the
mnemonic can be encoded, and their kinds count only if their number is right. -/
inductive Refused (instruction : Instruction) : EncodingFault → Prop where
  | unsupported (reserved : instruction.mnemonic = .jalr) :
      Refused instruction (.unsupported .jalr instruction.line)
  | wrongArity (format : Format) (encodable : instruction.mnemonic.format? = some format)
      (wrong : instruction.operands.length ≠ format.operands.length) :
      Refused instruction (.wrongArity instruction.mnemonic format.operands.length
        instruction.operands.length ((instruction.operands.head?.map Token.line).getD 0))
  | wrongOperand (format : Format) (encodable : instruction.mnemonic.format? = some format)
      (sameLength : instruction.operands.length = format.operands.length)
      (place : Nat) (expected : OperandKind) (found : Token)
      (first : FirstMismatch format.operands instruction.operands place expected found) :
      Refused instruction (.wrongOperand instruction.mnemonic (place + 1) expected found)

variable {instruction : Instruction}

theorem exists_word_iff :
    (∃ word, instruction.encode = .ok word) ↔
      ∃ format, instruction.mnemonic.format? = some format ∧
        AcceptsAll format.operands instruction.operands := by
  constructor
  · rintro ⟨word, accepted⟩
    obtain ⟨pattern, values, isPattern, read, _⟩ := encode_eq_ok_iff.mp accepted
    refine ⟨pattern.format, ?_, exists_readAs_iff.mp ⟨values, read⟩⟩
    rw [Mnemonic.format?, isPattern]
    rfl
  · rintro ⟨format, isFormat, accepts⟩
    obtain ⟨pattern, isPattern, rfl⟩ := Option.map_eq_some_iff.mp isFormat
    obtain ⟨values, read⟩ := exists_readAs_iff.mpr accepts
    exact ⟨pattern.word values, encode_eq_ok_iff.mpr ⟨pattern, values, isPattern, read, rfl⟩⟩

theorem refused_of_encode_error {fault : EncodingFault}
    (failed : instruction.encode = .error fault) : instruction.Refused fault := by
  unfold encode at failed
  split at failed
  · rename_i noPattern
    have reserved : instruction.mnemonic = .jalr :=
      Mnemonic.format?_eq_none_iff.mp (by rw [Mnemonic.format?, noPattern]; rfl)
    cases failed
    rw [reserved]
    exact .unsupported reserved
  · rename_i pattern isPattern
    have encodable : instruction.mnemonic.format? = some pattern.format := by
      rw [Mnemonic.format?, isPattern]
      rfl
    split at failed
    · rename_i sameLength
      split at failed
      · rename_i mismatch readFailed
        obtain ⟨place, isIndex, first⟩ := readOperands_eq_error_iff.mp readFailed
        cases failed
        rw [isIndex, Nat.add_comm]
        exact .wrongOperand pattern.format encodable sameLength place _ _ first
      · cases failed
    · rename_i wrong
      cases failed
      exact .wrongArity pattern.format encodable wrong

theorem encode_error_of_refused {fault : EncodingFault} (refused : instruction.Refused fault) :
    instruction.encode = .error fault := by
  cases refused with
  | unsupported reserved =>
      have noPattern : instruction.mnemonic.pattern? = none := by rw [reserved]; rfl
      rw [encode_of_no_pattern noPattern, reserved]
  | wrongArity format encodable wrong =>
      obtain ⟨pattern, isPattern, rfl⟩ := Option.map_eq_some_iff.mp encodable
      exact encode_of_length_ne isPattern wrong
  | wrongOperand format encodable sameLength place expected found first =>
      obtain ⟨pattern, isPattern, rfl⟩ := Option.map_eq_some_iff.mp encodable
      have failed : readOperands 1 pattern.format.operands instruction.operands sameLength =
          .error ⟨place + 1, expected, found⟩ :=
        readOperands_eq_error_iff.mpr ⟨place, Nat.add_comm place 1, first⟩
      exact encode_of_mismatch isPattern failed

theorem encode_error_iff {fault : EncodingFault} :
    instruction.encode = .error fault ↔ instruction.Refused fault :=
  ⟨refused_of_encode_error, encode_error_of_refused⟩

end Instruction

/-- An instruction has a word if and only if its mnemonic is not `JALR`, it has as many operands as
its format, and each of them is accepted at its place. Otherwise it is refused for exactly one
reason: first the mnemonic, whatever the operands; then the number of operands, whatever their
kinds; then the first operand that is not accepted, counted from one. What is blamed is the line of
the instruction, that of its first operand if it has any and zero otherwise, or that of the operand
which is not accepted; for the last, the message names the kind that was wanted and the kind that
was found. -/
theorem encode_verdict (instruction : Instruction) :
    ((∃ word, instruction.encode = .ok word) ↔
      instruction.mnemonic ≠ .jalr ∧
        ∃ format, instruction.mnemonic.format? = some format ∧
          instruction.operands.length = format.operands.length ∧
          AcceptsAll format.operands instruction.operands) ∧
      (∀ fault, instruction.encode = .error fault ↔ instruction.Refused fault) ∧
      ∀ fault, instruction.encode = .error fault →
        fault.diagnostic = match fault with
          | .unsupported .. =>
              ⟨instruction.line, "unsupported opcode: " ++ instruction.mnemonic.name⟩
          | .wrongArity _ expected _ _ =>
              ⟨(instruction.operands.head?.map Token.line).getD 0,
                "instruction " ++ instruction.mnemonic.name ++ " expects " ++ expected.repr ++
                  " operands, but got " ++ instruction.operands.length.repr⟩
          | .wrongOperand _ index expected found =>
              ⟨found.line,
                "instruction " ++ instruction.mnemonic.name ++ " operand " ++ index.repr ++
                  ": expected " ++ expected.name ++ ", found " ++ found.kind.name⟩ := by
  refine ⟨?_, fun fault => Instruction.encode_error_iff, fun fault failed => ?_⟩
  · rw [Instruction.exists_word_iff]
    constructor
    · rintro ⟨format, isFormat, accepts⟩
      refine ⟨?_, format, isFormat, accepts.length_eq.symm, accepts⟩
      intro reserved
      rw [Mnemonic.format?_eq_none_iff.mpr reserved] at isFormat
      cases isFormat
    · rintro ⟨_, format, isFormat, _, accepts⟩
      exact ⟨format, isFormat, accepts⟩
  · cases Instruction.refused_of_encode_error failed with
    | unsupported reserved =>
        rw [reserved]
        rfl
    | wrongArity | wrongOperand => rfl

/-- With an operand missing, it does not matter that the others are no registers. -/
example :
    Instruction.encode ⟨.add, [⟨.comma, ",", 3⟩, ⟨.immediate 1, "1", 4⟩], 7⟩ =
      .error (.wrongArity .add 3 2 3) :=
  rfl

end RiscAssembler
