import RiscAssembler.Proofs.Machine.Faults
import RiscAssembler.Proofs.Machine.Layout

/-!
Contract: the word of an instruction stands for what the instruction asks for.

Owns:
- the operands that tokens give, as a relation, and with it when an instruction has a word;
- the immediates that a format holds unchanged.

The spelling and the line of a token have no part in the word. Nothing is assumed of the register
numbers and integers of an instruction: it may have been built by hand.

Main statement: `decode_of_encode`.
-/

namespace RiscAssembler

/-! ### Operands -/

/-- The tokens of an operand list give these values as operands of these kinds. -/
def ReadAs : (kinds : List OperandKind) → List Token → OperandValues kinds → Prop
  | [], [], () => True
  | kind :: kinds, operand :: operands, (value, values) =>
      kind.read operand.kind = some value ∧ ReadAs kinds operands values
  | _, _, _ => False

theorem readOperands_eq_ok_iff {index : Nat} {kinds : List OperandKind} {operands : List Token}
    {sameLength : operands.length = kinds.length} {values : OperandValues kinds} :
    readOperands index kinds operands sameLength = .ok values ↔ ReadAs kinds operands values := by
  induction kinds generalizing index operands with
  | nil =>
      obtain rfl := List.length_eq_zero_iff.mp sameLength
      simp [readOperands, ReadAs]
  | cons kind kinds inductionHypothesis =>
      obtain ⟨value, values⟩ := values
      cases operands with
      | nil => exact absurd sameLength (by simp)
      | cons operand operands =>
          have restLength : operands.length = kinds.length := by simpa using sameLength
          have tail : readOperands (index + 1) kinds operands restLength = .ok values ↔ _ :=
            inductionHypothesis
          simp only [readOperands, ReadAs]
          rw [← tail]
          cases kind.read operand.kind with
          | none => simp
          | some found =>
              cases readOperands (index + 1) kinds operands restLength <;> simp

namespace ReadAs

theorem eq_nil {operands : List Token} {values : OperandValues []}
    (read : ReadAs [] operands values) : operands = [] := by
  cases operands with
  | nil => rfl
  | cons operand operands => exact read.elim

theorem uncons {kind : OperandKind} {kinds : List OperandKind} {operands : List Token}
    {values : OperandValues (kind :: kinds)} (read : ReadAs (kind :: kinds) operands values) :
    ∃ operand rest, operands = operand :: rest ∧ kind.read operand.kind = some values.1 ∧
      ReadAs kinds rest values.2 := by
  cases operands with
  | nil => exact read.elim
  | cons operand rest => exact ⟨operand, rest, rfl, read.1, read.2⟩

theorem length_eq {kinds : List OperandKind} {operands : List Token}
    {values : OperandValues kinds} (read : ReadAs kinds operands values) :
    operands.length = kinds.length := by
  induction kinds generalizing operands with
  | nil => rw [read.eq_nil, List.length_nil, List.length_nil]
  | cons kind kinds inductionHypothesis =>
      obtain ⟨operand, rest, rfl, _, restRead⟩ := read.uncons
      exact congrArg (· + 1) (inductionHypothesis restRead)

end ReadAs

namespace Instruction

/-- An instruction has a word if its mnemonic can be encoded and its operands have a value each. -/
theorem encode_eq_ok_iff {instruction : Instruction} {word : Word} :
    instruction.encode = .ok word ↔
      ∃ pattern values, instruction.mnemonic.pattern? = some pattern ∧
        ReadAs pattern.format.operands instruction.operands values ∧
        pattern.word values = word := by
  constructor
  · intro accepted
    unfold encode at accepted
    split at accepted
    · cases accepted
    · rename_i pattern encodable
      split at accepted
      · split at accepted
        · cases accepted
        · rename_i values read
          exact ⟨pattern, values, encodable, readOperands_eq_ok_iff.mp read,
            Except.ok.inj accepted⟩
      · cases accepted
  · rintro ⟨pattern, values, encodable, read, rfl⟩
    have given : readOperands 1 pattern.format.operands instruction.operands read.length_eq =
        .ok values := readOperands_eq_ok_iff.mpr read
    exact encode_of_values encodable given

end Instruction

/-! ### Kinds alone -/

/-- Tokens of the same kinds give the same values. -/
theorem ReadAs.of_kinds_eq {kinds : List OperandKind} {left right : List Token}
    (same : left.map Token.kind = right.map Token.kind) {values : OperandValues kinds}
    (read : ReadAs kinds left values) : ReadAs kinds right values := by
  induction kinds generalizing left right with
  | nil =>
      obtain rfl := read.eq_nil
      obtain rfl := List.map_eq_nil_iff.mp same.symm
      exact read
  | cons kind kinds inductionHypothesis =>
      obtain ⟨operand, rest, rfl, first, restRead⟩ := read.uncons
      obtain ⟨other, more, rfl, sameKind, sameRest⟩ := List.map_eq_cons_iff.mp same.symm
      refine ⟨?_, inductionHypothesis sameRest.symm restRead⟩
      rw [sameKind]
      exact first

namespace Instruction

section Kinds

variable {left right : Instruction} (mnemonic : left.mnemonic = right.mnemonic)
  (kinds : left.operands.map Token.kind = right.operands.map Token.kind)
include mnemonic kinds

theorem encode_ok_of_kinds_eq {word : Word} (accepted : left.encode = .ok word) :
    right.encode = .ok word := by
  obtain ⟨pattern, values, isPattern, read, whole⟩ := encode_eq_ok_iff.mp accepted
  rw [mnemonic] at isPattern
  exact encode_eq_ok_iff.mpr ⟨pattern, values, isPattern, read.of_kinds_eq kinds, whole⟩

/-- The output line of an instruction is known from its mnemonic and the kinds of its operands. -/
theorem encodeLine_value_of_kinds_eq : left.encodeLine.value = right.encodeLine.value := by
  cases result : left.encode with
  | ok word =>
      have other := encode_ok_of_kinds_eq mnemonic kinds result
      rw [encodeLine, encodeLine, result, other]
  | error fault =>
      cases other : right.encode with
      | ok word =>
          have back := encode_ok_of_kinds_eq mnemonic.symm kinds.symm other
          rw [result] at back
          cases back
      | error otherFault => rw [encodeLine, encodeLine, result, other]

end Kinds

/-! ### Fields -/

theorem registerField?_eq (operand : Token) :
    registerField? operand = OperandKind.register.read operand.kind := by
  obtain ⟨kind, lexeme, line⟩ := operand
  cases kind <;> rfl

theorem immediateValue?_eq (operand : Token) :
    immediateValue? operand = OperandKind.immediate.read operand.kind := by
  obtain ⟨kind, lexeme, line⟩ := operand
  cases kind <;> rfl

theorem upperValue?_eq (operand : Token) :
    upperValue? operand =
      (OperandKind.upperImmediate.read operand.kind).map fun field : BitVec 20 =>
        (field.toNat : Int) := by
  obtain ⟨kind, lexeme, line⟩ := operand
  cases kind with
  | immediate value =>
      exact congrArg some (toNat_ofInt_upper value).symm
  | floatImmediate value =>
      have bound : value.toSingle.toNat / 2 ^ 12 < 2 ^ 20 := by
        have small := value.toSingle.isLt
        omega
      have field : (OperandKind.upperBits value.toSingle).toNat =
          value.toSingle.toNat / Nat.pow 2 12 := by
        rw [OperandKind.upperBits, BitVec.extractLsb'_toNat, Nat.shiftRight_eq_div_pow,
          Nat.mod_eq_of_lt bound, Nat.pow_eq]
      exact congrArg (fun bits : Nat => some (bits : Int)) field.symm
  | _ => rfl

/-- The values of the operands fill the fields that the operands ask for. -/
theorem fields?_of_readAs {format : Format} {operands : List Token}
    {values : OperandValues format.operands} (read : ReadAs format.operands operands values) :
    fields? format operands = some (format.fill values) := by
  cases format with
  | r | f =>
      obtain ⟨rd, _, rfl, readRd, read⟩ := read.uncons
      obtain ⟨rs1, _, rfl, readRs1, read⟩ := read.uncons
      obtain ⟨rs2, _, rfl, readRs2, read⟩ := read.uncons
      obtain rfl := read.eq_nil
      simp [fields?, Format.fill, registerField?_eq, readRd, readRs1, readRs2]
  | i =>
      obtain ⟨rd, _, rfl, readRd, read⟩ := read.uncons
      obtain ⟨rs1, _, rfl, readRs1, read⟩ := read.uncons
      obtain ⟨value, _, rfl, readValue, read⟩ := read.uncons
      obtain rfl := read.eq_nil
      simp [fields?, Format.fill, registerField?_eq, immediateValue?_eq, readRd, readRs1, readValue]
  | s | b =>
      obtain ⟨value, _, rfl, readValue, read⟩ := read.uncons
      obtain ⟨rs2, _, rfl, readRs2, read⟩ := read.uncons
      obtain ⟨rs1, _, rfl, readRs1, read⟩ := read.uncons
      obtain rfl := read.eq_nil
      simp [fields?, Format.fill, registerField?_eq, immediateValue?_eq, readValue, readRs2,
        readRs1]
  | u =>
      obtain ⟨rd, _, rfl, readRd, read⟩ := read.uncons
      obtain ⟨value, _, rfl, readValue, read⟩ := read.uncons
      obtain rfl := read.eq_nil
      simp [fields?, Format.fill, registerField?_eq, upperValue?_eq, readRd, readValue]
  | j =>
      obtain ⟨rd, _, rfl, readRd, read⟩ := read.uncons
      obtain ⟨value, _, rfl, readValue, read⟩ := read.uncons
      obtain rfl := read.eq_nil
      simp [fields?, Format.fill, registerField?_eq, immediateValue?_eq, readRd, readValue]

theorem decode_eq_meaning? {instruction : Instruction} {word : Word}
    (accepted : instruction.encode = .ok word) :
    ∃ decoded, decode word = some decoded ∧ instruction.meaning? = some decoded := by
  obtain ⟨pattern, values, encodable, read, rfl⟩ := encode_eq_ok_iff.mp accepted
  refine ⟨⟨instruction.mnemonic, pattern.format.fill values⟩, decode_word encodable values, ?_⟩
  simp [meaning?, Mnemonic.format?, encodable, fields?_of_readAs read]

end Instruction

/-! ### Immediates -/

/-- The integers that the immediate of a format holds unchanged. -/
def Format.Holds : Format → Int → Prop
  | i, value | s, value => -2 ^ 11 ≤ value ∧ value < 2 ^ 11
  | b, offset => -2 ^ 12 ≤ offset ∧ offset < 2 ^ 12 ∧ offset % 2 = 0
  | u, value => 0 ≤ value ∧ value < 2 ^ 20
  | j, offset => -2 ^ 20 ≤ offset ∧ offset < 2 ^ 20 ∧ offset % 2 = 0
  | r, _ | f, _ => False

/-- The immediate among the fields of a word. -/
def Fields.immediate? : Fields → Option Int
  | i _ _ value | s _ _ value | b _ _ value | u _ value | j _ value => some value
  | r .. | f .. => none

theorem mem_of_register {operand register : Token} {rest : List Token} {field : BitVec 5}
    {value : Int} (read : OperandKind.register.read register.kind = some field)
    (isInteger : operand.kind = .immediate value) (member : operand ∈ register :: rest) :
    operand ∈ rest := by
  rcases List.mem_cons.mp member with rfl | member
  · rw [isInteger] at read
    cases read
  · exact member

/-- An integer operand that the format holds is the immediate of the fields that are filled. -/
theorem ReadAs.immediate?_fill {format : Format} {operands : List Token}
    {values : OperandValues format.operands} (read : ReadAs format.operands operands values)
    {operand : Token} (member : operand ∈ operands) {value : Int}
    (isInteger : operand.kind = .immediate value) (holds : format.Holds value) :
    (format.fill values).immediate? = some value := by
  -- an integer is no register, so it can only be the operand in the place of the immediate
  cases format with
  | r | f => exact holds.elim
  | i =>
      obtain ⟨rd, _, rfl, readRd, read⟩ := read.uncons
      obtain ⟨rs1, _, rfl, readRs1, read⟩ := read.uncons
      obtain ⟨immediate, _, rfl, readValue, read⟩ := read.uncons
      obtain rfl := read.eq_nil
      obtain rfl := List.mem_singleton.mp
        (mem_of_register readRs1 isInteger (mem_of_register readRd isInteger member))
      rw [isInteger] at readValue
      have spelled : values.2.2.1 = value := (Option.some.inj readValue).symm
      simp only [Format.fill, Fields.immediate?, spelled, signedField_of_bounds holds.1 holds.2]
  | s =>
      obtain ⟨immediate, _, rfl, readValue, read⟩ := read.uncons
      obtain ⟨rs2, _, rfl, readRs2, read⟩ := read.uncons
      obtain ⟨rs1, _, rfl, readRs1, read⟩ := read.uncons
      obtain rfl := read.eq_nil
      rcases List.mem_cons.mp member with rfl | member
      · rw [isInteger] at readValue
        have spelled : values.1 = value := (Option.some.inj readValue).symm
        simp only [Format.fill, Fields.immediate?, spelled, signedField_of_bounds holds.1 holds.2]
      · have nowhere := mem_of_register readRs1 isInteger (mem_of_register readRs2 isInteger member)
        exact absurd nowhere List.not_mem_nil
  | b =>
      obtain ⟨immediate, _, rfl, readValue, read⟩ := read.uncons
      obtain ⟨rs2, _, rfl, readRs2, read⟩ := read.uncons
      obtain ⟨rs1, _, rfl, readRs1, read⟩ := read.uncons
      obtain rfl := read.eq_nil
      rcases List.mem_cons.mp member with rfl | member
      · rw [isInteger] at readValue
        have spelled : values.1 = value := (Option.some.inj readValue).symm
        simp only [Format.fill, Fields.immediate?, spelled,
          evenField_of_bounds holds.1 holds.2.1 holds.2.2]
      · have nowhere := mem_of_register readRs1 isInteger (mem_of_register readRs2 isInteger member)
        exact absurd nowhere List.not_mem_nil
  | u =>
      obtain ⟨rd, _, rfl, readRd, read⟩ := read.uncons
      obtain ⟨immediate, _, rfl, readValue, read⟩ := read.uncons
      obtain rfl := read.eq_nil
      obtain rfl := List.mem_singleton.mp (mem_of_register readRd isInteger member)
      rw [isInteger] at readValue
      have spelled : values.2.1 = BitVec.ofInt 20 value := (Option.some.inj readValue).symm
      have small : value % 2 ^ 20 = value := Int.emod_eq_of_lt holds.1 holds.2
      simp only [Format.fill, Fields.immediate?, spelled, toNat_ofInt_upper, small]
  | j =>
      obtain ⟨rd, _, rfl, readRd, read⟩ := read.uncons
      obtain ⟨immediate, _, rfl, readValue, read⟩ := read.uncons
      obtain rfl := read.eq_nil
      obtain rfl := List.mem_singleton.mp (mem_of_register readRd isInteger member)
      rw [isInteger] at readValue
      have spelled : values.2.1 = value := (Option.some.inj readValue).symm
      simp only [Format.fill, Fields.immediate?, spelled,
        evenField_of_bounds holds.1 holds.2.1 holds.2.2]

/-- The word of an instruction stands for the mnemonic of the instruction and for what its operands
ask for: the registers modulo 32 in their roles, and the integer cut to its field. An integer that
the field can hold is not changed by that. So two instructions with a word have the same word if
and only if they ask for the same. -/
theorem decode_of_encode {instruction : Instruction} {word : Word}
    (accepted : instruction.encode = .ok word) :
    (∃ decoded, decode word = some decoded ∧ instruction.meaning? = some decoded ∧
      ∀ format, instruction.mnemonic.format? = some format →
        ∀ operand ∈ instruction.operands, ∀ value, operand.kind = .immediate value →
          format.Holds value → decoded.fields.immediate? = some value) ∧
      ∀ other otherWord, Instruction.encode other = .ok otherWord →
        (otherWord = word ↔ other.meaning? = instruction.meaning?) := by
  obtain ⟨decoded, isDecoded, means⟩ := Instruction.decode_eq_meaning? accepted
  refine ⟨⟨decoded, isDecoded, means, ?_⟩, ?_⟩
  · intro format isFormat operand member value isInteger holds
    obtain ⟨pattern, values, encodable, read, rfl⟩ := Instruction.encode_eq_ok_iff.mp accepted
    obtain rfl : pattern.format = format := by
      simpa [Mnemonic.format?, encodable] using isFormat
    obtain rfl := Option.some.inj ((decode_word encodable values).symm.trans isDecoded)
    exact read.immediate?_fill member isInteger holds
  · intro other otherWord otherAccepted
    obtain ⟨otherDecoded, isOther, otherMeans⟩ := Instruction.decode_eq_meaning? otherAccepted
    constructor
    · rintro rfl
      rw [otherMeans, means, ← isOther, ← isDecoded]
    · intro sameMeaning
      rw [otherMeans, means] at sameMeaning
      obtain rfl := Option.some.inj sameMeaning
      exact decode_injective isOther isDecoded

/-- A branch whose register numbers wrap and whose offset is negative. -/
theorem decode_of_encode_branch :
    (Instruction.mk .beq [⟨.immediate (-8), "-8", 1⟩, ⟨.register 33, "X33", 1⟩,
      ⟨.register 200, "X200", 1⟩] 1).encode = .ok 0xFE140CE3#32 ∧
      decode 0xFE140CE3#32 = some ⟨.beq, .b 8 1 (-8)⟩ := by
  have accepted : (Instruction.mk .beq [⟨.immediate (-8), "-8", 1⟩, ⟨.register 33, "X33", 1⟩,
      ⟨.register 200, "X200", 1⟩] 1).encode = .ok 0xFE140CE3#32 := rfl
  obtain ⟨⟨decoded, isDecoded, means, _⟩, _⟩ := decode_of_encode accepted
  refine ⟨accepted, isDecoded.trans ?_⟩
  rw [← means]
  decide

end RiscAssembler
