import RiscAssembler.Positional.Encoding
import RiscAssembler.Proofs.Machine.RoundTrip

/-!
Contract: encoding by places and shifts never goes wrong, and gives the words of encoding by pieces.

Owns:
- masked values of full width, as pieces of the width of their fields;
- pieces shifted into a word, as pieces in front of one another;
- the agreement of the two tables with the fixed bits of each mnemonic;
- the agreement of the operand check with the reading of operands.

Does not own: the layout of the words.

A value that is masked to a width is a piece of that width, so it fits its field. A field that lies
directly below the pieces placed so far makes them longer by one piece.

Main statement: `encode?_eq`.
-/

namespace RiscAssembler.Positional

/-! ### Masked values -/

section Masks

variable {width : Nat}

theorem toNat_setWidth_of_le (narrow : width ≤ 32) (piece : BitVec width) :
    (piece.setWidth 32).toNat = piece.toNat := by
  rw [BitVec.toNat_setWidth]
  exact Nat.mod_eq_of_lt (piece.isLt.trans_le (Nat.pow_le_pow_right (by decide) narrow))

theorem and_mask (value : Word) {mask : Word} (isMask : mask.toNat = 2 ^ width - 1)
    (narrow : width ≤ 32) : value &&& mask = (value.setWidth width).setWidth 32 := by
  apply BitVec.eq_of_toNat_eq
  rw [toNat_setWidth_of_le narrow, BitVec.toNat_and, isMask, Nat.and_two_pow_sub_one_eq_mod,
    BitVec.toNat_setWidth]

/-- The bits of a field from a place on, masked to a width, are a piece of the field. -/
theorem shifted_and_mask {whole : Nat} (field : BitVec whole) (isWhole : whole ≤ 32)
    (shift : Nat) {mask : Word} (isMask : mask.toNat = 2 ^ width - 1) (narrow : width ≤ 32) :
    field.setWidth 32 >>> shift &&& mask = (field.extractLsb' shift width).setWidth 32 := by
  apply BitVec.eq_of_toNat_eq
  rw [toNat_setWidth_of_le narrow, BitVec.toNat_and, isMask, Nat.and_two_pow_sub_one_eq_mod,
    BitVec.toNat_ushiftRight, toNat_setWidth_of_le isWhole, BitVec.extractLsb'_toNat]

/-- An integer of 64 bits that is masked to a width is the integer at that width. -/
theorem narrow?_ofInt (value : Int) {mask : BitVec 64} (isMask : mask.toNat = 2 ^ width - 1)
    (narrow : width ≤ 32) :
    narrow? (BitVec.ofInt 64 value &&& mask) = some ((BitVec.ofInt width value).setWidth 32) := by
  have same : (BitVec.ofInt 64 value &&& mask).toNat = (BitVec.ofInt width value).toNat := by
    have divides : ((2 ^ width : Nat) : Int) ∣ ((2 ^ 64 : Nat) : Int) :=
      Int.natCast_dvd_natCast.mpr (Nat.pow_dvd_pow 2 (narrow.trans (by decide)))
    have wide : ((value % ((2 ^ 64 : Nat) : Int)).toNat : Int) = value % ((2 ^ 64 : Nat) : Int) :=
      Int.toNat_of_nonneg (Int.emod_nonneg value (by decide))
    have short : ((value % ((2 ^ width : Nat) : Int)).toNat : Int) =
        value % ((2 ^ width : Nat) : Int) :=
      Int.toNat_of_nonneg (Int.emod_nonneg value (by exact_mod_cast (Nat.two_pow_pos width).ne'))
    rw [BitVec.toNat_and, isMask, Nat.and_two_pow_sub_one_eq_mod, BitVec.toNat_ofInt,
      BitVec.toNat_ofInt]
    apply Int.natCast_inj.mp
    rw [Int.natCast_emod, wide, short, Int.emod_emod_of_dvd value divides]
  have small : (BitVec.ofInt width value).toNat < 2 ^ 32 :=
    (BitVec.ofInt width value).isLt.trans_le (Nat.pow_le_pow_right (by decide) narrow)
  rw [narrow?, if_pos (by rwa [same]), Option.some.injEq]
  apply BitVec.eq_of_toNat_eq
  rw [toNat_setWidth_of_le narrow, BitVec.toNat_setWidth, same, Nat.mod_eq_of_lt small]

end Masks

/-! ### Operands at their places -/

section Operands

variable {operands : List Token} {place : Nat} {operand : Token}
  (there : operands[place]? = some operand)
include there

theorem registerAt?_eq {field : BitVec 5}
    (read : OperandKind.register.read operand.kind = some field) :
    registerAt? operands place = some (field.setWidth 32) := by
  obtain ⟨kind, lexeme, line⟩ := operand
  simp only [registerAt?, there, Option.bind_eq_bind, Option.bind_some]
  cases kind with
  | register number =>
      have isField : BitVec.ofNat 5 number = field := Option.some.inj read
      have masked : BitVec.ofNat 32 number &&& 0x1F#32 =
          ((BitVec.ofNat 32 number).setWidth 5).setWidth 32 :=
        and_mask _ rfl (by decide)
      show some (BitVec.ofNat 32 number &&& 0x1F#32) = _
      rw [masked, BitVec.setWidth_ofNat_of_le (by decide), isField]
  | _ => cases read

theorem immediateAt?_eq {value : Int} (width : Nat) {mask : BitVec 64}
    (isMask : mask.toNat = 2 ^ width - 1) (narrow : width ≤ 32)
    (read : OperandKind.immediate.read operand.kind = some value) :
    immediateAt? operands place mask = some ((BitVec.ofInt width value).setWidth 32) := by
  obtain ⟨kind, lexeme, line⟩ := operand
  simp only [immediateAt?, there, Option.bind_eq_bind, Option.bind_some]
  cases kind with
  | immediate other =>
      have same : other = value := Option.some.inj read
      rw [same]
      exact narrow?_ofInt value isMask narrow
  | _ => cases read

theorem upperAt?_eq {field : BitVec 20}
    (read : OperandKind.upperImmediate.read operand.kind = some field) :
    upperAt? operands place = some (field.setWidth 32) := by
  obtain ⟨kind, lexeme, line⟩ := operand
  simp only [upperAt?, there, Option.bind_eq_bind, Option.bind_some]
  cases kind with
  | immediate value =>
      have isField : BitVec.ofInt 20 value = field := Option.some.inj read
      rw [← isField]
      exact narrow?_ofInt value rfl (by decide)
  | floatImmediate value =>
      have isField : OperandKind.upperBits value.toSingle = field := Option.some.inj read
      rw [← isField, Option.some.injEq]
      apply BitVec.eq_of_toNat_eq
      rw [toNat_setWidth_of_le (by decide), OperandKind.upperBits, BitVec.extractLsb'_toNat,
        BitVec.toNat_ushiftRight]
      have small := value.toSingle.isLt
      rw [Nat.shiftRight_eq_div_pow]
      omega
  | _ => cases read

end Operands

/-! ### Fields of a word -/

section Fields

variable {upper width limit shift : Nat} (fields : List Field)

theorem placed?_piece (narrow : width ≤ 32) (below : shift + width ≤ limit) (word : Word)
    (piece : BitVec width) :
    placed? limit word (⟨piece.setWidth 32, width, shift⟩ :: fields) =
      placed? shift (word ||| piece.setWidth 32 <<< shift) fields := by
  rw [placed?, if_pos]
  exact ⟨by rw [toNat_setWidth_of_le narrow]; exact piece.isLt, below⟩

theorem shifted_append (fits : upper + limit = 32) (below : shift + width = limit)
    (pieces : BitVec upper) (piece : BitVec width) :
    pieces.setWidth 32 <<< limit ||| piece.setWidth 32 <<< shift =
      (pieces ++ piece).setWidth 32 <<< shift := by
  apply BitVec.eq_of_toNat_eq
  rw [BitVec.toNat_or, BitVec.toNat_shiftLeft, BitVec.toNat_shiftLeft, BitVec.toNat_shiftLeft,
    toNat_setWidth_of_le (by omega), toNat_setWidth_of_le (by omega),
    toNat_setWidth_of_le (by omega), BitVec.toNat_append, Nat.shiftLeft_or_distrib,
    ← Nat.shiftLeft_add, Nat.or_mod_two_pow, ← below, Nat.add_comm width shift]

/-- A piece at the top of a word. -/
theorem word?_cons (top : shift + width = 32) (piece : BitVec width) :
    word? (⟨piece.setWidth 32, width, shift⟩ :: fields) =
      placed? shift (piece.setWidth 32 <<< shift) fields := by
  have nothing (bits : Word) : 0 ||| bits = bits := BitVec.zero_or
  rw [word?, placed?_piece fields (by omega) top.le, nothing]

/-- A piece directly below others makes them longer. -/
theorem placed?_append (fits : upper + limit = 32) (below : shift + width = limit)
    (pieces : BitVec upper) (piece : BitVec width) :
    placed? limit (pieces.setWidth 32 <<< limit) (⟨piece.setWidth 32, width, shift⟩ :: fields) =
      placed? shift ((pieces ++ piece).setWidth 32 <<< shift) fields := by
  rw [placed?_piece fields (by omega) below.le, shifted_append fits below]

/-- A piece that leaves a gap to those above it follows on zeros. -/
theorem placed?_gap (gap : Nat) (fits : upper + limit = 32) (below : shift + width + gap = limit)
    (pieces : BitVec upper) (piece : BitVec width) :
    placed? limit (pieces.setWidth 32 <<< limit) (⟨piece.setWidth 32, width, shift⟩ :: fields) =
      placed? shift ((pieces ++ BitVec.ofNat gap 0 ++ piece).setWidth 32 <<< shift) fields := by
  have zeros : pieces.setWidth 32 <<< limit =
      (pieces ++ BitVec.ofNat gap 0).setWidth 32 <<< (shift + width) := by
    rw [← shifted_append fits below, BitVec.setWidth_zero, BitVec.zero_shiftLeft, BitVec.or_zero]
  rw [placed?_piece fields (by omega) (by omega), zeros, shifted_append (by omega) rfl]

theorem placed?_nil (pieces : Word) : placed? 0 (pieces.setWidth 32 <<< 0) [] = some pieces := by
  rw [placed?, BitVec.shiftLeft_zero, BitVec.setWidth_eq]

end Fields

/-! ### Encoders -/

section Encoders

variable {rd rs1 rs2 operand : Token} {fieldRd fieldRs1 fieldRs2 : BitVec 5} {value : Int}
  (readRd : OperandKind.register.read rd.kind = some fieldRd)
  (readRs1 : OperandKind.register.read rs1.kind = some fieldRs1)
  (readRs2 : OperandKind.register.read rs2.kind = some fieldRs2)
  (readValue : OperandKind.immediate.read operand.kind = some value)

include readRd readRs1 readRs2 in
theorem encodeR?_eq (funct7 : BitVec 7) (funct3 : BitVec 3) :
    encodeR? [rd, rs1, rs2] (funct7.setWidth 32) (funct3.setWidth 32) =
      some ((Pattern.r funct7 funct3).word (fieldRd, fieldRs1, fieldRs2, ())) := by
  have rdAt : registerAt? [rd, rs1, rs2] 0 = _ := registerAt?_eq rfl readRd
  have rs1At : registerAt? [rd, rs1, rs2] 1 = _ := registerAt?_eq rfl readRs1
  have rs2At : registerAt? [rd, rs1, rs2] 2 = _ := registerAt?_eq rfl readRs2
  have opcode : (0b0110011 : Word) = (0b0110011#7).setWidth 32 := rfl
  simp only [encodeR?, rdAt, rs1At, rs2At, opcode, Option.bind_eq_bind, Option.bind_some]
  simp (disch := decide) only [word?_cons, placed?_append]
  exact placed?_nil _

include readRd readRs1 readValue in
theorem encodeI?_eq (opcode : BitVec 7) (funct3 : BitVec 3) :
    encodeI? [rd, rs1, operand] (opcode.setWidth 32) (funct3.setWidth 32) =
      some ((Pattern.i opcode funct3).word (fieldRd, fieldRs1, value, ())) := by
  have rdAt : registerAt? [rd, rs1, operand] 0 = _ := registerAt?_eq rfl readRd
  have rs1At : registerAt? [rd, rs1, operand] 1 = _ := registerAt?_eq rfl readRs1
  have valueAt : immediateAt? [rd, rs1, operand] 2 0xFFF = _ :=
    immediateAt?_eq rfl 12 rfl (by decide) readValue
  simp only [encodeI?, rdAt, rs1At, valueAt, Option.bind_eq_bind, Option.bind_some]
  simp (disch := decide) only [word?_cons, placed?_append]
  exact placed?_nil _

include readRs1 readRs2 readValue in
theorem encodeS?_eq (funct3 : BitVec 3) :
    encodeS? [operand, rs2, rs1] (funct3.setWidth 32) =
      some ((Pattern.s funct3).word (value, fieldRs2, fieldRs1, ())) := by
  have valueAt : immediateAt? [operand, rs2, rs1] 0 0xFFF = _ :=
    immediateAt?_eq rfl 12 rfl (by decide) readValue
  have rs2At : registerAt? [operand, rs2, rs1] 1 = _ := registerAt?_eq rfl readRs2
  have rs1At : registerAt? [operand, rs2, rs1] 2 = _ := registerAt?_eq rfl readRs1
  have opcode : (0b0100011 : Word) = (0b0100011#7).setWidth 32 := rfl
  have high (field : BitVec 12) :
      field.setWidth 32 >>> 5 &&& 0x7F = (field.extractLsb' 5 7).setWidth 32 :=
    shifted_and_mask field (by decide) 5 rfl (by decide)
  have low (field : BitVec 12) :
      field.setWidth 32 &&& 0x1F = (field.extractLsb' 0 5).setWidth 32 :=
    shifted_and_mask field (by decide) 0 rfl (by decide)
  simp only [encodeS?, valueAt, rs2At, rs1At, opcode, high, low, Option.bind_eq_bind,
    Option.bind_some]
  simp (disch := decide) only [word?_cons, placed?_append]
  exact placed?_nil _

include readRs1 readRs2 readValue in
theorem encodeB?_eq (funct3 : BitVec 3) :
    encodeB? [operand, rs2, rs1] (funct3.setWidth 32) =
      some ((Pattern.b funct3).word (value, fieldRs2, fieldRs1, ())) := by
  have offsetAt : immediateAt? [operand, rs2, rs1] 0 0x1FFF = _ :=
    immediateAt?_eq rfl 13 rfl (by decide) readValue
  have rs2At : registerAt? [operand, rs2, rs1] 1 = _ := registerAt?_eq rfl readRs2
  have rs1At : registerAt? [operand, rs2, rs1] 2 = _ := registerAt?_eq rfl readRs1
  have opcode : (0b1100011 : Word) = (0b1100011#7).setWidth 32 := rfl
  have bit (field : BitVec 13) (shift : Nat) :
      field.setWidth 32 >>> shift &&& 0x1 = (field.extractLsb' shift 1).setWidth 32 :=
    shifted_and_mask field (by decide) shift rfl (by decide)
  have high (field : BitVec 13) :
      field.setWidth 32 >>> 5 &&& 0x3F = (field.extractLsb' 5 6).setWidth 32 :=
    shifted_and_mask field (by decide) 5 rfl (by decide)
  have low (field : BitVec 13) :
      field.setWidth 32 >>> 1 &&& 0xF = (field.extractLsb' 1 4).setWidth 32 :=
    shifted_and_mask field (by decide) 1 rfl (by decide)
  simp only [encodeB?, offsetAt, rs2At, rs1At, opcode, bit, high, low, Option.bind_eq_bind,
    Option.bind_some]
  simp (disch := decide) only [word?_cons, placed?_append]
  exact placed?_nil _

include readRd in
theorem encodeU?_eq {field : BitVec 20}
    (readUpper : OperandKind.upperImmediate.read operand.kind = some field) :
    encodeU? [rd, operand] = some (Pattern.u.word (fieldRd, field, ())) := by
  have rdAt : registerAt? [rd, operand] 0 = _ := registerAt?_eq rfl readRd
  have valueAt : upperAt? [rd, operand] 1 = _ := upperAt?_eq rfl readUpper
  have opcode : (0b0110111 : Word) = (0b0110111#7).setWidth 32 := rfl
  simp only [encodeU?, rdAt, valueAt, opcode, Option.bind_eq_bind, Option.bind_some]
  simp (disch := decide) only [word?_cons, placed?_append]
  exact placed?_nil _

include readRd readValue in
theorem encodeJ?_eq :
    encodeJ? [rd, operand] = some (Pattern.j.word (fieldRd, value, ())) := by
  have rdAt : registerAt? [rd, operand] 0 = _ := registerAt?_eq rfl readRd
  have offsetAt : immediateAt? [rd, operand] 1 0x1FFFFF = _ :=
    immediateAt?_eq rfl 21 rfl (by decide) readValue
  have opcode : (0b1101111 : Word) = (0b1101111#7).setWidth 32 := rfl
  have bit (field : BitVec 21) (shift : Nat) :
      field.setWidth 32 >>> shift &&& 0x1 = (field.extractLsb' shift 1).setWidth 32 :=
    shifted_and_mask field (by decide) shift rfl (by decide)
  have high (field : BitVec 21) :
      field.setWidth 32 >>> 12 &&& 0xFF = (field.extractLsb' 12 8).setWidth 32 :=
    shifted_and_mask field (by decide) 12 rfl (by decide)
  have low (field : BitVec 21) :
      field.setWidth 32 >>> 1 &&& 0x3FF = (field.extractLsb' 1 10).setWidth 32 :=
    shifted_and_mask field (by decide) 1 rfl (by decide)
  simp only [encodeJ?, rdAt, offsetAt, opcode, bit, high, low, Option.bind_eq_bind,
    Option.bind_some]
  simp (disch := decide) only [word?_cons, placed?_append]
  exact placed?_nil _

include readRd readRs1 readRs2 in
theorem encodeF?_eq (funct5 : BitVec 5) (rounding : BitVec 3) :
    encodeF? [rd, rs1, rs2] (funct5.setWidth 32) (rounding.setWidth 32) =
      some ((Pattern.f funct5 rounding).word (fieldRd, fieldRs1, fieldRs2, ())) := by
  have rdAt : registerAt? [rd, rs1, rs2] 0 = _ := registerAt?_eq rfl readRd
  have rs1At : registerAt? [rd, rs1, rs2] 1 = _ := registerAt?_eq rfl readRs1
  have rs2At : registerAt? [rd, rs1, rs2] 2 = _ := registerAt?_eq rfl readRs2
  have opcode : (0b1010011 : Word) = (0b1010011#7).setWidth 32 := rfl
  simp only [encodeF?, rdAt, rs1At, rs2At, opcode, Option.bind_eq_bind, Option.bind_some]
  simp (disch := decide) only [word?_cons, placed?_append, placed?_gap _ 2]
  exact placed?_nil _

end Encoders

/-! ### The two tables -/

/-- The encoder of the format of a pattern, with the fixed bits of the pattern. -/
def encodePattern? (operands : List Token) : Pattern → Option Word
  | .r funct7 funct3 => encodeR? operands (funct7.setWidth 32) (funct3.setWidth 32)
  | .i opcode funct3 => encodeI? operands (opcode.setWidth 32) (funct3.setWidth 32)
  | .s funct3 => encodeS? operands (funct3.setWidth 32)
  | .b funct3 => encodeB? operands (funct3.setWidth 32)
  | .u => encodeU? operands
  | .j => encodeJ? operands
  | .f funct5 rounding => encodeF? operands (funct5.setWidth 32) (rounding.setWidth 32)

theorem formatOf_eq (mnemonic : Mnemonic) : formatOf mnemonic = mnemonic.format? := by
  cases mnemonic <;> rfl

/-- The table of encoders agrees with the fixed bits of the mnemonics. -/
theorem wordOf?_eq (operands : List Token) (mnemonic : Mnemonic) :
    wordOf? operands mnemonic = mnemonic.pattern?.bind (encodePattern? operands) := by
  cases mnemonic <;> rfl

theorem encodePattern?_eq {pattern : Pattern} {operands : List Token}
    {values : OperandValues pattern.format.operands}
    (read : ReadAs pattern.format.operands operands values) :
    encodePattern? operands pattern = some (pattern.word values) := by
  cases pattern with
  | r funct7 funct3 =>
      obtain ⟨rd, _, rfl, readRd, read⟩ := read.uncons
      obtain ⟨rs1, _, rfl, readRs1, read⟩ := read.uncons
      obtain ⟨rs2, _, rfl, readRs2, read⟩ := read.uncons
      obtain rfl := read.eq_nil
      exact encodeR?_eq readRd readRs1 readRs2 funct7 funct3
  | i opcode funct3 =>
      obtain ⟨rd, _, rfl, readRd, read⟩ := read.uncons
      obtain ⟨rs1, _, rfl, readRs1, read⟩ := read.uncons
      obtain ⟨operand, _, rfl, readValue, read⟩ := read.uncons
      obtain rfl := read.eq_nil
      exact encodeI?_eq readRd readRs1 readValue opcode funct3
  | s funct3 =>
      obtain ⟨operand, _, rfl, readValue, read⟩ := read.uncons
      obtain ⟨rs2, _, rfl, readRs2, read⟩ := read.uncons
      obtain ⟨rs1, _, rfl, readRs1, read⟩ := read.uncons
      obtain rfl := read.eq_nil
      exact encodeS?_eq readRs1 readRs2 readValue funct3
  | b funct3 =>
      obtain ⟨operand, _, rfl, readValue, read⟩ := read.uncons
      obtain ⟨rs2, _, rfl, readRs2, read⟩ := read.uncons
      obtain ⟨rs1, _, rfl, readRs1, read⟩ := read.uncons
      obtain rfl := read.eq_nil
      exact encodeB?_eq readRs1 readRs2 readValue funct3
  | u =>
      obtain ⟨rd, _, rfl, readRd, read⟩ := read.uncons
      obtain ⟨operand, _, rfl, readUpper, read⟩ := read.uncons
      obtain rfl := read.eq_nil
      exact encodeU?_eq readRd readUpper
  | j =>
      obtain ⟨rd, _, rfl, readRd, read⟩ := read.uncons
      obtain ⟨operand, _, rfl, readValue, read⟩ := read.uncons
      obtain rfl := read.eq_nil
      exact encodeJ?_eq readRd readValue
  | f funct5 rounding =>
      obtain ⟨rd, _, rfl, readRd, read⟩ := read.uncons
      obtain ⟨rs1, _, rfl, readRs1, read⟩ := read.uncons
      obtain ⟨rs2, _, rfl, readRs2, read⟩ := read.uncons
      obtain rfl := read.eq_nil
      exact encodeF?_eq readRd readRs1 readRs2 funct5 rounding

/-! ### The check of the operands -/

theorem accepts_eq (kind : OperandKind) (found : TokenKind) :
    accepts kind found = (kind.read found).isSome := by
  cases kind <;> cases found <;> rfl

/-- The check stops where the reading of the operands stops. -/
theorem find?_refused (index : Nat) (kinds : List OperandKind) (operands : List Token)
    (sameLength : operands.length = kinds.length) :
    ((operands.zip kinds).zipIdx index).find? (fun entry => !accepts entry.1.2 entry.1.1.kind) =
      match readOperands index kinds operands sameLength with
      | .ok _ => none
      | .error mismatch => some ((mismatch.found, mismatch.expected), mismatch.index) := by
  induction kinds generalizing index operands with
  | nil =>
      rw [List.zip_nil_right]
      rfl
  | cons kind kinds inductionHypothesis =>
      match operands with
      | operand :: operands =>
          have restLength : operands.length = kinds.length := by
            simpa using sameLength
          have later := inductionHypothesis (index + 1) operands restLength
          rw [List.zip_cons_cons, List.zipIdx_cons, List.find?_cons, accepts_eq, readOperands]
          cases kind.read operand.kind with
          | none => rfl
          | some value =>
              show List.find? _ _ = _
              rw [later]
              cases readOperands (index + 1) kinds operands restLength with
              | ok values => rfl
              | error mismatch => rfl

/-- Encoding by places and shifts never uses an operation where it has no result, and encodes every
instruction as encoding by pieces does. -/
theorem encode?_eq (instruction : Instruction) :
    encode? instruction = some instruction.encode := by
  rw [encode?, formatOf_eq, Mnemonic.format?]
  cases encodable : instruction.mnemonic.pattern? with
  | none =>
      rw [Instruction.encode_of_no_pattern encodable]
      rfl
  | some pattern =>
      by_cases sameLength : instruction.operands.length = pattern.format.operands.length
      · have refused := find?_refused 1 pattern.format.operands instruction.operands sameLength
        simp only [Option.map_some, refusal?, if_pos sameLength]
        rw [refused]
        cases reading : readOperands 1 pattern.format.operands instruction.operands sameLength with
        | error mismatch =>
            rw [Instruction.encode_of_mismatch encodable reading]
            rfl
        | ok values =>
            have read := readOperands_eq_ok_iff.mp reading
            rw [Instruction.encode_of_values encodable reading]
            simp only [Option.map_none]
            rw [wordOf?_eq, encodable, Option.bind_some, encodePattern?_eq read, Option.map_some]
      · rw [Instruction.encode_of_length_ne encodable sameLength]
        simp only [Option.map_some, refusal?, if_neg sameLength]

/-- An encoder has no result for operands that have not been checked. -/
example : wordOf? [] .add = none := rfl

end RiscAssembler.Positional
