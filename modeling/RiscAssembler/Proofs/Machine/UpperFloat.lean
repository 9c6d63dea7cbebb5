import RiscAssembler.Proofs.FloatingPoint.Narrowing
import RiscAssembler.Proofs.Machine.RoundTrip

/-!
Contract: loading the upper part of a number in single precision.

Owns:
- the word of an upper immediate instruction, for any operand that it takes;
- the upper twenty bits that a floating-point operand fills;
- the integer operand that fills the same bits.

Does not own: which pattern is nearest to a double.

Main statement: `lui_floatImmediate`.
-/

namespace RiscAssembler

open FloatingPoint

namespace Pattern

variable (register : BitVec 5) (field : BitVec 20)

theorem opcode_word_u : (u.word (register, field, ())).opcode = 0b0110111#7 :=
  (matchesWord_iff.mp (matchesWord_word u (register, field, ()))).1

theorem rd_word_u : (u.word (register, field, ())).rd = register := by
  have filled := fields_word u (register, field, ())
  simp only [Format.fields, Format.fill, Fields.u.injEq] at filled
  exact filled.1

theorem upperImmediate_word_u : (u.word (register, field, ())).upperImmediate = field := by
  have filled := fields_word u (register, field, ())
  simp only [Format.fields, Format.fill, Fields.u.injEq, Int.natCast_inj, BitVec.toNat_inj]
    at filled
  exact filled.2

end Pattern

section Lui

variable {register operand : Token} {number : Nat} {field : BitVec 20}

/-- An upper immediate instruction is encoded whatever its register and its upper immediate. -/
theorem encode_lui (isRegister : register.kind = .register number)
    (isUpper : OperandKind.upperImmediate.read operand.kind = some field) (line : Nat) :
    Instruction.encode ⟨.lui, [register, operand], line⟩ =
      .ok (Pattern.u.word (BitVec.ofNat 5 number, field, ())) := by
  have isField : OperandKind.register.read register.kind = some (BitVec.ofNat 5 number) := by
    rw [isRegister]
    rfl
  apply Instruction.encode_eq_ok_iff.mpr
  exact ⟨.u, (BitVec.ofNat 5 number, field, ()), rfl, ⟨isField, isUpper, trivial⟩, rfl⟩

end Lui

/-- The integer that a pattern becomes when its lower twelve bits are shifted out fills the bits of
an upper immediate with the upper bits of the pattern. -/
theorem ofInt_ushiftRight (pattern : BitVec 32) :
    BitVec.ofInt 20 ((pattern >>> 12).toNat : Int) = OperandKind.upperBits pattern := by
  apply BitVec.eq_of_toNat_eq
  rw [BitVec.ofInt_natCast, BitVec.toNat_ofNat, OperandKind.upperBits, BitVec.extractLsb'_toNat,
    BitVec.toNat_ushiftRight]

/-- A floating-point operand of an upper immediate instruction fills the upper immediate with the
upper bits of the nearest pattern of single precision, and a pattern that is no rounding at all
with the bits that it has as an integer. -/
theorem lui_floatImmediate :
    (∀ (double : Double) (register operand : Token) (number line : Nat),
      double.magnitude ≤ FloatingPoint.double.infinity → register.kind = .register number →
      operand.kind = .floatImmediate double →
        ∃ word nearest,
          Instruction.encode ⟨.lui, [register, operand], line⟩ = .ok word ∧
            (∀ pattern, double.NarrowsTo pattern ↔ pattern = nearest) ∧
            word.upperImmediate = nearest.extractLsb' 12 20 ∧
            word.rd.toNat = number % 32 ∧ word.opcode = 0b0110111#7) ∧
      ∀ pattern : BitVec 32, Single.magnitude pattern ≤ single.infinity →
        (∃ double : Double, double.Widens pattern) ∧
          ∀ (double : Double) (register operand integer : Token) (number line : Nat),
            double.Widens pattern → register.kind = .register number →
            operand.kind = .floatImmediate double →
            integer.kind = .immediate ((pattern >>> 12).toNat : Int) →
              Instruction.encode ⟨.lui, [register, operand], line⟩ =
                Instruction.encode ⟨.lui, [register, integer], line⟩ := by
  have isUpper {operand : Token} {double : Double}
      (isFloat : operand.kind = .floatImmediate double) :
      OperandKind.upperImmediate.read operand.kind =
        some (OperandKind.upperBits double.toSingle) := by
    rw [isFloat]
    rfl
  constructor
  · intro double register operand number line ordered isRegister isFloat
    refine ⟨_, double.toSingle, encode_lui isRegister (isUpper isFloat) line, ?_, ?_, ?_, ?_⟩
    · intro pattern
      exact Double.narrowsTo_iff ordered
    · exact Pattern.upperImmediate_word_u _ _
    · rw [Pattern.rd_word_u, BitVec.toNat_ofNat]
    · exact Pattern.opcode_word_u _ _
  · intro pattern ordered
    refine ⟨Double.exists_widens ordered, ?_⟩
    intro double register operand integer number line widens isRegister isFloat isInteger
    have nearest : pattern = double.toSingle :=
      (Double.narrowsTo_iff widens.ordered).mp widens.narrowsTo
    have integerUpper : OperandKind.upperImmediate.read integer.kind =
        some (OperandKind.upperBits double.toSingle) := by
      rw [isInteger, ← nearest, ← ofInt_ushiftRight]
      rfl
    rw [encode_lui isRegister (isUpper isFloat), encode_lui isRegister integerUpper]

/-- The double just half a step below two is as near to the odd pattern below two as to two. The
carry of the rounding reaches the exponent, and with it the upper bits. -/
theorem lui_floatImmediate_tie :
    (∃ word nearest,
      Instruction.encode ⟨.lui, [⟨.register 33, "X33", 1⟩,
          ⟨.floatImmediate ⟨0x3FFFFFFFF0000000#64⟩, "1.99999997019767761230", 1⟩], 1⟩ =
          .ok word ∧
        (∀ pattern, Double.NarrowsTo ⟨0x3FFFFFFFF0000000#64⟩ pattern ↔ pattern = nearest) ∧
        word.upperImmediate = nearest.extractLsb' 12 20 ∧ word.rd.toNat = 33 % 32 ∧
        word.opcode = 0b0110111#7) ∧
      ∃ double : Double, double.Widens 0x40000000#32 ∧
        Instruction.encode ⟨.lui, [⟨.register 1, "X1", 1⟩,
            ⟨.floatImmediate double, "2.0", 1⟩], 1⟩ =
          Instruction.encode ⟨.lui, [⟨.register 1, "X1", 1⟩,
            ⟨.immediate 0x40000, "0x40000", 1⟩], 1⟩ := by
  have widened := lui_floatImmediate.2 0x40000000#32 (by decide)
  constructor
  · exact lui_floatImmediate.1 _ _ _ 33 1 (by decide) rfl rfl
  · obtain ⟨⟨double, widens⟩, same⟩ := widened
    exact ⟨double, widens, same double _ _ _ 1 1 widens rfl rfl rfl⟩

end RiscAssembler
