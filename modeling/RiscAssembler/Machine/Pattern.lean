import RiscAssembler.Machine.Format

/-!
Contract: the layout of a machine word.

Owns:
- the fixed bits of each mnemonic that can be encoded;
- the word in which the operands of a format fill the bits between them.

A word is put together from its fields, the most significant first, so fields cannot overlap and
none can be cut. The offset of a branch or a jump is even: its lowest bit is not in the word.
-/

namespace RiscAssembler

/-- The fixed bits of a mnemonic, by format. -/
inductive Pattern where
  | r (funct7 : BitVec 7) (funct3 : BitVec 3)
  | i (opcode : BitVec 7) (funct3 : BitVec 3)
  | s (funct3 : BitVec 3)
  | b (funct3 : BitVec 3)
  | u
  | j
  | f (funct5 : BitVec 5) (rounding : BitVec 3)
deriving DecidableEq, Repr

/-- The fixed bits of a mnemonic; one mnemonic has none and cannot be encoded. -/
def Mnemonic.pattern? : Mnemonic → Option Pattern
  | add => some (.r 0b0000000 0b000)
  | sub => some (.r 0b0100000 0b000)
  | xor => some (.r 0b0000000 0b100)
  | or => some (.r 0b0000000 0b110)
  | and => some (.r 0b0000000 0b111)
  | addi => some (.i 0b0010011 0b000)
  | xori => some (.i 0b0010011 0b100)
  | ori => some (.i 0b0010011 0b110)
  | andi => some (.i 0b0010011 0b111)
  | lb => some (.i 0b0000011 0b000)
  | lh => some (.i 0b0000011 0b001)
  | lw => some (.i 0b0000011 0b010)
  | jalr => none
  | sb => some (.s 0b000)
  | sh => some (.s 0b001)
  | sw => some (.s 0b010)
  | beq => some (.b 0b000)
  | bne => some (.b 0b001)
  | jal => some .j
  | lui => some .u
  | fadd => some (.f 0b00000 0b000)
  | fsub => some (.f 0b00001 0b000)
  | fmul => some (.f 0b00010 0b000)
  | fdiv => some (.f 0b00011 0b000)
  | fmin => some (.f 0b00100 0b001)
  | fmax => some (.f 0b00101 0b010)
  | fsqrt => some (.f 0b00110 0b000)

namespace Pattern

abbrev format : Pattern → Format
  | r .. => .r
  | i .. => .i
  | s .. => .s
  | b .. => .b
  | u => .u
  | j => .j
  | f .. => .f

/-- The machine word of a pattern and the operands of its format. -/
def word : (pattern : Pattern) → OperandValues pattern.format.operands → Word
  | r funct7 funct3, (rd, rs1, rs2, ()) => funct7 ++ rs2 ++ rs1 ++ funct3 ++ rd ++ 0b0110011#7
  | i opcode funct3, (rd, rs1, value, ()) =>
      BitVec.ofInt 12 value ++ rs1 ++ funct3 ++ rd ++ opcode
  | s funct3, (value, rs2, rs1, ()) =>
      let field := BitVec.ofInt 12 value
      field.extractLsb' 5 7 ++ rs2 ++ rs1 ++ funct3 ++ field.extractLsb' 0 5 ++ 0b0100011#7
  | b funct3, (offset, rs2, rs1, ()) =>
      let field := BitVec.ofInt 13 offset
      field.extractLsb' 12 1 ++ field.extractLsb' 5 6 ++ rs2 ++ rs1 ++ funct3 ++
        field.extractLsb' 1 4 ++ field.extractLsb' 11 1 ++ 0b1100011#7
  | u, (rd, field, ()) => field ++ rd ++ 0b0110111#7
  | j, (rd, offset, ()) =>
      let field := BitVec.ofInt 21 offset
      field.extractLsb' 20 1 ++ field.extractLsb' 1 10 ++ field.extractLsb' 11 1 ++
        field.extractLsb' 12 8 ++ rd ++ 0b1101111#7
  | f funct5 rounding, (rd, rs1, rs2, ()) =>
      funct5 ++ 0b00#2 ++ rs2 ++ rs1 ++ rounding ++ rd ++ 0b1010011#7

end Pattern

def Mnemonic.format? (mnemonic : Mnemonic) : Option Format :=
  mnemonic.pattern?.map Pattern.format

end RiscAssembler
