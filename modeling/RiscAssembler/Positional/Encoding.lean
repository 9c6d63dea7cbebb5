import Mathlib.Algebra.Group.Nat.Defs
import RiscAssembler.Machine.Encoding

/-!
Contract: encoding with operands taken by their places and fields shifted into a word.

Owns:
- the table of formats, by mnemonic, and the table of encoders, which is another one;
- the value of an operand, taken by its place and masked to its field;
- a word put together with shifts from values of full width.

Nothing here has a default. Every operation that could go wrong gives no result where it would: a
place that is no place of an operand, an operand of another kind, a value that does not fit its
field, a field that reaches into another one or out of the word, and a mnemonic that has no
encoder.

Does not own: why nothing goes wrong. The two tables agree, but nothing in them says so.
-/

namespace RiscAssembler.Positional

/-! ### Operands -/

/-- The format of a mnemonic. One mnemonic has none. -/
def formatOf : Mnemonic → Option Format
  | .add | .sub | .xor | .or | .and => some .r
  | .addi | .xori | .ori | .andi | .lb | .lh | .lw => some .i
  | .sb | .sh | .sw => some .s
  | .beq | .bne => some .b
  | .lui => some .u
  | .jal => some .j
  | .fadd | .fsub | .fmul | .fdiv | .fmin | .fmax | .fsqrt => some .f
  | .jalr => none

def accepts : OperandKind → TokenKind → Bool
  | .register, .register _ => true
  | .immediate, .immediate _ => true
  | .upperImmediate, .immediate _ => true
  | .upperImmediate, .floatImmediate _ => true
  | _, _ => false

/-- Why the operands of an instruction do not fit a format, if they do not. -/
def refusal? (instruction : Instruction) (format : Format) : Option EncodingFault :=
  if instruction.operands.length = format.operands.length then
    (((instruction.operands.zip format.operands).zipIdx 1).find? fun entry =>
        !accepts entry.1.2 entry.1.1.kind).map fun entry =>
      .wrongOperand instruction.mnemonic entry.2 entry.1.2 entry.1.1
  else
    some (.wrongArity instruction.mnemonic format.operands.length instruction.operands.length
      instruction.operandLine)

/-- The low half of a value of 64 bits, if its high half is empty. -/
def narrow? (value : BitVec 64) : Option Word :=
  if value.toNat < 2 ^ 32 then some (value.setWidth 32) else none

section Operands

variable (operands : List Token) (place : Nat)

/-- The number of the register at a place, modulo 32. -/
def registerAt? : Option Word := do
  match (← operands[place]?).kind with
  | .register number => some (BitVec.ofNat 32 number &&& 0x1F#32)
  | _ => none

/-- The low bits of the integer at a place. -/
def immediateAt? (mask : BitVec 64) : Option Word := do
  match (← operands[place]?).kind with
  | .immediate value => narrow? (BitVec.ofInt 64 value &&& mask)
  | _ => none

/-- The upper immediate at a place: the low bits of an integer, or the high bits of a number in
single precision. -/
def upperAt? : Option Word := do
  match (← operands[place]?).kind with
  | .floatImmediate value => some (value.toSingle >>> 12)
  | .immediate value => narrow? (BitVec.ofInt 64 value &&& 0xFFFFF#64)
  | _ => none

end Operands

/-! ### Fields -/

/-- A value, the width of the field that it is meant for, and the place of the lowest bit. -/
structure Field where
  value : Word
  width : Nat
  shift : Nat

/-- Puts fields into a word from the left to the right. Each must fit its width and lie below the
one in front of it. -/
def placed? (limit : Nat) (word : Word) : List Field → Option Word
  | [] => some word
  | field :: fields =>
      if field.value.toNat < 2 ^ field.width ∧ field.shift + field.width ≤ limit then
        placed? field.shift (word ||| field.value <<< field.shift) fields
      else none

def word? (fields : List Field) : Option Word :=
  placed? 32 0 fields

/-! ### Encoders -/

section Encoders

variable (operands : List Token)

def encodeR? (funct7 funct3 : Word) : Option Word := do
  let rd ← registerAt? operands 0
  let rs1 ← registerAt? operands 1
  let rs2 ← registerAt? operands 2
  word? [⟨funct7, 7, 25⟩, ⟨rs2, 5, 20⟩, ⟨rs1, 5, 15⟩, ⟨funct3, 3, 12⟩, ⟨rd, 5, 7⟩,
    ⟨0b0110011, 7, 0⟩]

def encodeI? (opcode funct3 : Word) : Option Word := do
  let rd ← registerAt? operands 0
  let rs1 ← registerAt? operands 1
  let value ← immediateAt? operands 2 0xFFF
  word? [⟨value, 12, 20⟩, ⟨rs1, 5, 15⟩, ⟨funct3, 3, 12⟩, ⟨rd, 5, 7⟩, ⟨opcode, 7, 0⟩]

def encodeS? (funct3 : Word) : Option Word := do
  let value ← immediateAt? operands 0 0xFFF
  let rs2 ← registerAt? operands 1
  let rs1 ← registerAt? operands 2
  word? [⟨value >>> 5 &&& 0x7F, 7, 25⟩, ⟨rs2, 5, 20⟩, ⟨rs1, 5, 15⟩, ⟨funct3, 3, 12⟩,
    ⟨value &&& 0x1F, 5, 7⟩, ⟨0b0100011, 7, 0⟩]

def encodeB? (funct3 : Word) : Option Word := do
  let offset ← immediateAt? operands 0 0x1FFF
  let rs2 ← registerAt? operands 1
  let rs1 ← registerAt? operands 2
  word? [⟨offset >>> 12 &&& 0x1, 1, 31⟩, ⟨offset >>> 5 &&& 0x3F, 6, 25⟩, ⟨rs2, 5, 20⟩,
    ⟨rs1, 5, 15⟩, ⟨funct3, 3, 12⟩, ⟨offset >>> 1 &&& 0xF, 4, 8⟩, ⟨offset >>> 11 &&& 0x1, 1, 7⟩,
    ⟨0b1100011, 7, 0⟩]

def encodeU? : Option Word := do
  let rd ← registerAt? operands 0
  let value ← upperAt? operands 1
  word? [⟨value, 20, 12⟩, ⟨rd, 5, 7⟩, ⟨0b0110111, 7, 0⟩]

def encodeJ? : Option Word := do
  let rd ← registerAt? operands 0
  let offset ← immediateAt? operands 1 0x1FFFFF
  word? [⟨offset >>> 20 &&& 0x1, 1, 31⟩, ⟨offset >>> 1 &&& 0x3FF, 10, 21⟩,
    ⟨offset >>> 11 &&& 0x1, 1, 20⟩, ⟨offset >>> 12 &&& 0xFF, 8, 12⟩, ⟨rd, 5, 7⟩,
    ⟨0b1101111, 7, 0⟩]

/-- Two bits below the topmost field stay clear. -/
def encodeF? (funct5 rounding : Word) : Option Word := do
  let rd ← registerAt? operands 0
  let rs1 ← registerAt? operands 1
  let rs2 ← registerAt? operands 2
  word? [⟨funct5, 5, 27⟩, ⟨rs2, 5, 20⟩, ⟨rs1, 5, 15⟩, ⟨rounding, 3, 12⟩, ⟨rd, 5, 7⟩,
    ⟨0b1010011, 7, 0⟩]

/-- The word of a mnemonic with operands that have been checked. -/
def wordOf? : Mnemonic → Option Word
  | .add => encodeR? operands 0b0000000 0b000
  | .sub => encodeR? operands 0b0100000 0b000
  | .xor => encodeR? operands 0b0000000 0b100
  | .or => encodeR? operands 0b0000000 0b110
  | .and => encodeR? operands 0b0000000 0b111
  | .addi => encodeI? operands 0b0010011 0b000
  | .xori => encodeI? operands 0b0010011 0b100
  | .ori => encodeI? operands 0b0010011 0b110
  | .andi => encodeI? operands 0b0010011 0b111
  | .lb => encodeI? operands 0b0000011 0b000
  | .lh => encodeI? operands 0b0000011 0b001
  | .lw => encodeI? operands 0b0000011 0b010
  | .sb => encodeS? operands 0b000
  | .sh => encodeS? operands 0b001
  | .sw => encodeS? operands 0b010
  | .beq => encodeB? operands 0b000
  | .bne => encodeB? operands 0b001
  | .lui => encodeU? operands
  | .jal => encodeJ? operands
  | .fadd => encodeF? operands 0b00000 0b000
  | .fsub => encodeF? operands 0b00001 0b000
  | .fmul => encodeF? operands 0b00010 0b000
  | .fdiv => encodeF? operands 0b00011 0b000
  | .fmin => encodeF? operands 0b00100 0b001
  | .fmax => encodeF? operands 0b00101 0b010
  | .fsqrt => encodeF? operands 0b00110 0b000
  | .jalr => none

end Encoders

/-- The word of an instruction, or the reason why it has none. No result means that an operation
was used where it has none. -/
def encode? (instruction : Instruction) : Option (Except EncodingFault Word) :=
  match formatOf instruction.mnemonic with
  | none => some (.error (.unsupported instruction.mnemonic instruction.line))
  | some format =>
      match refusal? instruction format with
      | some fault => some (.error fault)
      | none => (wordOf? instruction.operands instruction.mnemonic).map .ok

end RiscAssembler.Positional
