import RiscAssembler.Instruction
import RiscAssembler.Machine.Pattern
import RiscAssembler.Text

/-!
Contract: the instruction that a machine word stands for.

Owns:
- the fields of a word, by format, with each immediate as the integer that its bits spell;
- the words that carry the fixed bits of a mnemonic;
- decoding a word;
- the fields that an instruction asks for, taken from its operands by arithmetic alone;
- the line of program text for a word, with its operands in the order in which its format is
  written.

Does not own: the layout in which operands fill a word. Decoding takes a word apart by bit
positions, and the fields that an instruction asks for are read off its operands without any word.
-/

namespace RiscAssembler

/-- The variable content of a machine word, by format. Registers are named by their roles. -/
inductive Fields where
  | r (rd rs1 rs2 : BitVec 5)
  | i (rd rs1 : BitVec 5) (immediate : Int)
  | s (rs1 rs2 : BitVec 5) (immediate : Int)
  | b (rs1 rs2 : BitVec 5) (offset : Int)
  | u (rd : BitVec 5) (immediate : Int)
  | j (rd : BitVec 5) (offset : Int)
  | f (rd rs1 rs2 : BitVec 5)
deriving DecidableEq, Repr

structure Decoded where
  mnemonic : Mnemonic
  fields : Fields
deriving DecidableEq, Repr

namespace Word

def opcode (word : Word) : BitVec 7 := word.extractLsb' 0 7

def rd (word : Word) : BitVec 5 := word.extractLsb' 7 5

def funct3 (word : Word) : BitVec 3 := word.extractLsb' 12 3

def rs1 (word : Word) : BitVec 5 := word.extractLsb' 15 5

def rs2 (word : Word) : BitVec 5 := word.extractLsb' 20 5

def funct7 (word : Word) : BitVec 7 := word.extractLsb' 25 7

def immediate (word : Word) : BitVec 12 := word.extractLsb' 20 12

/-- The immediate of the format S, which lies in two pieces. -/
def storeOffset (word : Word) : BitVec 12 :=
  word.extractLsb' 25 7 ++ word.extractLsb' 7 5

/-- The offset of the format B, which lies in four pieces and is even. -/
def branchOffset (word : Word) : BitVec 13 :=
  word.extractLsb' 31 1 ++ word.extractLsb' 7 1 ++ word.extractLsb' 25 6 ++
    word.extractLsb' 8 4 ++ 0#1

def upperImmediate (word : Word) : BitVec 20 := word.extractLsb' 12 20

/-- The offset of the format J, which lies in four pieces and is even. -/
def jumpOffset (word : Word) : BitVec 21 :=
  word.extractLsb' 31 1 ++ word.extractLsb' 12 8 ++ word.extractLsb' 20 1 ++
    word.extractLsb' 21 10 ++ 0#1

end Word

namespace Pattern

/-- Whether a word carries the fixed bits of a pattern. All other bits of the word are free. -/
def matchesWord (pattern : Pattern) (word : Word) : Bool :=
  match pattern with
  | r funct7 funct3 =>
      word.opcode = 0b0110011 && word.funct3 = funct3 && word.funct7 = funct7
  | i opcode funct3 => word.opcode = opcode && word.funct3 = funct3
  | s funct3 => word.opcode = 0b0100011 && word.funct3 = funct3
  | b funct3 => word.opcode = 0b1100011 && word.funct3 = funct3
  | u => word.opcode = 0b0110111
  | j => word.opcode = 0b1101111
  | f funct5 rounding =>
      word.opcode = 0b1010011 && word.funct3 = rounding && word.funct7 = funct5 ++ 0b00#2

end Pattern

/-- The fields of a word in a format. -/
def Format.fields (format : Format) (word : Word) : Fields :=
  match format with
  | r => .r word.rd word.rs1 word.rs2
  | i => .i word.rd word.rs1 word.immediate.toInt
  | s => .s word.rs1 word.rs2 word.storeOffset.toInt
  | b => .b word.rs1 word.rs2 word.branchOffset.toInt
  | u => .u word.rd word.upperImmediate.toNat
  | j => .j word.rd word.jumpOffset.toInt
  | f => .f word.rd word.rs1 word.rs2

namespace Mnemonic

/-- Whether a word carries the fixed bits of a mnemonic. -/
def matchesWord (mnemonic : Mnemonic) (word : Word) : Bool :=
  mnemonic.pattern?.any (·.matchesWord word)

/-- The mnemonic whose fixed bits a word carries. -/
def ofWord? (word : Word) : Option Mnemonic :=
  all.find? (·.matchesWord word)

end Mnemonic

/-- The instruction that a machine word stands for, if it stands for one. -/
def decode (word : Word) : Option Decoded := do
  let mnemonic ← Mnemonic.ofWord? word
  let format ← mnemonic.format?
  some ⟨mnemonic, format.fields word⟩

/-! ### The fields that an instruction asks for -/

/-- The integer that the low bits of a value spell, the highest of them counting as its sign. -/
def signedField (width : Nat) (value : Int) : Int :=
  value.bmod (Nat.pow 2 width)

/-- The integer that the low bits of a value spell when the lowest of them is cleared. -/
def evenField (width : Nat) (value : Int) : Int :=
  (2 * (value / 2)).bmod (Nat.pow 2 width)

namespace Instruction

def registerField? (operand : Token) : Option (BitVec 5) :=
  match operand.kind with
  | .register number => some (BitVec.ofNat 5 number)
  | _ => none

def immediateValue? (operand : Token) : Option Int :=
  match operand.kind with
  | .immediate value => some value
  | _ => none

/-- The upper immediate of an operand: twenty bits of an integer, or the upper part of a number in
single precision. -/
def upperValue? (operand : Token) : Option Int :=
  match operand.kind with
  | .immediate value => some (value % Int.pow 2 20)
  | .floatImmediate value => some (value.toSingle.toNat / Nat.pow 2 12 : Nat)
  | _ => none

/-- The fields that the operands of an instruction ask for in a format. -/
def fields? (format : Format) (operands : List Token) : Option Fields :=
  match format, operands with
  | .r, [rd, rs1, rs2] => do
      some (.r (← registerField? rd) (← registerField? rs1) (← registerField? rs2))
  | .i, [rd, rs1, value] => do
      some (.i (← registerField? rd) (← registerField? rs1)
        (signedField 12 (← immediateValue? value)))
  | .s, [value, rs2, rs1] => do
      some (.s (← registerField? rs1) (← registerField? rs2)
        (signedField 12 (← immediateValue? value)))
  | .b, [offset, rs2, rs1] => do
      some (.b (← registerField? rs1) (← registerField? rs2)
        (evenField 13 (← immediateValue? offset)))
  | .u, [rd, value] => do some (.u (← registerField? rd) (← upperValue? value))
  | .j, [rd, offset] => do
      some (.j (← registerField? rd) (evenField 21 (← immediateValue? offset)))
  | .f, [rd, rs1, rs2] => do
      some (.f (← registerField? rd) (← registerField? rs1) (← registerField? rs2))
  | _, _ => none

/-- What an instruction asks for, if its operands are of the right number and kinds. -/
def meaning? (instruction : Instruction) : Option Decoded := do
  let format ← instruction.mnemonic.format?
  some ⟨instruction.mnemonic, ← fields? format instruction.operands⟩

end Instruction

/-! ### Disassembly -/

/-- The spelling of the register that a field stands for; field zero is written `X32`. -/
def registerName (field : BitVec 5) : List Char :=
  'X' :: Text.decimal (if field = 0 then 32 else field.toNat)

/-- The operands of the fields of a word, as they are written. -/
def Fields.operands : Fields → List (List Char)
  | r rd rs1 rs2 => [registerName rd, registerName rs1, registerName rs2]
  | i rd rs1 immediate => [registerName rd, registerName rs1, Text.signedDecimal immediate]
  | s rs1 rs2 immediate => [Text.signedDecimal immediate, registerName rs2, registerName rs1]
  | b rs1 rs2 offset => [Text.signedDecimal offset, registerName rs2, registerName rs1]
  | u rd immediate => [registerName rd, Text.signedDecimal immediate]
  | j rd offset => [registerName rd, Text.signedDecimal offset]
  | f rd rs1 rs2 => [registerName rd, registerName rs1, registerName rs2]

def Decoded.text (decoded : Decoded) : String :=
  String.ofList (decoded.mnemonic.name.toList ++ ' ' :: [','].intercalate decoded.fields.operands)

/-- The line of program text for a machine word, if it stands for an instruction. -/
def disassemble (word : Word) : Option String :=
  (decode word).map Decoded.text

end RiscAssembler
