import RiscAssembler.Token.Basic

/-!
Contract: machine words, the instruction formats and the operands that each one takes.

Owns:
- the width of a machine word, its text of thirty-two binary digits with the most significant first,
  and the word that such a text spells;
- the kinds of operand, and the value that a token gives as an operand of a kind;
- the formats, with the kinds of their operands in the order in which they are written;
- the values of all operands of a format, one component per operand.

A component of `OperandValues` has the type of its operand, so an encoder that has the values
cannot lack one or take it for one of another kind.
-/

namespace RiscAssembler

/-! ### Words -/

/-- A machine instruction, 32 bits wide. -/
abbrev Word : Type := BitVec 32

namespace Word

/-- The binary digits of a word, the most significant first. -/
def bits (word : Word) : String :=
  String.ofList ((List.range 32).map fun place => if word.getMsbD place then '1' else '0')

/-- The word that thirty-two binary digits spell. -/
def ofBits? (text : String) : Option Word :=
  let digits := text.toList
  if digits.length = 32 ∧ digits.all (fun digit => digit = '0' || digit = '1') then
    some (BitVec.ofNat 32
      (digits.foldl (fun value digit => 2 * value + if digit = '1' then 1 else 0) 0))
  else none

end Word

/-! ### Operands and formats -/

/-- What stands at one place of an operand list. -/
inductive OperandKind where
  | register
  | immediate
  | upperImmediate
deriving DecidableEq, Repr

namespace OperandKind

def name : OperandKind → String
  | register => "REG"
  | immediate => "IMM"
  | upperImmediate => "IMM or IMM_FLOAT"

/-- What an operand of each kind contributes to a machine word: a register field, an integer still
to be cut to its field, or the field of an upper immediate. -/
abbrev Value : OperandKind → Type
  | register => BitVec 5
  | immediate => Int
  | upperImmediate => BitVec 20

/-- The upper twenty bits of a single-precision pattern. -/
def upperBits (pattern : BitVec 32) : BitVec 20 :=
  pattern.extractLsb' 12 20

/-- The value of a token as an operand of a kind, if it can be one. A register counts modulo 32. An
upper immediate is an integer modulo 2^20, or the upper part of a number in single precision. -/
def read : (kind : OperandKind) → TokenKind → Option kind.Value
  | register, .register number => some (BitVec.ofNat 5 number)
  | immediate, .immediate value => some value
  | upperImmediate, .immediate value => some (BitVec.ofInt 20 value)
  | upperImmediate, .floatImmediate value => some (upperBits value.toSingle)
  | _, _ => none

end OperandKind

/-- The values of a list of operands, one component per operand. -/
abbrev OperandValues : List OperandKind → Type
  | [] => Unit
  | kind :: kinds => kind.Value × OperandValues kinds

/-- The formats: register, immediate, store, branch, upper immediate, jump and floating-point. -/
inductive Format where
  | r | i | s | b | u | j | f
deriving DecidableEq, Repr

namespace Format

def name : Format → String
  | r => "R"
  | i => "I"
  | s => "S"
  | b => "B"
  | u => "U"
  | j => "J"
  | f => "F"

/-- The operands of a format, in the order in which they are written. -/
abbrev operands : Format → List OperandKind
  | r => [.register, .register, .register]
  | i => [.register, .register, .immediate]
  | s => [.immediate, .register, .register]
  | b => [.immediate, .register, .register]
  | u => [.register, .upperImmediate]
  | j => [.register, .immediate]
  | f => [.register, .register, .register]

end Format

end RiscAssembler
