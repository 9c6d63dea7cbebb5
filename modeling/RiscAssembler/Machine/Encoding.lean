import RiscAssembler.Diagnostic.Basic
import RiscAssembler.Instruction
import RiscAssembler.Machine.Pattern

/-!
Contract: the machine word of an instruction, or the one reason why it has none.

Owns:
- the reasons why an instruction cannot be encoded, each with its message and line;
- the order among them: a mnemonic that cannot be encoded, then a wrong number of operands, then
  the first operand of a wrong kind;
- the output line of an instruction.
-/

namespace RiscAssembler

inductive EncodingFault where
  | unsupported (mnemonic : Mnemonic) (line : Nat)
  | wrongArity (mnemonic : Mnemonic) (expected actual line : Nat)
  | wrongOperand (mnemonic : Mnemonic) (index : Nat) (expected : OperandKind) (found : Token)
deriving DecidableEq, Repr

namespace EncodingFault

/-- The line to blame. An operand of a wrong kind is blamed on its own line. -/
def line : EncodingFault → Nat
  | unsupported _ line => line
  | wrongArity _ _ _ line => line
  | wrongOperand _ _ _ found => found.line

def mnemonic : EncodingFault → Mnemonic
  | unsupported mnemonic _ => mnemonic
  | wrongArity mnemonic _ _ _ => mnemonic
  | wrongOperand mnemonic _ _ _ => mnemonic

def message : EncodingFault → String
  | unsupported mnemonic _ => "unsupported opcode: " ++ mnemonic.name
  | wrongArity mnemonic expected actual _ =>
      "instruction " ++ mnemonic.name ++ " expects " ++ expected.repr ++
        " operands, but got " ++ actual.repr
  | wrongOperand mnemonic index expected found =>
      "instruction " ++ mnemonic.name ++ " operand " ++ index.repr ++ ": expected " ++
        expected.name ++ ", found " ++ found.kind.name

def diagnostic (fault : EncodingFault) : Diagnostic :=
  ⟨fault.line, fault.message⟩

end EncodingFault

/-- An operand that is not of the kind wanted at its place, counted from one. -/
structure OperandMismatch where
  index : Nat
  expected : OperandKind
  found : Token
deriving DecidableEq, Repr

/-- Reads as many operands as are wanted, from the left; the first one that does not fit is
reported. `index` is the place of the first of them. -/
def readOperands (index : Nat) :
    (kinds : List OperandKind) → (operands : List Token) → operands.length = kinds.length →
      Except OperandMismatch (OperandValues kinds)
  | [], _, _ => .ok ()
  | kind :: kinds, operand :: operands, sameLength =>
      match kind.read operand.kind with
      | none => .error ⟨index, kind, operand⟩
      | some value =>
          match readOperands (index + 1) kinds operands (by simpa using sameLength) with
          | .error mismatch => .error mismatch
          | .ok values => .ok (value, values)

namespace Instruction

def operandLine (instruction : Instruction) : Nat :=
  (instruction.operands.head?.map Token.line).getD 0

def encode (instruction : Instruction) : Except EncodingFault Word :=
  match instruction.mnemonic.pattern? with
  | none => .error (.unsupported instruction.mnemonic instruction.line)
  | some pattern =>
      if sameLength : instruction.operands.length = pattern.format.operands.length then
        match readOperands 1 pattern.format.operands instruction.operands sameLength with
        | .error mismatch =>
            .error (.wrongOperand instruction.mnemonic mismatch.index mismatch.expected
              mismatch.found)
        | .ok values => .ok (pattern.word values)
      else
        .error (.wrongArity instruction.mnemonic pattern.format.operands.length
          instruction.operands.length instruction.operandLine)

def errorLine : String := "ERROR"

/-- The output line of an instruction: the digits of its word, or an error line and a diagnostic. -/
def encodeLine (instruction : Instruction) : Reported String :=
  match instruction.encode with
  | .ok word => ⟨word.bits, []⟩
  | .error fault => ⟨errorLine, [fault.diagnostic]⟩

end Instruction

end RiscAssembler
