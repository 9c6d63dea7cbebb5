import RiscAssembler.Dump.Basic
import RiscAssembler.Json.Reader

/-!
Contract: tokens, instructions and diagnostics read back from JSON values.

A value is read exactly if it has the form in which it is dumped. Floating-point immediates are read
from values alone: the reader of JSON texts leaves their numbers out.
-/

namespace RiscAssembler

def TokenKind.ofJson? : Json.Value → Option TokenKind
  | .object [("Opcode", .string name)] => (Mnemonic.ofName? name).map .opcode
  | .object [("Register", .integer number)] =>
      if 0 ≤ number then some (.register number.toNat) else none
  | .object [("Imm", .integer value)] => some (.immediate value)
  | .object [("ImmFloat", .float value)] => some (.floatImmediate value)
  | .string "LParen" => some .leftParenthesis
  | .string "RParen" => some .rightParenthesis
  | .string "Comma" => some .comma
  | _ => none

/-- A line number, which is never negative. -/
def lineOfJson? : Json.Value → Option Nat
  | .integer line => if 0 ≤ line then some line.toNat else none
  | _ => none

def Token.ofJson? : Json.Value → Option Token
  | .object [("kind", kind), ("lexeme", .string lexeme), ("line", line)] => do
      some ⟨← TokenKind.ofJson? kind, lexeme, ← lineOfJson? line⟩
  | _ => none

def Instruction.ofJson? : Json.Value → Option Instruction
  | .object [("opcode", .string name), ("operands", .array operands), ("line", line)] => do
      some ⟨← Mnemonic.ofName? name, ← operands.mapM Token.ofJson?, ← lineOfJson? line⟩
  | _ => none

def Diagnostic.ofJson? : Json.Value → Option Diagnostic
  | .object [("line", line), ("message", .string message)] => do
      some ⟨← lineOfJson? line, message⟩
  | _ => none

namespace Dump

def items? (item? : Json.Value → Option α) : Json.Value → Option (List α)
  | .array items => items.mapM item?
  | _ => none

def list? (item? : Json.Value → Option α) (text : String) : Option (List α) := do
  items? item? (← Json.Value.ofText? text)

def tokens? (text : String) : Option (List Token) :=
  list? Token.ofJson? text

def instructions? (text : String) : Option (List Instruction) :=
  list? Instruction.ofJson? text

def diagnostics? (text : String) : Option (List Diagnostic) :=
  list? Diagnostic.ofJson? text

end Dump

end RiscAssembler
