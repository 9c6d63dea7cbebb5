import RiscAssembler.Diagnostic.Basic
import RiscAssembler.Instruction
import RiscAssembler.Json.Value

/-!
Contract: tokens, instructions and diagnostics as JSON values.

A token kind that carries a value is an object with one field, named for the kind; any other kind
is a string.
-/

namespace RiscAssembler

def TokenKind.toJson : TokenKind → Json.Value
  | opcode mnemonic => .object [("Opcode", .string mnemonic.name)]
  | register number => .object [("Register", .integer number)]
  | immediate value => .object [("Imm", .integer value)]
  | floatImmediate value => .object [("ImmFloat", .float value)]
  | leftParenthesis => .string "LParen"
  | rightParenthesis => .string "RParen"
  | comma => .string "Comma"

def Literal.toJson : Literal → Json.Value
  | integer value => .object [("Int", .integer value)]
  | float value => .object [("Float", .float value)]

def Token.toJson (token : Token) : Json.Value :=
  .object [("kind", token.kind.toJson), ("lexeme", .string token.lexeme),
    ("line", .integer token.line)]

def Instruction.toJson (instruction : Instruction) : Json.Value :=
  .object [("opcode", .string instruction.mnemonic.name),
    ("operands", .array (instruction.operands.map Token.toJson)),
    ("line", .integer instruction.line)]

def Diagnostic.toJson (diagnostic : Diagnostic) : Json.Value :=
  .object [("line", .integer diagnostic.line), ("message", .string diagnostic.message)]

namespace Dump

def tokens (tokens : List Token) : Json.Value :=
  .array (tokens.map Token.toJson)

def instructions (instructions : List Instruction) : Json.Value :=
  .array (instructions.map Instruction.toJson)

def diagnostics (diagnostics : List Diagnostic) : Json.Value :=
  .array (diagnostics.map Diagnostic.toJson)

/-- The numbers that the tokens stand for, with `null` for a token that stands for none. -/
def literals (tokens : List Token) : Json.Value :=
  .array (tokens.map fun token => (token.literal?.map Literal.toJson).getD .null)

end Dump

end RiscAssembler
