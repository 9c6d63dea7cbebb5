import RiscAssembler.Diagnostic.Basic
import RiscAssembler.Token.Basic

/-!
Contract: instructions as they are written, before anything is known of their operands.

Owns:
- an instruction: a mnemonic, its operands and its line;
- the division of a list of tokens at the opcodes: each opcode starts an instruction;
- the operands between two opcodes: an offset with its base in parentheses counts as two
  operands, the offset and the base, and commas are dropped;
- the report of the tokens in front of the first opcode;
- instructions as program text.

Does not own: which operands a mnemonic wants.
-/

namespace RiscAssembler

/-- A mnemonic, the operands that follow it, and the line of the mnemonic. -/
structure Instruction where
  mnemonic : Mnemonic
  operands : List Token
  line : Nat
deriving DecidableEq, Repr

/-! ### Grouping -/

/-- Divides tokens into the operands in front of the first opcode and the instructions after. -/
def segments : List Token → List Token × List Instruction
  | ⟨.immediate value, offsetLexeme, offsetLine⟩ :: ⟨.leftParenthesis, _, _⟩
      :: ⟨.register number, baseLexeme, baseLine⟩ :: ⟨.rightParenthesis, _, _⟩ :: rest =>
      let (operands, instructions) := segments rest
      (⟨.immediate value, offsetLexeme, offsetLine⟩
        :: ⟨.register number, baseLexeme, baseLine⟩ :: operands, instructions)
  | token :: rest =>
      let (operands, instructions) := segments rest
      match token.kind with
      | .opcode mnemonic => ([], ⟨mnemonic, operands, token.line⟩ :: instructions)
      | .comma => (operands, instructions)
      | _ => (token :: operands, instructions)
  | [] => ([], [])

def opcodeExpected (token : Token) : Diagnostic :=
  ⟨token.line, "unexpected token: " ++ token.lexeme ++ ", expected an opcode"⟩

/-- The tokens in front of the first opcode; they belong to no instruction. -/
def strayTokens (tokens : List Token) : List Token :=
  tokens.takeWhile (!·.isOpcode)

/-- The instructions of a list of tokens, with a diagnostic for each stray token. -/
def group (tokens : List Token) : Reported (List Instruction) :=
  ⟨(segments tokens).2, (strayTokens tokens).map opcodeExpected⟩

/-- Groups all that is left of a queue of tokens, and leaves the queue empty. -/
def drain (queue : List Token) : Reported (List Instruction) × List Token :=
  (group queue, [])

/-! ### Program text -/

/-- The mnemonic by name, and the operands by their spelling, with a comma and a blank between two
of them. -/
def Instruction.text (instruction : Instruction) : String :=
  instruction.mnemonic.name ++ " " ++
    ", ".intercalate (instruction.operands.map Token.lexeme)

/-- Instructions as program text, each on a line of its own. -/
def programText (instructions : List Instruction) : String :=
  "\n".intercalate (instructions.map Instruction.text)

end RiscAssembler
