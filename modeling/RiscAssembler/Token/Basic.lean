import RiscAssembler.FloatingPoint.Double
import RiscAssembler.Mnemonic

/-!
Contract: the tokens of the assembly language.

Owns:
- the kinds of token, each with the value that its spelling stands for;
- a token as it stands in a program text: kind, spelling and line;
- the name of a kind, as messages use it.

Does not own: which spelling stands for which kind. A token built by hand may carry any spelling,
any register number and any integer.
-/

namespace RiscAssembler

inductive TokenKind where
  | opcode (mnemonic : Mnemonic)
  | register (number : Nat)
  | immediate (value : Int)
  | floatImmediate (value : Double)
  | leftParenthesis
  | rightParenthesis
  | comma
deriving DecidableEq, Repr

namespace TokenKind

/-- The name of a kind in messages; an opcode goes by its mnemonic. -/
def name : TokenKind → String
  | opcode mnemonic => mnemonic.name
  | register _ => "REG"
  | immediate _ => "IMM"
  | floatImmediate _ => "IMM_FLOAT"
  | leftParenthesis => "LPAREN"
  | rightParenthesis => "RPAREN"
  | comma => "COMMA"

def isOpcode : TokenKind → Bool
  | opcode _ => true
  | _ => false

end TokenKind

structure Token where
  kind : TokenKind
  lexeme : String
  line : Nat
deriving DecidableEq, Repr

inductive Literal where
  | integer (value : Int)
  | float (value : Double)
deriving DecidableEq, Repr

namespace Token

def isOpcode (token : Token) : Bool :=
  token.kind.isOpcode

/-- The number that a token stands for, if it is an immediate. -/
def literal? (token : Token) : Option Literal :=
  match token.kind with
  | .immediate value => some (.integer value)
  | .floatImmediate value => some (.float value)
  | _ => none

end Token

end RiscAssembler
