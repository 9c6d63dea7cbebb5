import RiscAssembler.Instruction
import RiscAssembler.Positional.Place

/-!
Contract: grouping with a cursor over all tokens.

Owns:
- the look-ahead for an offset with its base in parentheses, which may reach past the last token;
- the operands from a place on, and the place behind them;
- the instructions and the stray tokens from a place on.

A cursor is the number of tokens in front of it. The base of an offset is taken by its place, and
the cursor jumps over the four tokens together. There is no result if the base is not there, or if
a cursor would come to stand behind the last token or not move on.
-/

namespace RiscAssembler.Positional

def kindAt? (tokens : List Token) (place : Nat) : Option TokenKind :=
  tokens[place]?.map Token.kind

def atBaseOffset (tokens : List Token) (place : Nat) : Bool :=
  match kindAt? tokens place, kindAt? tokens (place + 1), kindAt? tokens (place + 2),
    kindAt? tokens (place + 3) with
  | some (.immediate _), some .leftParenthesis, some (.register _), some .rightParenthesis => true
  | _, _, _, _ => false

/-- The operands from a place on, up to the next opcode, and the place of the opcode. -/
def operands? (tokens : List Token) (place : Nat) : Option (List Token × Nat) :=
  match _here : tokens[place]? with
  | none => some ([], place)
  | some token =>
      match token.kind with
      | .opcode _ => some ([], place)
      | .comma => operands? tokens (place + 1)
      | _ =>
          if atBaseOffset tokens place then
            match tokens[place + 2]? with
            | none => none
            | some base =>
                if place + 4 ≤ tokens.length then
                  (operands? tokens (place + 4)).map fun later =>
                    (token :: base :: later.1, later.2)
                else none
          else
            (operands? tokens (place + 1)).map fun later => (token :: later.1, later.2)
termination_by tokens.length - place
decreasing_by
  all_goals exact sub_lt_of_getElem? _here (by omega)

/-- The instructions from a place on, with a diagnostic for each token in front of the first. -/
def instructions? (tokens : List Token) (place : Nat) : Option (Reported (List Instruction)) :=
  match _here : tokens[place]? with
  | none => some (.silent [])
  | some token =>
      match token.kind with
      | .opcode mnemonic =>
          match operands? tokens (place + 1) with
          | none => none
          | some (operands, behind) =>
              if place < behind ∧ behind ≤ tokens.length then
                (instructions? tokens behind).map fun later =>
                  ⟨⟨mnemonic, operands, token.line⟩ :: later.value, later.diagnostics⟩
              else none
      | _ =>
          (instructions? tokens (place + 1)).map fun later =>
            ⟨later.value, opcodeExpected token :: later.diagnostics⟩
termination_by tokens.length - place
decreasing_by
  all_goals exact sub_lt_of_getElem? _here (by omega)

/-- The instructions of a list of tokens. No result means that the cursor left the tokens. -/
def group? (tokens : List Token) : Option (Reported (List Instruction)) :=
  instructions? tokens 0

end RiscAssembler.Positional
