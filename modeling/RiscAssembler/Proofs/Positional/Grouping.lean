import RiscAssembler.Positional.Grouping
import RiscAssembler.Proofs.Instruction.Segments
import RiscAssembler.Proofs.Positional.Place

/-!
Contract: grouping with a cursor never leaves the tokens, and divides them as grouping by their
front does.

Owns:
- the look-ahead at a place, as the look-ahead at the front of the tokens that are left;
- the operands from a place on, and the place behind them;
- the instructions from a place on.

Tokens are taken apart into those in front of the cursor and those that are left. A cursor that
jumps over an offset with its base moves all four tokens to the front, so they were there.

Main statement: `group?_eq`.
-/

namespace RiscAssembler.Positional

/-- A look-ahead past the last token finds nothing, so it finds no base offset either. -/
theorem CursorAt.atBaseOffset_eq {tokens rest : List Token} {place : Nat}
    (cursor : CursorAt tokens place rest) :
    atBaseOffset tokens place = startsBaseOffset rest := by
  have kinds (offset : Nat) : kindAt? tokens (place + offset) = rest[offset]?.map Token.kind :=
    congrArg _ (cursor.getElem?_add offset)
  have first : kindAt? tokens place = rest[0]?.map Token.kind := kinds 0
  simp only [atBaseOffset, first, kinds]
  match rest with
  | [] => rfl
  | [offset] | [offset, left] | [offset, left, base] =>
      simp [startsBaseOffset]
  | offset :: left :: base :: right :: _ =>
      show _ = isBaseOffset offset.kind left.kind base.kind right.kind
      simp only [List.getElem?_cons_zero, List.getElem?_cons_succ, Option.map_some]
      cases offset.kind with
      | immediate value =>
          cases left.kind with
          | leftParenthesis =>
              cases base.kind with
              | register number => cases right.kind <;> rfl
              | _ => rfl
          | _ => rfl
      | _ => rfl

section Operands

variable {tokens : List Token} {place : Nat}

theorem operands?_of_none (atEnd : tokens[place]? = none) :
    operands? tokens place = some ([], place) := by
  rw [operands?]
  split
  · rfl
  · rename_i token here
    rw [atEnd] at here
    cases here

theorem operands?_of_some {token : Token} (here : tokens[place]? = some token) :
    operands? tokens place =
      match token.kind with
      | .opcode _ => some ([], place)
      | .comma => operands? tokens (place + 1)
      | _ =>
          if atBaseOffset tokens place then
            match tokens[place + 2]? with
            | none => none
            | some base =>
                if place + 4 ≤ tokens.length then
                  (operands? tokens (place + 4)).map fun later =>
                    (token :: base :: later.1, later.2)
                else none
          else
            (operands? tokens (place + 1)).map fun later => (token :: later.1, later.2) := by
  rw [operands?]
  split
  · rename_i atEnd
    rw [here] at atEnd
    cases atEnd
  · rename_i other again
    rw [here] at again
    obtain rfl : token = other := Option.some.inj again
    rfl

end Operands

/-- The operands from a place on are those at the front of the tokens that are left. Behind them
comes an opcode or nothing, and the instructions are those of the tokens from there on. -/
theorem operands?_eq {tokens rest : List Token} {place : Nat}
    (cursor : CursorAt tokens place rest) :
    ∃ passed ahead, passed ++ ahead = rest ∧
      operands? tokens place = some ((segments rest).1, place + passed.length) ∧
      (segments ahead).2 = (segments rest).2 ∧ ∀ token ∈ ahead.head?, token.isOpcode := by
  induction rest using segments_induction generalizing place with
  | nil =>
      refine ⟨[], [], rfl, operands?_of_none cursor.getElem?, rfl, ?_⟩
      exact fun token member => by cases member
  | baseOffset offset left base right rest whole inductionHypothesis =>
      obtain ⟨value, isImmediate⟩ := (isBaseOffset_iff.mp whole).1
      have later := cursor.advance (show [offset, left, base, right] ++ rest = _ from rfl)
      obtain ⟨passed, ahead, split, found, instructions, stops⟩ := inductionHypothesis later
      have starts : atBaseOffset tokens place = true := cursor.atBaseOffset_eq.trans whole
      have isBase : tokens[place + 2]? = some base := cursor.getElem?_add 2
      have inside : place + 4 ≤ tokens.length := by
        rw [cursor.length_eq, List.length_cons, List.length_cons, List.length_cons,
          List.length_cons]
        omega
      have behind : place + [offset, left, base, right].length + passed.length =
          place + (offset :: left :: base :: right :: passed).length := by
        simp only [List.length_cons, List.length_nil]
        omega
      refine ⟨offset :: left :: base :: right :: passed, ahead, by rw [← split]; rfl, ?_, ?_, stops⟩
      · rw [operands?_of_some cursor.getElem?, segments_baseOffset whole, ← behind]
        simp only [isImmediate, starts, isBase, if_pos inside, if_true]
        show (operands? tokens (place + [offset, left, base, right].length)).map _ = _
        rw [found]
        rfl
      · rw [instructions, segments_baseOffset whole]
  | other token rest other inductionHypothesis =>
      have later := cursor.advance (show [token] ++ rest = token :: rest from rfl)
      obtain ⟨passed, ahead, split, found, instructions, stops⟩ := inductionHypothesis later
      have noBaseOffset : ¬ atBaseOffset tokens place = true := by
        rw [cursor.atBaseOffset_eq, other]
        exact Bool.false_ne_true
      have behind : place + [token].length + passed.length = place + (token :: passed).length := by
        simp only [List.length_cons, List.length_nil]
        omega
      have whole : token :: passed ++ ahead = token :: rest := by
        rw [← split]
        rfl
      rw [behind] at found
      rw [operands?_of_some cursor.getElem?, segments_cons other, joinSegments]
      cases kind : token.kind with
      | opcode mnemonic =>
          refine ⟨[], token :: rest, rfl, rfl, ?_, ?_⟩
          · rw [segments_cons other, joinSegments, kind]
          · intro head isHead
            obtain rfl : token = head := Option.some.inj isHead
            rw [Token.isOpcode, kind]
            rfl
      | comma => exact ⟨token :: passed, ahead, whole, found, instructions, stops⟩
      | _ =>
          refine ⟨token :: passed, ahead, whole, ?_, instructions, stops⟩
          rw [if_neg noBaseOffset]
          show (operands? tokens (place + [token].length)).map _ = _
          rw [found]
          rfl

/-! ### Instructions -/

section Instructions

variable {tokens : List Token} {place : Nat}

theorem instructions?_of_none (atEnd : tokens[place]? = none) :
    instructions? tokens place = some (.silent []) := by
  rw [instructions?]
  split
  · rfl
  · rename_i token here
    rw [atEnd] at here
    cases here

theorem instructions?_of_some {token : Token} (here : tokens[place]? = some token) :
    instructions? tokens place =
      match token.kind with
      | .opcode mnemonic =>
          match operands? tokens (place + 1) with
          | none => none
          | some (operands, behind) =>
              if place < behind ∧ behind ≤ tokens.length then
                (instructions? tokens behind).map fun later =>
                  ⟨⟨mnemonic, operands, token.line⟩ :: later.value, later.diagnostics⟩
              else none
      | _ =>
          (instructions? tokens (place + 1)).map fun later =>
            ⟨later.value, opcodeExpected token :: later.diagnostics⟩ := by
  rw [instructions?]
  split
  · rename_i atEnd
    rw [here] at atEnd
    cases atEnd
  · rename_i other again
    rw [here] at again
    obtain rfl : token = other := Option.some.inj again
    rfl

end Instructions

theorem strayTokens_of_stops {tokens : List Token}
    (stops : ∀ token ∈ tokens.head?, token.isOpcode) : strayTokens tokens = [] := by
  match tokens with
  | [] => rfl
  | token :: rest => exact strayTokens_of_opens (stops token rfl)

theorem group_opcode {token : Token} {mnemonic : Mnemonic} (kind : token.kind = .opcode mnemonic)
    (rest : List Token) :
    group (token :: rest) =
      ⟨⟨mnemonic, (segments rest).1, token.line⟩ :: (segments rest).2, []⟩ := by
  obtain ⟨_, lexeme, line⟩ := token
  subst kind
  rw [group, segments_opcode, strayTokens_of_opens rfl]
  rfl

theorem group_stray {token : Token} (noOpcode : token.isOpcode = false) (rest : List Token) :
    group (token :: rest) =
      ⟨(group rest).value, opcodeExpected token :: (group rest).diagnostics⟩ := by
  rw [group, group, segments_instructions_of_not_opcode noOpcode, strayTokens,
    List.takeWhile_cons_of_pos (by rw [noOpcode]; rfl)]
  rfl

/-- From every place on, the cursor finds what grouping finds in the tokens that are left. -/
theorem instructions?_eq {tokens rest : List Token} {place : Nat}
    (cursor : CursorAt tokens place rest) : instructions? tokens place = some (group rest) := by
  match rest with
  | [] => exact instructions?_of_none cursor.getElem?
  | token :: rest =>
      have later := cursor.advance (show [token] ++ rest = token :: rest from rfl)
      have single : place + [token].length = place + 1 := rfl
      rw [single] at later
      rw [instructions?_of_some cursor.getElem?]
      cases kind : token.kind with
      | opcode mnemonic =>
          obtain ⟨passed, ahead, split, found, instructions, stops⟩ := operands?_eq later
          have behind := later.advance split
          have inside := behind.length_eq
          have shorter : ahead.length ≤ rest.length := by
            rw [← split, List.length_append]
            omega
          have noStray : strayTokens ahead = [] := strayTokens_of_stops stops
          have onwards := instructions?_eq behind
          simp only [found, onwards]
          rw [if_pos (by omega), group_opcode kind, group, noStray, instructions]
          rfl
      | _ =>
          have noOpcode : token.isOpcode = false := by
            rw [Token.isOpcode, kind]
            rfl
          simp only [instructions?_eq later]
          rw [group_stray noOpcode]
          rfl
termination_by rest.length

/-- Grouping with a cursor never leaves the tokens. -/
theorem group?_eq (tokens : List Token) : group? tokens = some (group tokens) :=
  instructions?_eq ⟨[], rfl, rfl⟩

end RiscAssembler.Positional
