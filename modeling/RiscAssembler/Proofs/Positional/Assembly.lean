import RiscAssembler.Positional.Assembly
import RiscAssembler.Proofs.Positional.Encoding
import RiscAssembler.Proofs.Positional.Grouping
import RiscAssembler.Proofs.Positional.Scanning

/-!
Contract: no stage of the assembly uses an operation where it has no result.

Owns:
- the output lines and the whole assembly with cursors and shifts, put together from the stages.

Does not own: why a stage has a result. Each of them has its own module for that.

Main statement: `stages_total`.
-/

namespace RiscAssembler.Positional

theorem encodeLine?_eq (instruction : Instruction) :
    encodeLine? instruction = some instruction.encodeLine := by
  rw [encodeLine?, encode?_eq, Instruction.encodeLine]
  cases instruction.encode with
  | ok word => rfl
  | error fault => rfl

theorem encodeLines?_eq (instructions : List Instruction) :
    encodeLines? instructions = some (encodeLines instructions) := by
  induction instructions with
  | nil => rfl
  | cons instruction rest inductionHypothesis =>
      rw [encodeLines?, encodeLine?_eq, inductionHypothesis]
      show some (Reported.mk _ _) = some (Reported.mk _ (_ ++ (_ ++ [])))
      rw [List.append_nil]
      rfl

theorem parse?_eq (source : String) : parse? source = some (parse source) := by
  rw [parse?, tokenize?_eq, Option.bind_eq_bind, Option.bind_some, group?_eq]
  rfl

theorem assemble?_eq (source : String) : assemble? source = some (assemble source) := by
  rw [assemble?, assemble]
  split
  · rfl
  · rw [parse?_eq, Option.bind_eq_bind, Option.bind_some, encodeLines?_eq]
    rfl

/-- Every operation of the assembly has a result wherever it is used, and that is the result of the
stages themselves, which have no such operations. From every place of a text, a step cuts out only
pieces that are there, and what it negates has an opposite of 64 bits; so does a scan of a whole
text. In every list of tokens, the base behind an offset is there, and the jump over the four tokens
ends inside the list. In every instruction that passes the check, each operand is at its place and
of its kind, the mnemonic has an encoder, and each field fits its width and meets no other. -/
theorem stages_total :
    (∀ (before rest : List Char) (line : Nat), ∃ behind,
      next? (before ++ rest) ⟨before.length, line⟩ =
        some ((Cursor.mk rest line).next.item?, behind) ∧
      behind.Stands (before ++ rest) (Cursor.mk rest line).next.after) ∧
    (∀ source : String, tokenize? source = some (tokenize source)) ∧
    (∀ tokens : List Token, group? tokens = some (group tokens)) ∧
    (∀ instruction : Instruction, encode? instruction = some instruction.encode) ∧
    ∀ source : String, assemble? source = some (assemble source) := by
  refine ⟨?_, tokenize?_eq, group?_eq, encode?_eq, assemble?_eq⟩
  intro before rest line
  have stands : Place.Stands (before ++ rest) ⟨before.length, line⟩ ⟨rest, line⟩ :=
    ⟨⟨before, rfl, rfl⟩, rfl⟩
  exact next?_matches stands

end RiscAssembler.Positional
