import Mathlib.Data.List.Forall2
import RiscAssembler.Proofs.Assembly.Stages
import RiscAssembler.Proofs.Token.LetterCase

/-!
Contract: an assembly does not depend on letter case.

Owns:
- the instructions of a text in upper case;
- messages up to letter case, and what each stage raises up to letter case.

Output lines carry no spelling, so they are the same. Messages quote the text as it is spelled, so
two reports are compared with every message in upper case. An entry stands on the line on which it
stood, and so sorting keeps the order.

Main statement: `assemble_toUpper`.
-/

namespace RiscAssembler

open Text

/-! ### Instructions -/

/-- An instruction with its operands spelled in upper case. -/
def Instruction.toUpper (instruction : Instruction) : Instruction :=
  instruction.relabel String.toUpper id

theorem parse_toUpper (source : String) :
    (parse source.toUpper).value = (parse source).value.map Instruction.toUpper := by
  show (segments (tokenize source.toUpper).value).2 =
    (segments (tokenize source).value).2.map Instruction.toUpper
  rw [tokenize_value_toUpper]
  exact congrArg Prod.snd (segments_relabel String.toUpper id (tokenize source).value)

theorem Instruction.encodeLine_toUpper {instruction : Instruction} (placed : instruction.Placed) :
    instruction.toUpper.encodeLine = instruction.encodeLine := by
  have relabelled := encodeLine_relabel placed String.toUpper id
  rwa [Diagnostic.relocate_id, List.map_id] at relabelled

theorem lines_toUpper (source : String) :
    (assemble source.toUpper).lines = (assemble source).lines := by
  apply lines_eq_of_relabel_eq String.toUpper
  rw [tokenize_value_toUpper, List.map_map]
  refine List.map_congr_left fun token _ => ?_
  exact congrArg (Token.mk token.kind · token.line) (toUpper_toUpper_string token.lexeme)

/-! ### Messages -/

/-- The same diagnostic with its message in upper case. -/
def Diagnostic.toUpper (diagnostic : Diagnostic) : Diagnostic :=
  { diagnostic with message := diagnostic.message.toUpper }

theorem LexicalFault.diagnostic_toUpper (fault : LexicalFault) :
    fault.toUpper.diagnostic.toUpper = fault.diagnostic.toUpper := by
  have message : fault.cause.toUpper.message.toUpper = fault.cause.message.toUpper := by
    cases fault.cause with
    | unexpectedCharacter character =>
        have singleton :
            String.singleton character.toUpper = (String.singleton character).toUpper :=
          ofList_map_toUpper [character]
        show (_ ++ String.singleton character.toUpper ++ _).toUpper = _
        rw [singleton]
        exact toUpper_append_congr (toUpper_append_toUpper _ _) _
    | invalidNumber spelling | unrecognizedWord spelling => exact toUpper_append_toUpper _ spelling
  exact congrArg (Diagnostic.mk fault.line) message

theorem opcodeExpected_toUpper (token : Token) :
    (opcodeExpected token.toUpper).toUpper = (opcodeExpected token).toUpper := by
  have message := toUpper_append_congr
    (toUpper_append_toUpper "unexpected token: " token.lexeme) ", expected an opcode"
  exact congrArg (Diagnostic.mk token.line) message

/-! ### Stages -/

theorem tokenize_diagnostics_toUpper (source : String) :
    (tokenize source.toUpper).diagnostics.map Diagnostic.toUpper =
      (tokenize source).diagnostics.map Diagnostic.toUpper := by
  rw [tokenize_diagnostics, tokenize_diagnostics, tokenize_value_toUpper, lexicalFaults_toUpper]
  simp only [List.map_eq_nil_iff]
  split
  · rfl
  · rw [List.map_map, List.map_map, List.map_map]
    exact List.map_congr_left fun fault _ => fault.diagnostic_toUpper

theorem strayDiagnostics_toUpper (source : String) :
    (strayDiagnostics source.toUpper).map Diagnostic.toUpper =
      (strayDiagnostics source).map Diagnostic.toUpper := by
  have stray : strayTokens ((tokenize source).value.map Token.toUpper) =
      (strayTokens (tokenize source).value).map Token.toUpper := List.takeWhile_map ..
  unfold strayDiagnostics
  rw [tokenize_value_toUpper, stray, List.map_map, List.map_map, List.map_map]
  exact List.map_congr_left fun token _ => opcodeExpected_toUpper token

theorem encodingDiagnostics_toUpper (source : String) :
    encodingDiagnostics source.toUpper = encodingDiagnostics source := by
  unfold encodingDiagnostics
  rw [parse_toUpper, List.flatMap_map]
  refine List.flatMap_congr fun instruction member => ?_
  rw [Instruction.encodeLine_toUpper (placed_of_mem_parse member)]

theorem raisedDiagnostics_toUpper (source : String) :
    (raisedDiagnostics source.toUpper).map Diagnostic.toUpper =
      (raisedDiagnostics source).map Diagnostic.toUpper := by
  unfold raisedDiagnostics
  simp only [List.map_append, tokenize_diagnostics_toUpper, strayDiagnostics_toUpper,
    encodingDiagnostics_toUpper]

theorem diagnostics_toUpper (source : String) :
    (assemble source.toUpper).diagnostics.map Diagnostic.toUpper =
      (assemble source).diagnostics.map Diagnostic.toUpper := by
  by_cases empty : source = ""
  · rw [empty, toUpper_empty]
  · have nonempty : source.isEmpty = false := by simpa using empty
    have upperNonempty : source.toUpper.isEmpty = false := by
      simpa using (toUpper_eq_empty_iff source).not.mpr empty
    have sameLines : ∀ first second : Diagnostic,
        first.line ≤ second.line ↔ first.toUpper.line ≤ second.toUpper.line :=
      fun _ _ => Iff.rfl
    rw [assemble_of_nonempty nonempty, assemble_of_nonempty upperNonempty,
      ← Diagnostics.sorted_map _ sameLines, ← Diagnostics.sorted_map _ sameLines,
      raisedDiagnostics_toUpper]

/-! ### Whole assemblies -/

/-- Letter case does not matter. A text in upper case has the same output lines, and the same tokens
on the same lines, each spelled in upper case. Its report has an entry for each entry of the report
of the text, in the same order, on the same line and with the same message up to letter case. -/
theorem assemble_toUpper (source : String) :
    (assemble source.toUpper).lines = (assemble source).lines ∧
      (tokenize source.toUpper).value =
        (tokenize source).value.map (fun token =>
          ⟨token.kind, token.lexeme.toUpper, token.line⟩) ∧
      List.Forall₂ (fun upper plain =>
          upper.line = plain.line ∧ upper.message.toUpper = plain.message.toUpper)
        (assemble source.toUpper).diagnostics (assemble source).diagnostics := by
  refine ⟨lines_toUpper source, tokenize_value_toUpper source, ?_⟩
  have folded := diagnostics_toUpper source
  rw [← List.forall₂_eq_eq_eq, List.forall₂_map_left_iff, List.forall₂_map_right_iff] at folded
  exact folded.imp fun _ _ same => Diagnostic.mk.inj same

end RiscAssembler
