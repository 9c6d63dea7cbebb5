import RiscAssembler.Diagnostic.Reader
import RiscAssembler.Proofs.Text.Digits

/-!
Contract: a plain report can be read back, as long as no message breaks its line.

Owns:
- texts without line breaks;
- the text of a diagnostic, from which its line and its message are read back;
- the text of a report, which has one piece for each diagnostic.

A message may hold anything else, a colon or the front of another diagnostic included: the line
number ends at the first character that is no digit, and the message is all that follows the colon
and the blank behind it.

Main statements: `Diagnostic.ofText?_text` and `Diagnostics.ofReport?_report`.
-/

namespace RiscAssembler

/-! ### Texts without line breaks -/

/-- A text that holds neither a line feed nor a carriage return. -/
def Unbroken (text : String) : Prop :=
  '\n' ∉ text.toList ∧ '\r' ∉ text.toList

instance (text : String) : Decidable (Unbroken text) :=
  inferInstanceAs (Decidable (_ ∧ _))

namespace Unbroken

theorem append {first second : String} (firstWhole : Unbroken first)
    (secondWhole : Unbroken second) : Unbroken (first ++ second) := by
  simp only [Unbroken, String.toList_append, List.mem_append, not_or]
  exact ⟨⟨firstWhole.1, secondWhole.1⟩, firstWhole.2, secondWhole.2⟩

theorem decimal (number : Nat) : Unbroken number.repr := by
  rw [Unbroken, Nat.toList_repr]
  constructor
  · intro member
    cases Text.isDigit_of_mem_decimal member
  · intro member
    cases Text.isDigit_of_mem_decimal member

end Unbroken

/-! ### Diagnostics -/

theorem mapM_eq_some_of_map_eq {Item Value : Type} {read : Item → Option Value} {items : List Item}
    {values : List Value} (each : items.map read = values.map some) :
    items.mapM read = some values := by
  calc items.mapM read = (items.map read).mapM id := by rw [List.mapM_map]; rfl
    _ = values.mapM some := by rw [each, List.mapM_map]; rfl
    _ = some (values.map id) := List.mapM_pure
    _ = some values := by rw [List.map_id]

theorem behind?_append (front text : List Char) : behind? front (front ++ text) = some text := by
  induction front with
  | nil => rfl
  | cons character front inductionHypothesis =>
      rw [List.cons_append, behind?, if_pos rfl, inductionHypothesis]

namespace Diagnostic

theorem toList_text (diagnostic : Diagnostic) :
    diagnostic.text.toList =
      "Error at line ".toList ++
        (Text.decimal diagnostic.line ++ ([':', ' '] ++ diagnostic.message.toList)) := by
  -- the texts are variables here, since a rewrite would take literals apart to match them
  have characters (front number separator message : String) :
      (front ++ number ++ separator ++ message).toList =
        front.toList ++ (number.toList ++ (separator.toList ++ message.toList)) := by
    simp only [String.toList_append, List.append_assoc]
  have digits : diagnostic.line.repr.toList = Text.decimal diagnostic.line := Nat.toList_repr
  rw [← digits]
  exact characters "Error at line " diagnostic.line.repr ": " diagnostic.message

/-- The line and the message of a diagnostic are read back from its text, whatever the message. -/
theorem ofText?_text (diagnostic : Diagnostic) : ofText? diagnostic.text = some diagnostic := by
  obtain ⟨line, message⟩ := diagnostic
  have digits : ∀ digit ∈ Text.decimal line, digit.isDigit := fun _ => Text.isDigit_of_mem_decimal
  have numbered : behind? "Error at line ".toList (text ⟨line, message⟩).toList =
      some (Text.decimal line ++ ([':', ' '] ++ message.toList)) :=
    (congrArg (behind? _) (toList_text ⟨line, message⟩)).trans (behind?_append _ _)
  have number : (Text.decimal line ++ ([':', ' '] ++ message.toList)).takeWhile Char.isDigit =
      Text.decimal line := by
    rw [List.takeWhile_append_of_pos digits]
    exact List.append_nil _
  have rest : (Text.decimal line ++ ([':', ' '] ++ message.toList)).dropWhile Char.isDigit =
      [':', ' '] ++ message.toList := by
    rw [List.dropWhile_append_of_pos digits]
    rfl
  have present : (Text.decimal line).isEmpty = false := by
    simpa using Text.decimal_ne_nil line
  unfold ofText?
  simp only [numbered, number, rest, present, Option.bind_eq_bind, Option.bind_some,
    behind?_append, Text.digitsValue_decimal, String.ofList_toList, Bool.false_eq_true, if_false]

theorem unbroken_text {diagnostic : Diagnostic} (whole : Unbroken diagnostic.message) :
    Unbroken diagnostic.text :=
  (((by decide : Unbroken "Error at line ").append (.decimal _)).append (by decide)).append whole

end Diagnostic

namespace Diagnostics

variable {diagnostics : List Diagnostic}
  (unbroken : ∀ diagnostic ∈ diagnostics, Unbroken diagnostic.message)
include unbroken

/-- A report has one piece for each diagnostic. -/
theorem splitOn_report (nonempty : diagnostics ≠ []) :
    (report diagnostics).toList.splitOn '\n' =
      diagnostics.map fun diagnostic => diagnostic.text.toList := by
  rw [report, String.toList_intercalate, List.map_map]
  apply List.splitOn_intercalate
  · intro piece member
    obtain ⟨diagnostic, isDiagnostic, rfl⟩ := List.mem_map.mp member
    exact (Diagnostic.unbroken_text (unbroken diagnostic isDiagnostic)).1
  · simpa using nonempty

/-- The pieces of a report spell its diagnostics, in order. -/
theorem map_ofText?_splitOn_report (nonempty : diagnostics ≠ []) :
    ((report diagnostics).toList.splitOn '\n').map
        (fun piece => Diagnostic.ofText? (String.ofList piece)) = diagnostics.map some := by
  rw [splitOn_report unbroken nonempty, List.map_map]
  apply List.map_congr_left
  intro diagnostic _
  rw [Function.comp_apply, String.ofList_toList, Diagnostic.ofText?_text]

theorem report_ne_empty (nonempty : diagnostics ≠ []) : (report diagnostics).isEmpty = false := by
  rw [Bool.eq_false_iff]
  intro empty
  -- the one piece of the empty text spells no diagnostic
  have pieces := map_ofText?_splitOn_report unbroken nonempty
  rw [String.isEmpty_iff.mp empty] at pieces
  obtain ⟨first, rest, rfl⟩ := List.exists_cons_of_ne_nil nonempty
  cases pieces

/-- The diagnostics are read back from their report. -/
theorem ofReport?_report : ofReport? (report diagnostics) = some diagnostics := by
  unfold ofReport?
  by_cases nonempty : diagnostics = []
  · subst nonempty
    rfl
  · rw [report_ne_empty unbroken nonempty, if_neg Bool.false_ne_true]
    exact mapM_eq_some_of_map_eq (map_ofText?_splitOn_report unbroken nonempty)

end Diagnostics

end RiscAssembler
