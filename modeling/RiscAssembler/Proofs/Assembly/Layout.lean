import RiscAssembler.Assembly.Basic
import RiscAssembler.Proofs.Token.Layout

/-!
Contract: an assembly does not depend on layout.

Owns:
- the assembly as a function of the tokens and their report;
- the assembly of a text in its normal layout and in its line feed form.

Only the empty text is treated apart from its tokens. A text that holds nothing but comments can
have the empty text for its normal layout, so the normal layout must be asked for.

Main statement: `assemble_normal`.
-/

namespace RiscAssembler

/-- Past the empty text, an assembly sees nothing of a text but its tokens and their report. -/
theorem assemble_eq_of_tokenize_eq {left right : String} (leftNonempty : left ≠ "")
    (rightNonempty : right ≠ "") (same : tokenize left = tokenize right) :
    assemble left = assemble right := by
  have leftFull : left.isEmpty = false := by simpa using leftNonempty
  have rightFull : right.isEmpty = false := by simpa using rightNonempty
  simp only [assemble, leftFull, rightFull, parse, same]

namespace Layout

theorem normal_empty : normal "" = "" := rfl

theorem lineFeedForm_eq_empty_iff (source : String) : lineFeedForm source = "" ↔ source = "" := by
  constructor
  · intro empty
    have nothing : lineFeeds source.toList = [] := by simpa [lineFeedForm] using empty
    unfold lineFeeds at nothing
    split at nothing
    · rename_i noCharacter
      exact String.toList_eq_nil_iff.mp noCharacter
    · cases nothing
    · cases nothing
  · rintro rfl
    rfl

theorem tokenize_lineFeedForm (source : String) :
    tokenize (lineFeedForm source) = tokenize source := by
  apply tokenize_eq_of_interchangeable
  rw [lineFeedForm, String.toList_ofList]
  exact interchangeable_lineFeeds source.toList

theorem assemble_lineFeedForm (source : String) :
    assemble (lineFeedForm source) = assemble source := by
  by_cases empty : source = ""
  · rw [empty]
    rfl
  · have stillNonempty := (lineFeedForm_eq_empty_iff source).not.mpr empty
    exact assemble_eq_of_tokenize_eq stillNonempty empty (tokenize_lineFeedForm source)

end Layout

/-- Layout does not matter. The normal layout of a text, which has no comments and one space for
each run of blanks within a line, has the same tokens on the same lines and the same report,
whatever is wrong with the text. Unless nothing is left of the text, it is assembled into the same
result. So is the text with a line feed for each carriage return and line feed. -/
theorem assemble_normal (source : String) :
    Layout.IsNormal (Layout.normal source).toList ∧
      tokenize (Layout.normal source) = tokenize source ∧
      (Layout.normal source ≠ "" → assemble (Layout.normal source) = assemble source) ∧
      tokenize (Layout.lineFeedForm source) = tokenize source ∧
      assemble (Layout.lineFeedForm source) = assemble source := by
  have tokens : tokenize (Layout.normal source) = tokenize source :=
    tokenize_eq_of_interchangeable (Layout.interchangeable_normal source)
  refine ⟨Layout.isNormal_normal source, tokens, ?_, Layout.tokenize_lineFeedForm source,
    Layout.assemble_lineFeedForm source⟩
  intro nonempty
  have sourceNonempty : source ≠ "" := by
    rintro rfl
    exact nonempty Layout.normal_empty
  exact assemble_eq_of_tokenize_eq nonempty sourceNonempty tokens

/-- A comment next to a word, one that hides a fault, and one in the rest of a faulted line. -/
theorem assemble_normal_comments :
    Layout.normal "ADD\tX1 , X2,X3#sum\r\n@ #\r\nX0 $ # ?" = "ADD X1 , X2,X3\n@ \nX0 $ " ∧
      "ADD X1 , X2,X3\n@ \nX0 $ " ≠ "" ∧
      assemble "ADD X1 , X2,X3\n@ \nX0 $ " = assemble "ADD\tX1 , X2,X3#sum\r\n@ #\r\nX0 $ # ?" ∧
      (assemble "ADD X1 , X2,X3\n@ \nX0 $ ").lines = ["00000000001100010000000010110011"] := by
  have normal : Layout.normal "ADD\tX1 , X2,X3#sum\r\n@ #\r\nX0 $ # ?" =
      "ADD X1 , X2,X3\n@ \nX0 $ " := by
    decide +kernel
  have nonempty : "ADD X1 , X2,X3\n@ \nX0 $ " ≠ "" := by decide
  obtain ⟨_, _, same, _⟩ := assemble_normal "ADD\tX1 , X2,X3#sum\r\n@ #\r\nX0 $ # ?"
  rw [normal] at same
  refine ⟨normal, nonempty, same nonempty, ?_⟩
  decide +kernel

end RiscAssembler
