/-!
Contract: messages about a program text, tied to its lines.

Owns:
- a diagnostic and its one-line text;
- the order of a report: by line, and within a line as raised;
- an answer that comes with the diagnostics raised on the way to it.

A source line is counted from one. Line zero stands for a message that no line can be blamed
for.
-/

namespace RiscAssembler

structure Diagnostic where
  line : Nat
  message : String
deriving DecidableEq, Repr

def Diagnostic.text (diagnostic : Diagnostic) : String :=
  "Error at line " ++ diagnostic.line.repr ++ ": " ++ diagnostic.message

namespace Diagnostics

/-- The order of a report: by line, keeping the order of raising within each line. -/
def sorted (diagnostics : List Diagnostic) : List Diagnostic :=
  diagnostics.mergeSort (fun first second => decide (first.line ≤ second.line))

/-- The text of a report: one diagnostic a line, without a final line break. -/
def report (diagnostics : List Diagnostic) : String :=
  "\n".intercalate (diagnostics.map Diagnostic.text)

theorem sorted_perm (diagnostics : List Diagnostic) :
    (sorted diagnostics).Perm diagnostics :=
  List.mergeSort_perm diagnostics _

theorem sorted_pairwise (diagnostics : List Diagnostic) :
    (sorted diagnostics).Pairwise (fun first second => first.line ≤ second.line) := by
  have ordered : (sorted diagnostics).Pairwise
      (fun first second => decide (first.line ≤ second.line) = true) :=
    List.pairwise_mergeSort (fun first second third => by simpa using Nat.le_trans)
      (fun first second => by simpa using Nat.le_total first.line second.line) diagnostics
  simpa using ordered

end Diagnostics

/-- An answer and the diagnostics raised on the way to it, in the order of raising. -/
structure Reported (α : Type) where
  value : α
  diagnostics : List Diagnostic
deriving DecidableEq, Repr

namespace Reported

def silent (value : α) : Reported α := ⟨value, []⟩

/-- The second part of a computation adds its diagnostics behind those of the first. -/
def bind (first : Reported α) (second : α → Reported β) : Reported β :=
  let next := second first.value
  ⟨next.value, first.diagnostics ++ next.diagnostics⟩

instance : Monad Reported where
  pure := silent
  bind := bind

@[simp] theorem value_pure (value : α) : (pure value : Reported α).value = value := rfl

@[simp] theorem diagnostics_pure (value : α) : (pure value : Reported α).diagnostics = [] := rfl

@[simp] theorem value_bind (first : Reported α) (second : α → Reported β) :
    (first >>= second).value = (second first.value).value := rfl

@[simp] theorem diagnostics_bind (first : Reported α) (second : α → Reported β) :
    (first >>= second).diagnostics =
      first.diagnostics ++ (second first.value).diagnostics := rfl

end Reported

end RiscAssembler
