import RiscAssembler.Diagnostic.Basic
import RiscAssembler.Text

/-!
Contract: plain reports and artifacts read back.

Owns:
- the diagnostic that a line of a plain report spells;
- the diagnostics of a whole report;
- the pieces of a text whose lines all end in a line feed.
-/

namespace RiscAssembler

/-- The text behind a given beginning, if the text begins so. -/
def behind? : List Char → List Char → Option (List Char)
  | [], text => some text
  | _ :: _, [] => none
  | expected :: more, character :: rest =>
      if expected = character then behind? more rest else none

def Diagnostic.ofText? (text : String) : Option Diagnostic := do
  let numbered ← behind? "Error at line ".toList text.toList
  let digits := numbered.takeWhile Char.isDigit
  let message ← behind? [':', ' '] (numbered.dropWhile Char.isDigit)
  if digits.isEmpty then none
  else some ⟨Text.digitsValue 10 digits, String.ofList message⟩

namespace Diagnostics

def ofReport? (report : String) : Option (List Diagnostic) :=
  if report.isEmpty then some []
  else (report.toList.splitOn '\n').mapM fun line => Diagnostic.ofText? (String.ofList line)

end Diagnostics

/-- The lines of a text in which every line ends in a line feed. -/
def endedLines (text : String) : List String :=
  (text.toList.splitOn '\n').dropLast.map String.ofList

end RiscAssembler
