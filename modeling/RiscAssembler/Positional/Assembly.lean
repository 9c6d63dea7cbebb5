import RiscAssembler.Assembly.Basic
import RiscAssembler.Positional.Encoding
import RiscAssembler.Positional.Grouping
import RiscAssembler.Positional.Scanning

/-!
Contract: the assembly of a whole program text with cursors and shifts.

Owns:
- the stages one behind the other, with what they report.

Each stage takes what the stage before it found. If one has no result, the assembly has none.
-/

namespace RiscAssembler.Positional

def parse? (source : String) : Option (Reported (List Instruction)) := do
  let scanned ← tokenize? source
  let grouped ← group? scanned.value
  some ⟨grouped.value, scanned.diagnostics ++ grouped.diagnostics⟩

def encodeLine? (instruction : Instruction) : Option (Reported String) := do
  match ← encode? instruction with
  | .ok word => some ⟨word.bits, []⟩
  | .error fault => some ⟨Instruction.errorLine, [fault.diagnostic]⟩

def encodeLines? : List Instruction → Option (Reported (List String))
  | [] => some (.silent [])
  | instruction :: rest => do
      let line ← encodeLine? instruction
      let lines ← encodeLines? rest
      some ⟨line.value :: lines.value, line.diagnostics ++ lines.diagnostics⟩

/-- The assembly of a program text. No result means that some stage used an operation where it has
none. -/
def assemble? (source : String) : Option Assembly :=
  if source.isEmpty then some ⟨[], [], [emptySource]⟩
  else do
    let parsed ← parse? source
    let encoded ← encodeLines? parsed.value
    some ⟨encoded.value, parsed.value,
      Diagnostics.sorted (parsed.diagnostics ++ encoded.diagnostics)⟩

end RiscAssembler.Positional
