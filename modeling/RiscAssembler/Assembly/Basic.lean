import RiscAssembler.Instruction
import RiscAssembler.Machine.Encoding
import RiscAssembler.Token.Scan

/-!
Contract: the assembly of a whole program text.

Owns:
- the instructions of a text and their output lines, one line for each instruction;
- the report of all that is wrong, sorted by line;
- the artifact, which is the text of the output lines.

Every stage runs on what the stage before it found, whatever was reported on the way, so one text
can show faults of every kind at once. Only the empty text stops before the first stage.
-/

namespace RiscAssembler

/-- The diagnostic for an empty program text; no line can be blamed for it. -/
def emptySource : Diagnostic :=
  ⟨0, "empty file"⟩

/-- Whether there is a text to assemble at all. -/
def acceptSource (source : String) : Reported Bool :=
  if source.isEmpty then ⟨false, [emptySource]⟩ else ⟨true, []⟩

def parse (source : String) : Reported (List Instruction) :=
  tokenize source >>= group

def encodeLines : List Instruction → Reported (List String)
  | [] => pure []
  | instruction :: rest => do
      let line ← instruction.encodeLine
      let lines ← encodeLines rest
      pure (line :: lines)

/-- The result of assembling a program text. -/
structure Assembly where
  lines : List String
  instructions : List Instruction
  diagnostics : List Diagnostic
deriving DecidableEq, Repr

namespace Assembly

def succeeded (assembly : Assembly) : Bool :=
  assembly.diagnostics.isEmpty

/-- The text of the output lines, each ended by a line break. -/
def artifact (assembly : Assembly) : String :=
  String.join (assembly.lines.map (· ++ "\n"))

def report (assembly : Assembly) : String :=
  Diagnostics.report assembly.diagnostics

end Assembly

def assemble (source : String) : Assembly :=
  if source.isEmpty then
    ⟨[], [], [emptySource]⟩
  else
    let parsed := parse source
    let encoded := encodeLines parsed.value
    ⟨encoded.value, parsed.value, Diagnostics.sorted (parsed.diagnostics ++ encoded.diagnostics)⟩

end RiscAssembler
