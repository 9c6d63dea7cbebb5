import RiscAssembler.Assembly.File
import RiscAssembler.CommandLine.Arguments
import RiscAssembler.Dump.Basic
import RiscAssembler.Excerpt
import RiscAssembler.Path

/-!
Contract: a run of the program.

Owns:
- what each product writes, and where;
- the report of the diagnostics in each style;
- the exit status and the texts on the two output channels.

Does not own: log lines, which carry the time of day and are written only if the arguments or the
environment ask for them; how help and the faults of usage are laid out.

A run reads its input, writes its product and shows its report. The report for people reads the
input once more, after the product is written, and quotes what it finds there.
-/

namespace RiscAssembler.CommandLine

open Files

/-- How a run ends: its exit status and what it wrote on the two output channels. The error channel
holds the report without log lines. -/
@[ext] structure Outcome where
  status : Nat
  output : String
  errors : String
deriving DecidableEq, Repr

def versionText : String := "rvasm 0.1.0\n"

/-- A summary of the options, shown for either flag that asks for help. -/
def helpText : String :=
  "Assembles RISC-V-like source into binary machine-code lines\n\n" ++
  "Usage: rvasm [OPTIONS] <INPUT>\n\n" ++
  "Arguments:\n" ++
  "  <INPUT>                     Input assembly source\n\n" ++
  "Options:\n" ++
  "  -o, --output <OUTPUT>       Output file. Defaults to the input path with a .bin extension\n" ++
  "      --emit <EMIT>           What to produce: bin, tokens or instructions\n" ++
  "      --diagnostics <FORMAT>  How diagnostics are printed on stderr: human, plain or json\n" ++
  "  -v, --verbose               More log output (repeatable)\n" ++
  "  -q, --quiet                 Only log errors\n" ++
  "  -h, --help                  Print help\n" ++
  "  -V, --version               Print version\n"

/-- A product that did not go to a file, with the diagnostics. -/
structure Produced where
  output : String
  diagnostics : List Diagnostic
deriving DecidableEq, Repr

def dumpTokens (source : String) : Reported String := do
  if ← acceptSource source then
    return (Dump.tokens (← tokenize source)).indented
  else
    return (Dump.tokens []).indented

def dumpInstructions (source : String) : Reported String := do
  if ← acceptSource source then
    return (Dump.instructions (← parse source)).indented
  else
    return (Dump.instructions []).indented

/-- Writes a dump of the source to the output file, or shows it if there is none. -/
def produceDump (input : String) (output : Option String) (dump : String → Reported String) :
    Procedure (Except FileError Produced) := do
  match ← readSource input with
  | .error failure => return .error failure
  | .ok source =>
      let dumped := dump source
      let text := dumped.value ++ "\n"
      let diagnostics := Diagnostics.sorted dumped.diagnostics
      match output with
      | none => return .ok ⟨text, diagnostics⟩
      | some path =>
          match ← writeOutput path text with
          | .error failure => return .error failure
          | .ok () => return .ok ⟨"", diagnostics⟩

namespace Request

def artifactPath (request : Request) : String :=
  request.output.getD (Path.defaultOutput request.input)

def produce (request : Request) : Procedure (Except FileError Produced) :=
  match request.product with
  | .machineCode => do
      match ← assembleFile request.input request.artifactPath with
      | .error failure => return .error failure
      | .ok assembly => return .ok ⟨"", assembly.diagnostics⟩
  | .tokens => produceDump request.input request.output dumpTokens
  | .instructions => produceDump request.input request.output dumpInstructions

end Request

def errorMessage (colours : Terminal.Colours) (message : String) : String :=
  String.ofList (Excerpt.errorLabel colours) ++ ": " ++ message ++ "\n"

def summary (colours : Terminal.Colours) (count : Nat) : String :=
  if count = 0 then ""
  else errorMessage colours (count.repr ++ if count = 1 then " error" else " errors")

def report (colours : Terminal.Colours) (request : Request) (diagnostics : List Diagnostic) :
    Procedure String :=
  match request.reportStyle with
  | .plain => return String.join (diagnostics.map fun diagnostic => diagnostic.text ++ "\n")
  | .json => return (Dump.diagnostics diagnostics).compact ++ "\n"
  | .human => do
      let source := match ← Procedure.readFile request.input with
        | .ok source => source
        | .error _ => ""
      let excerpts := diagnostics.map fun diagnostic =>
        Excerpt.render colours diagnostic request.input source
      return String.join excerpts ++ summary colours diagnostics.length

/-- Does what a request asks for. The status is zero exactly if there is nothing to report. -/
def Request.perform (colours : Terminal.Colours) (request : Request) : Procedure Outcome := do
  match ← request.produce with
  | .error failure => return ⟨1, "", errorMessage colours failure.message⟩
  | .ok produced =>
      let errors ← report colours request produced.diagnostics
      return ⟨if produced.diagnostics.isEmpty then 0 else 1, produced.output, errors⟩

def run (colours : Terminal.Colours) (arguments : List String) : Procedure Outcome :=
  match Request.ofArguments arguments with
  | .ok request => request.perform colours
  | .error .help => return ⟨0, helpText, ""⟩
  | .error .version => return ⟨0, versionText, ""⟩
  | .error (.usage fault) => return ⟨2, "", errorMessage colours fault.message⟩

end RiscAssembler.CommandLine
