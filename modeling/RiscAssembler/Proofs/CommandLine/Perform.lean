import RiscAssembler.CommandLine.Run
import RiscAssembler.Proofs.Assembly.Stages
import RiscAssembler.Proofs.Files.System

/-!
Contract: how a request ends on a file system.

Owns:
- the text of each product of a source, and the diagnostics that are reported with it;
- the file that a request writes, if it writes one;
- the ways to end: with an input that cannot be read, with an output that cannot be opened, with a
  text that is shown, with a text that is written;
- the outcome of each, and the file system that it leaves.

The machine code goes through the assembly of a file and the dumps do not, yet all of them end in
the same ways.

Main statements: `run_assembleFile`, `run_of_unreadable`, `run_of_unwritable`, `run_of_shown` and
`run_of_written`.
-/

namespace RiscAssembler.CommandLine

open Files

/-! ### Products -/

/-- The text of a product: the output lines, or the tokens or the instructions as indented JSON,
with a line feed at the end of each line. -/
def Product.text : Product → String → String
  | machineCode, source => String.join ((assemble source).lines.map (· ++ "\n"))
  | tokens, source => (Dump.tokens (tokenize source).value).indented ++ "\n"
  | instructions, source => (Dump.instructions (parse source).value).indented ++ "\n"

/-- What is reported with a product: all that the stages raise up to the one that makes it. -/
def Product.diagnostics : Product → String → List Diagnostic
  | machineCode, source => (assemble source).diagnostics
  | tokens, source =>
      if source = "" then [emptySource] else Diagnostics.sorted (tokenize source).diagnostics
  | instructions, source =>
      if source = "" then [emptySource] else Diagnostics.sorted (parse source).diagnostics

theorem sorted_emptySource : Diagnostics.sorted [emptySource] = [emptySource] :=
  List.mergeSort_singleton _

/-- The dump of what a stage makes of a source. The empty source is refused before the stage. -/
def dumpOf (stage : String → Reported (List α)) (json : List α → Json.Value) (source : String) :
    Reported String := do
  if ← acceptSource source then
    return (json (← stage source)).indented
  else
    return (json []).indented

section Dump

variable (stage : String → Reported (List α)) (json : List α → Json.Value) (source : String)

/-- A stage that makes nothing of the empty source need not run on it. -/
theorem dumpOf_value (nothing : (stage "").value = []) :
    (dumpOf stage json source).value = (json (stage source).value).indented := by
  by_cases empty : source = ""
  · rw [empty, nothing]
    rfl
  · simp [dumpOf, acceptSource, empty]

theorem sorted_dumpOf_diagnostics :
    Diagnostics.sorted (dumpOf stage json source).diagnostics =
      if source = "" then [emptySource] else Diagnostics.sorted (stage source).diagnostics := by
  by_cases empty : source = ""
  · rw [if_pos empty, empty]
    exact sorted_emptySource
  · simp [dumpOf, acceptSource, empty]

end Dump

theorem dumpTokens_eq : dumpTokens = dumpOf tokenize Dump.tokens := rfl

theorem dumpInstructions_eq : dumpInstructions = dumpOf parse Dump.instructions := rfl

/-! ### Ways to end -/

/-- How a computation ends that reads a source and writes a text of it to a file, if it is given
one. Where it does not fail it answers for the source. -/
def ending (input : String) (output : Option String) (text : String → String)
    (answer : String → α) (files : FileSystem) : Except FileError α × FileSystem :=
  match files.read input, output with
  | .error fault, _ => (.error (.unreadable input fault), files)
  | .ok source, none => (.ok (answer source), files)
  | .ok source, some path =>
      match files.openForWriting path with
      | .error fault => (.error (.unwritable path fault), files)
      | .ok place => (.ok (answer source), files.put place (.file (text source).toUTF8))

section Ending

variable {files : FileSystem} {input path : String} {text : String → String}
  {answer : String → α} {fault : Fault} {place : Location} {source : String}

theorem ending_of_unreadable (unreadable : files.read input = .error fault)
    (output : Option String) :
    ending input output text answer files = (.error (.unreadable input fault), files) := by
  simp only [ending, unreadable]

theorem ending_of_shown (readable : files.read input = .ok source) :
    ending input none text answer files = (.ok (answer source), files) := by
  simp only [ending, readable]

theorem ending_of_unwritable (readable : files.read input = .ok source)
    (closed : files.openForWriting path = .error fault) :
    ending input (some path) text answer files = (.error (.unwritable path fault), files) := by
  simp only [ending, readable, closed]

theorem ending_of_written (readable : files.read input = .ok source)
    (opened : files.openForWriting path = .ok place) :
    ending input (some path) text answer files =
      (.ok (answer source), files.put place (.file (text source).toUTF8)) := by
  simp only [ending, readable, opened]

theorem ending_map (change : α → β) (output : Option String) :
    ending input output text (change ∘ answer) files =
      ((ending input output text answer files).1.map change,
        (ending input output text answer files).2) := by
  unfold ending
  split
  · rfl
  · rfl
  · split
    · rfl
    · rfl

end Ending

/-! ### Computations that end so -/

section Run

variable {files : FileSystem} {path : String}

theorem run_readSource_of_error {fault : Fault} (unreadable : files.read path = .error fault) :
    (readSource path).run files = (.error (.unreadable path fault), files) := by
  rw [readSource, Procedure.run_bind]
  simp only [Procedure.readFile, Procedure.run, unreadable]
  rfl

theorem run_readSource_of_ok {source : String} (readable : files.read path = .ok source) :
    (readSource path).run files = (.ok source, files) := by
  rw [readSource, Procedure.run_bind]
  simp only [Procedure.readFile, Procedure.run, readable]
  rfl

theorem run_writeOutput_of_error {fault : Fault} (closed : files.openForWriting path = .error fault)
    (text : String) :
    (writeOutput path text).run files = (.error (.unwritable path fault), files) := by
  rw [writeOutput, Procedure.run_bind]
  simp only [Procedure.writeFile, Procedure.run, FileSystem.write_eq, closed, Except.map]
  rfl

theorem run_writeOutput_of_ok {place : Location} (opened : files.openForWriting path = .ok place)
    (text : String) :
    (writeOutput path text).run files = (.ok (), files.put place (.file text.toUTF8)) := by
  rw [writeOutput, Procedure.run_bind]
  simp only [Procedure.writeFile, Procedure.run, FileSystem.write_eq, opened, Except.map]
  rfl

end Run

theorem run_assembleFile (input output : String) (files : FileSystem) :
    (assembleFile input output).run files =
      ending input (some output) Product.machineCode.text assemble files := by
  rw [assembleFile, Procedure.run_bind]
  cases readable : files.read input with
  | error fault =>
      rw [run_readSource_of_error readable, ending_of_unreadable readable]
      rfl
  | ok source =>
      rw [run_readSource_of_ok readable]
      simp only [Procedure.run_bind]
      cases opened : files.openForWriting output with
      | error fault =>
          rw [run_writeOutput_of_error opened, ending_of_unwritable readable opened]
          rfl
      | ok place =>
          rw [run_writeOutput_of_ok opened, ending_of_written readable opened]
          rfl

theorem run_produceDump (input : String) (output : Option String) (dump : String → Reported String)
    (files : FileSystem) :
    (produceDump input output dump).run files =
      ending input output (fun source => (dump source).value ++ "\n")
        (fun source => ⟨if output.isSome then "" else (dump source).value ++ "\n",
          Diagnostics.sorted (dump source).diagnostics⟩) files := by
  rw [produceDump, Procedure.run_bind]
  cases readable : files.read input with
  | error fault =>
      rw [run_readSource_of_error readable, ending_of_unreadable readable]
      rfl
  | ok source =>
      rw [run_readSource_of_ok readable]
      cases output with
      | none =>
          rw [ending_of_shown readable]
          rfl
      | some path =>
          simp only [Procedure.run_bind]
          cases opened : files.openForWriting path with
          | error fault =>
              rw [run_writeOutput_of_error opened, ending_of_unwritable readable opened]
              rfl
          | ok place =>
              rw [run_writeOutput_of_ok opened, ending_of_written readable opened]
              rfl

/-! ### Requests -/

namespace Request

/-- The path of the file that a request writes, if it writes one. -/
def destination (request : Request) : Option String :=
  match request.product with
  | .machineCode => some request.artifactPath
  | .tokens | .instructions => request.output

/-- What a request comes to for a source: its text where no file takes it, and the diagnostics. -/
def produced (request : Request) (source : String) : Produced :=
  ⟨if request.destination.isSome then "" else request.product.text source,
    request.product.diagnostics source⟩

/-- Of the assembly that an artifact is made of, a request keeps the diagnostics. -/
theorem run_produce_machineCode {request : Request} (files : FileSystem)
    (machineCode : request.product = .machineCode) :
    request.produce.run files =
      (((assembleFile request.input request.artifactPath).run files).1.map
          fun assembly => ⟨"", assembly.diagnostics⟩,
        ((assembleFile request.input request.artifactPath).run files).2) := by
  rw [produce, machineCode]
  simp only [Procedure.run_bind]
  cases ((assembleFile request.input request.artifactPath).run files).1 with
  | error failure => rfl
  | ok assembly => rfl

theorem run_produce (request : Request) (files : FileSystem) :
    request.produce.run files =
      ending request.input request.destination request.product.text request.produced files := by
  obtain ⟨input, output, product, style⟩ := request
  cases product with
  | machineCode =>
      rw [run_produce_machineCode files rfl, run_assembleFile]
      exact (ending_map _ _).symm
  | tokens =>
      simp only [produce, run_produceDump, dumpTokens_eq,
        dumpOf_value _ _ _ tokenize_value_empty, sorted_dumpOf_diagnostics]
      rfl
  | instructions =>
      simp only [produce, run_produceDump, dumpInstructions_eq,
        dumpOf_value _ _ _ parse_value_empty, sorted_dumpOf_diagnostics]
      rfl

end Request

/-! ### Outcomes -/

section Outcome

variable (colours : Terminal.Colours) (request : Request) (diagnostics : List Diagnostic)
  (files : FileSystem)

/-- A report reads files and writes none. -/
theorem run_report_files : ((report colours request diagnostics).run files).2 = files := by
  unfold report
  cases request.reportStyle with
  | plain => rfl
  | json => rfl
  | human => rw [Procedure.run_bind]; rfl

/-- The report for people quotes the text that the input has when the report is made. -/
theorem run_report_human {source : String} (human : request.reportStyle = .human)
    (readable : files.read request.input = .ok source) :
    ((report colours request diagnostics).run files).1 =
      String.join (diagnostics.map fun diagnostic =>
        Excerpt.render colours diagnostic request.input source) ++
        summary colours diagnostics.length := by
  unfold report
  simp only [human, Procedure.run_bind, Procedure.readFile, Procedure.run, readable]
  rfl

variable {colours request files}

theorem run_perform_of_failed {failure : FileError} {after : FileSystem}
    (failed : request.produce.run files = (.error failure, after)) :
    (request.perform colours).run files =
      (⟨1, "", errorMessage colours failure.message⟩, after) := by
  rw [Request.perform, Procedure.run_bind, failed]
  rfl

theorem run_perform_of_produced {produced : Produced} {after : FileSystem}
    (succeeded : request.produce.run files = (.ok produced, after)) :
    (request.perform colours).run files =
      (⟨if produced.diagnostics = [] then 0 else 1, produced.output,
        ((report colours request produced.diagnostics).run after).1⟩, after) := by
  rw [Request.perform, Procedure.run_bind, succeeded]
  simp only [Procedure.run_bind, run_report_files, List.isEmpty_iff]
  rfl

end Outcome

/-! ### Runs -/

/-- How a run ends, without the files that it leaves. -/
def outcome (colours : Terminal.Colours) (files : FileSystem) (arguments : List String) : Outcome :=
  ((run colours arguments).run files).1

/-- The files that a run leaves. -/
def filesAfter (colours : Terminal.Colours) (files : FileSystem) (arguments : List String) :
    FileSystem :=
  ((run colours arguments).run files).2

section Arguments

variable {colours : Terminal.Colours} {arguments : List String} {request : Request}
  {files : FileSystem} (accepted : Request.ofArguments arguments = .ok request)
include accepted

theorem run_eq_perform : run colours arguments = request.perform colours := by
  rw [run, accepted]

theorem run_of_unreadable {fault : Fault} (unreadable : files.read request.input = .error fault) :
    (run colours arguments).run files =
      (⟨1, "", errorMessage colours (FileError.unreadable request.input fault).message⟩,
        files) := by
  rw [run_eq_perform accepted]
  apply run_perform_of_failed
  rw [Request.run_produce, ending_of_unreadable unreadable]

variable {source : String} (readable : files.read request.input = .ok source)
include readable

theorem run_of_unwritable {path : String} {fault : Fault}
    (destination : request.destination = some path)
    (closed : files.openForWriting path = .error fault) :
    (run colours arguments).run files =
      (⟨1, "", errorMessage colours (FileError.unwritable path fault).message⟩, files) := by
  rw [run_eq_perform accepted]
  apply run_perform_of_failed
  rw [Request.run_produce, destination, ending_of_unwritable readable closed]

theorem run_of_shown (destination : request.destination = none) :
    (run colours arguments).run files =
      (⟨if request.product.diagnostics source = [] then 0 else 1, request.product.text source,
        ((report colours request (request.product.diagnostics source)).run files).1⟩, files) := by
  have shown : request.produce.run files =
      (.ok ⟨request.product.text source, request.product.diagnostics source⟩, files) := by
    rw [Request.run_produce, destination, ending_of_shown readable, Request.produced, destination]
    rfl
  rw [run_eq_perform accepted]
  exact run_perform_of_produced shown

theorem run_of_written {path : String} {place : Location}
    (destination : request.destination = some path)
    (opened : files.openForWriting path = .ok place) :
    (run colours arguments).run files =
      (⟨if request.product.diagnostics source = [] then 0 else 1, "",
        ((report colours request (request.product.diagnostics source)).run
          (files.put place (.file (request.product.text source).toUTF8))).1⟩,
        files.put place (.file (request.product.text source).toUTF8)) := by
  have written : request.produce.run files =
      (.ok ⟨"", request.product.diagnostics source⟩,
        files.put place (.file (request.product.text source).toUTF8)) := by
    rw [Request.run_produce, destination, ending_of_written readable opened, Request.produced,
      destination]
    rfl
  rw [run_eq_perform accepted]
  exact run_perform_of_produced written

end Arguments

end RiscAssembler.CommandLine
