import RiscAssembler.Proofs.CommandLine.Effects
import RiscAssembler.Proofs.Path.Output

/-!
Contract: what a run for the machine code does to its own input if no output is given.

Owns:
- the place of a path out of the place of the folder around it;
- the default output of a path, which leads to the same file only if it is the same path, and the
  names for which it is;
- a run with the default output, which keeps its input, and quotes it, if the two paths differ;
- a run whose default output is its input, which writes over it.

The program does not compare the two paths. An input with the extension of output files is its own
default output, so it is lost, and the report for people quotes the machine code.

Main statement: `defaultRun_input`.
-/

namespace RiscAssembler

open Files

/-! ### Paths side by side -/

namespace Path

/-- The directory from which a path starts whose last component has this text in front of it. -/
def startOf (folder : List Char) : Location :=
  if folder.head? = some '/' then .root else .workingDirectory

section EndsIn

variable {path : String} {folder last : List Char} (ends : EndsIn path folder last)
include ends

theorem start?_eq (nonempty : last ≠ []) : Location.start? path = some (startOf folder) := by
  unfold Location.start? startOf
  rw [ends.text]
  cases folder with
  | nil =>
      obtain ⟨character, rest, rfl⟩ := List.exists_cons_of_ne_nil nonempty
      have notSlash : character ≠ '/' := by
        rintro rfl
        exact ends.noSlash List.mem_cons_self
      simp [notSlash]
  | cons character rest =>
      by_cases slash : character = '/'
      · simp [slash]
      · simp [slash]

variable {files : FileSystem} {place : Location} (located : files.locate path = .ok place)
include located

/-- A path that leads to a place ends in the name of a file. -/
theorem names_of_locate : Names path folder last := by
  obtain ⟨_, name, ⟨_, isLast, named⟩, _⟩ := FileSystem.locate_eq_ok_iff.mp located
  rw [components_eq ends, List.getLastD_concat] at isLast
  subst isLast
  simp only [FileSystem.isDirectoryName, Bool.or_eq_false_iff, decide_eq_false_iff_not] at named
  obtain ⟨⟨nonempty, notHere⟩, notAbove⟩ := named
  exact ⟨ends, nonempty, notHere, notAbove⟩

/-- Around the last component, what a path leads to does not hang on that component. -/
theorem inside_of_locate :
    ∃ around, files.descend (startOf folder) (folder.splitOn '/').dropLast = .ok around ∧
      place = around.inside last := by
  have names := names_of_locate ends located
  obtain ⟨around, name, ⟨⟨start, starts, reaches⟩, isLast, _⟩, rfl⟩ :=
    FileSystem.locate_eq_ok_iff.mp located
  rw [components_eq ends, List.getLastD_concat] at isLast
  rw [components_eq ends, List.dropLast_concat] at reaches
  rw [start?_eq ends names.nonempty] at starts
  cases starts
  subst isLast
  exact ⟨around, reaches, rfl⟩

end EndsIn

/-- The default output of a file is another file, unless the path is its own default output. -/
theorem locate_defaultOutput_ne {files : FileSystem} {path : String} {place : Location}
    (located : files.locate path = .ok place) (different : defaultOutput path ≠ path) :
    files.locate (defaultOutput path) ≠ .ok place := by
  obtain ⟨folder, name, ends⟩ := exists_endsIn path
  have names := names_of_locate ends located
  have outputEnds := endsIn_defaultOutput names
  intro same
  obtain ⟨around, reaches, rfl⟩ := inside_of_locate ends located
  obtain ⟨other, reachesToo, sameName⟩ := inside_of_locate outputEnds same
  obtain rfl : around = other := Except.ok.inj (reaches.symm.trans reachesToo)
  have renamed : name = outputName name := by
    simpa [Location.inside] using sameName
  apply different
  rw [← String.toList_inj, outputEnds.text, ends.text, ← renamed]

/-- A file is its own default output if its name has the extension of output files. The name of two
dots and that extension is left out: its default output names no file. -/
theorem defaultOutput_eq_self_iff_of_locate {files : FileSystem} {path : String} {place : Location}
    (located : files.locate path = .ok place) :
    ∃ named, named? path = some named ∧
      (defaultOutput path = path ↔
        extension? named.name = some ['b', 'i', 'n'] ∧ stem named.name ≠ ['.']) := by
  obtain ⟨folder, name, ends⟩ := exists_endsIn path
  have names := names_of_locate ends located
  exact ⟨_, named?_eq names, defaultOutput_eq_self_iff names⟩

end Path

namespace CommandLine

/-! ### Runs without an output -/

section DefaultRun

variable {colours : Terminal.Colours} {files : FileSystem} {arguments : List String}
  {request : Request} {source : String}
  (accepted : Request.ofArguments arguments = .ok request)
  (machineCode : request.product = .machineCode) (noOutput : request.output = none)
  (readable : files.read request.input = .ok source)

theorem destination_of_noOutput (machineCode : request.product = .machineCode)
    (noOutput : request.output = none) :
    request.destination = some (Path.defaultOutput request.input) := by
  rw [Request.destination, machineCode, Request.artifactPath, noOutput]
  rfl

include accepted machineCode noOutput readable

/-- An input that is not its own default output is read after the run as before it, whether the run
succeeds or not. -/
theorem read_input_of_different (different : Path.defaultOutput request.input ≠ request.input) :
    (filesAfter colours files arguments).read request.input = .ok source := by
  have destination := destination_of_noOutput machineCode noOutput
  cases opened : files.openForWriting (Path.defaultOutput request.input) with
  | error fault =>
      rw [(fails_of_unwritable accepted destination opened).untouched]
      exact readable
  | ok place =>
      have replaced : Replaces files (filesAfter colours files arguments) _ place _ :=
        (replaces_of_written accepted readable destination opened).1
      have elsewhere : files.locate request.input ≠ .ok place := by
        intro same
        exact Path.locate_defaultOutput_ne same different replaced.located
      exact replaced.read_other elsewhere readable

theorem errors_of_different (different : Path.defaultOutput request.input ≠ request.input)
    {place : Location}
    (opened : files.openForWriting (Path.defaultOutput request.input) = .ok place)
    (human : request.reportStyle = .human) :
    (outcome colours files arguments).errors =
      String.join ((assemble source).diagnostics.map fun diagnostic =>
        Excerpt.render colours diagnostic request.input source) ++
        summary colours (assemble source).diagnostics.length := by
  have destination := destination_of_noOutput machineCode noOutput
  have kept : (filesAfter colours files arguments).read request.input = .ok source :=
    read_input_of_different accepted machineCode noOutput readable different
  rw [filesAfter, run_of_written accepted readable destination opened] at kept
  rw [outcome, run_of_written accepted readable destination opened]
  have quoted := run_report_human colours request (request.product.diagnostics source) _ human kept
  rw [machineCode] at quoted
  rw [machineCode]
  exact quoted

/-- An input that is its own default output holds the machine code after the run. -/
theorem read_input_of_same (same : Path.defaultOutput request.input = request.input) :
    (filesAfter colours files arguments).read request.input =
      .ok (String.join ((assemble source).lines.map (· ++ "\n"))) := by
  have destination := destination_of_noOutput machineCode noOutput
  rw [same] at destination
  obtain ⟨place, located, held⟩ :=
    FileSystem.readBytes_eq_ok_iff.mp (FileSystem.read_eq_ok_iff.mp readable)
  have opened : files.openForWriting request.input = .ok place := by
    refine FileSystem.openForWriting_eq_ok_iff.mpr ⟨located, ?_⟩
    rw [held]
    rintro ⟨⟩
  have replaced : Replaces files (filesAfter colours files arguments) _ place _ :=
    (replaces_of_written accepted readable destination opened).1
  rw [machineCode] at replaced
  exact replaced.read_self

/-- A run without an output keeps its input if the default output is another path, whatever lies
there and however the run ends. Then the report for people quotes the source that was assembled. An
input that is its own default output ends as the machine code; it is an input whose name has the
extension of output files. -/
theorem defaultRun_input :
    (Path.defaultOutput request.input ≠ request.input →
      (filesAfter colours files arguments).read request.input = .ok source ∧
        ∀ place, files.openForWriting (Path.defaultOutput request.input) = .ok place →
          request.reportStyle = .human →
            (outcome colours files arguments).errors =
              String.join ((assemble source).diagnostics.map fun diagnostic =>
                Excerpt.render colours diagnostic request.input source) ++
                summary colours (assemble source).diagnostics.length) ∧
      (Path.defaultOutput request.input = request.input →
        (filesAfter colours files arguments).read request.input =
          .ok (String.join ((assemble source).lines.map (· ++ "\n")))) ∧
      ∃ named, Path.named? request.input = some named ∧
        (Path.defaultOutput request.input = request.input ↔
          Path.extension? named.name = some ['b', 'i', 'n'] ∧ Path.stem named.name ≠ ['.']) := by
  obtain ⟨place, located, _⟩ :=
    FileSystem.readBytes_eq_ok_iff.mp (FileSystem.read_eq_ok_iff.mp readable)
  refine ⟨fun different => ⟨?kept, fun place opened human => ?quoted⟩, fun same => ?lost,
    Path.defaultOutput_eq_self_iff_of_locate located⟩
  case kept => exact read_input_of_different accepted machineCode noOutput readable different
  case quoted =>
    exact errors_of_different accepted machineCode noOutput readable different opened human
  case lost => exact read_input_of_same accepted machineCode noOutput readable same

end DefaultRun

/-- The output of `p.s` stands beside it, and its own text is quoted. -/
theorem defaultRun_input_quoted :
    let files := FileSystem.empty.install "p.s" (.file "@\n".toUTF8)
    Request.ofArguments ["p.s"] = .ok ⟨"p.s", none, .machineCode, .human⟩ ∧
      files.read "p.s" = .ok "@\n" ∧
      (filesAfter .off files ["p.s"]).read "p.s" = .ok "@\n" ∧
      (outcome .off files ["p.s"]).errors =
        "error: unexpected character: '@'\n  --> p.s:1\n    |\n  1 | @\n    | ^\n" ++
          "error: 1 error\n" := by
  intro files
  have accepted : Request.ofArguments ["p.s"] = .ok ⟨"p.s", none, .machineCode, .human⟩ := rfl
  have readable : files.read "p.s" = .ok "@\n" := FileSystem.read_eq_ok_iff.mpr rfl
  have raised : (assemble "@\n").diagnostics = [⟨1, "unexpected character: '@'"⟩] := by
    rw [assemble_diagnostics_of_ordered (by decide) (by decide +kernel)]
    decide +kernel
  obtain ⟨kept, quoted⟩ :=
    (defaultRun_input accepted rfl rfl readable).1 (by decide +kernel)
  have errors := quoted _ rfl rfl
  rw [raised] at errors
  exact ⟨accepted, readable, kept, errors.trans (by decide +kernel)⟩

/-- A program in a file that is named as output files are is written over by its machine code. -/
theorem defaultRun_loses_input :
    let files := FileSystem.empty.install "p.bin" (.file "ADD X1,X2,X3\n".toUTF8)
    let after := filesAfter .off files ["p.bin"]
    Request.ofArguments ["p.bin"] = .ok ⟨"p.bin", none, .machineCode, .human⟩ ∧
      files.read "p.bin" = .ok "ADD X1,X2,X3\n" ∧
      after.read "p.bin" = .ok "00000000001100010000000010110011\n" ∧
      after.read "p.bin" ≠ files.read "p.bin" := by
  intro files after
  have accepted : Request.ofArguments ["p.bin"] = .ok ⟨"p.bin", none, .machineCode, .human⟩ := rfl
  have readable : files.read "p.bin" = .ok "ADD X1,X2,X3\n" := FileSystem.read_eq_ok_iff.mpr rfl
  have lines : (assemble "ADD X1,X2,X3\n").lines = ["00000000001100010000000010110011"] := by
    decide +kernel
  have written : after.read "p.bin" = _ :=
    read_input_of_same accepted rfl rfl readable (by decide +kernel)
  rw [lines] at written
  refine ⟨accepted, readable, written, ?_⟩
  rw [readable, written]
  decide

end CommandLine

end RiscAssembler
