import RiscAssembler.Files.System

/-!
Contract: computations that read and write files, as data.

Owns:
- a computation as the files that it reads and writes, one after the other, and its answer;
- what such a computation does to a file system.

What a computation does next may depend on what it has read and on what went wrong, and on nothing
else of the file system.
-/

namespace RiscAssembler.Files

inductive Procedure (α : Type) where
  | done (answer : α)
  | read (path : String) (next : Except Fault String → Procedure α)
  | write (path text : String) (next : Except Fault Unit → Procedure α)

namespace Procedure

def bind : Procedure α → (α → Procedure β) → Procedure β
  | done answer, second => second answer
  | read path next, second => read path fun result => (next result).bind second
  | write path text next, second => write path text fun result => (next result).bind second

instance : Monad Procedure where
  pure := done
  bind := bind

def readFile (path : String) : Procedure (Except Fault String) :=
  read path done

def writeFile (path text : String) : Procedure (Except Fault Unit) :=
  write path text done

/-- The answer of a computation, and the file system that it leaves. A failed write leaves the file
system as it was. -/
def run : Procedure α → FileSystem → α × FileSystem
  | done answer, files => (answer, files)
  | read path next, files => (next (files.read path)).run files
  | write path text next, files =>
      match files.write path text with
      | .error fault => (next (.error fault)).run files
      | .ok files => (next (.ok ())).run files

@[simp] theorem run_bind (first : Procedure α) (second : α → Procedure β) (files : FileSystem) :
    (first >>= second).run files =
      (second (first.run files).1).run (first.run files).2 := by
  change (first.bind second).run files = _
  induction first generalizing files with
  | done answer => rfl
  | read path next inductionHypothesis => simp [bind, run, inductionHypothesis]
  | write path text next inductionHypothesis =>
      simp only [bind, run]
      split <;> exact inductionHypothesis _ _

end Procedure

end RiscAssembler.Files
