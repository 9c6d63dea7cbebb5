import RiscAssembler.Assembly.Basic
import RiscAssembler.Files.Procedure

/-!
Contract: assembling one file into another.

The source is read before anything is written. The artifact is written whatever the report says, so
an output file always holds one line for each instruction.
-/

namespace RiscAssembler

open Files

inductive FileError where
  | unreadable (path : String) (fault : Fault)
  | unwritable (path : String) (fault : Fault)
deriving DecidableEq, Repr

def FileError.message : FileError → String
  | unreadable path fault => "failed to read " ++ path ++ ": " ++ fault.reason
  | unwritable path fault => "failed to write " ++ path ++ ": " ++ fault.reason

def readSource (path : String) : Procedure (Except FileError String) := do
  match ← Procedure.readFile path with
  | .error fault => return .error (.unreadable path fault)
  | .ok source => return .ok source

def writeOutput (path text : String) : Procedure (Except FileError Unit) := do
  match ← Procedure.writeFile path text with
  | .error fault => return .error (.unwritable path fault)
  | .ok () => return .ok ()

def assembleFile (input output : String) : Procedure (Except FileError Assembly) := do
  match ← readSource input with
  | .error failure => return .error failure
  | .ok source =>
      let assembly := assemble source
      match ← writeOutput output assembly.artifact with
      | .error failure => return .error failure
      | .ok () => return .ok assembly

end RiscAssembler
