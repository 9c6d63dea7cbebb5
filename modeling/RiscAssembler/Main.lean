import RiscAssembler.CommandLine.Run

/-!
Contract: the program on the file system of the machine that it runs on.

Owns:
- the files that a procedure reads and writes, on disk;
- the reasons that the disk gives for a failure;
- the two output channels, and the settings by which there are colours on them.

What is read, written and shown is decided by `CommandLine.run`.
-/

namespace RiscAssembler.Disk

open Files

/-- The code by which a disk says that a directory is no file. -/
def directoryCode : UInt32 := 21

/-- The fault behind a failure of the disk. -/
def faultOf (failure : IO.Error) : Fault :=
  match failure with
  | .noFileOrDirectory .. => .missing
  | .inappropriateType _ code _ => if code = directoryCode then .isDirectory else .notDirectory
  | failure => .other (toString failure)

def read (path : String) : IO (Except Fault String) := do
  try
    let content ← IO.FS.readBinFile path
    match String.fromUTF8? content with
    | none => return .error .notText
    | some text => return .ok text
  catch failure => return .error (faultOf failure)

def write (path text : String) : IO (Except Fault Unit) := do
  try
    IO.FS.writeFile path text
    return .ok ()
  catch failure => return .error (faultOf failure)

/-- Carries out a procedure on disk. -/
def perform : Procedure α → IO α
  | .done answer => return answer
  | .read path next => do perform (next (← read path))
  | .write path text next => do perform (next (← write path text))

end RiscAssembler.Disk

namespace RiscAssembler.Terminal

/-- The settings of the environment that the program runs in. -/
def settings : IO Settings := do
  return {
    noColor := ← IO.getEnv "NO_COLOR"
    cliColor := ← IO.getEnv "CLICOLOR"
    cliColorForce := ← IO.getEnv "CLICOLOR_FORCE"
    isTerminal := ← (← IO.getStdout).isTty }

end RiscAssembler.Terminal

open RiscAssembler in
def main (arguments : List String) : IO UInt32 := do
  let colours := (← Terminal.settings).colours
  let outcome ← Disk.perform (CommandLine.run colours arguments)
  (← IO.getStdout).putStr outcome.output
  (← IO.getStderr).putStr outcome.errors
  return UInt32.ofNat outcome.status
