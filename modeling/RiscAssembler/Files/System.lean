import RiscAssembler.Files.Location

/-!
Contract: a file system around a working directory.

Owns:
- directories and files, the files with their bytes;
- the place that a path leads to, and the reasons why it leads nowhere;
- reading a file as text, and writing text to a file, new or old;
- laying out a file system, and comparing two.

A path leads through directories only, and each of them has to exist, also when the path turns
back out of it. The working directory, the directories above it and the root are always there; what
else lies outside the working directory is there only once it has been put there. Writing replaces
the whole content of a file; it makes a file, but no directory.
-/

namespace RiscAssembler.Files

-- contents are compared byte by byte, whatever other instances are in scope
local instance contentDecidableEq : DecidableEq ByteArray := ByteArray.instDecidableEq

inductive Entry where
  | directory
  | file (content : ByteArray)
deriving DecidableEq

/-- Why a file cannot be read or written. The last case is for reasons that a file system outside
this library may give. -/
inductive Fault where
  | missing
  | notDirectory
  | isDirectory
  | notText
  | other (reason : String)
deriving DecidableEq, Repr

def Fault.reason : Fault → String
  | missing => "No such file or directory (os error 2)"
  | notDirectory => "Not a directory (os error 20)"
  | isDirectory => "Is a directory (os error 21)"
  | notText => "stream did not contain valid UTF-8"
  | other reason => reason

/-- The directories and files that are known, each place once. -/
structure FileSystem where
  entries : List (Location × Entry)
deriving DecidableEq

namespace FileSystem

def empty : FileSystem := ⟨[]⟩

/-- What lies at a place. A base is always a directory. -/
def entry? (files : FileSystem) (place : Location) : Option Entry :=
  if place.names = [] then some .directory else files.entries.lookup place

/-- Puts an entry at a place, instead of the one that may be there. -/
def put (files : FileSystem) (place : Location) (entry : Entry) : FileSystem :=
  ⟨(place, entry) :: files.entries.filter (·.1 ≠ place)⟩

def descend (files : FileSystem) : Location → List (List Char) → Except Fault Location
  | place, [] => .ok place
  | place, component :: rest =>
      if component = [] ∨ component = ['.'] then files.descend place rest
      else if component = ['.', '.'] then files.descend place.parent rest
      else
        match files.entry? (place.inside component) with
        | none => .error .missing
        | some (.file _) => .error .notDirectory
        | some .directory => files.descend (place.inside component) rest

/-- A component that stands for a directory, whatever lies around it. -/
def isDirectoryName (component : List Char) : Bool :=
  component = [] || component = ['.'] || component = ['.', '.']

/-- The place of the file that a path leads to. Every component but the last leads through a
directory, also the name in front of a slash at the end. -/
def locate (files : FileSystem) (path : String) : Except Fault Location :=
  let components := Path.components path
  match Location.start? path with
  | none => .error .missing
  | some start => do
      let folder ← files.descend start components.dropLast
      let name := components.getLastD []
      if isDirectoryName name then .error .isDirectory else .ok (folder.inside name)

/-- The place of the file that is written at a path. Only the directory around it has to exist. A
slash at the end asks for a directory, whether there is one or not. -/
def target (files : FileSystem) (path : String) : Except Fault Location :=
  let components := Path.components path
  let names := (components.reverse.dropWhile (· = [])).reverse
  match Location.start? path with
  | none => .error .missing
  | some start => do
      let folder ← files.descend start names.dropLast
      let name := names.getLastD []
      if isDirectoryName name ∨ names.length < components.length then .error .isDirectory
      else .ok (folder.inside name)

def readBytes (files : FileSystem) (path : String) : Except Fault ByteArray := do
  let place ← files.locate path
  match files.entry? place with
  | none => .error .missing
  | some .directory => .error .isDirectory
  | some (.file content) => .ok content

def read (files : FileSystem) (path : String) : Except Fault String := do
  let content ← files.readBytes path
  match String.fromUTF8? content with
  | none => .error .notText
  | some text => .ok text

def write (files : FileSystem) (path text : String) : Except Fault FileSystem := do
  let place ← files.target path
  match files.entry? place with
  | some .directory => .error .isDirectory
  | _ => .ok (files.put place (.file text.toUTF8))

/-- Makes the directories that components lead through, where nothing is. Also gives the last. -/
def makeDirectories (files : FileSystem) : Location → List (List Char) → FileSystem × Location
  | place, [] => (files, place)
  | place, component :: rest =>
      if component = [] ∨ component = ['.'] then files.makeDirectories place rest
      else if component = ['.', '.'] then files.makeDirectories place.parent rest
      else
        match files.entry? (place.inside component) with
        | none => (files.put (place.inside component) .directory).makeDirectories
            (place.inside component) rest
        | some _ => files.makeDirectories (place.inside component) rest

/-- Puts an entry at a path and makes the directories around it. A path that ends in the name of a
directory stands for that directory alone. -/
def install (files : FileSystem) (path : String) (entry : Entry) : FileSystem :=
  let components := Path.components path
  match Location.start? path with
  | none => files
  | some start =>
      let (files, folder) := files.makeDirectories start components.dropLast
      let name := components.getLastD []
      if isDirectoryName name then files else files.put (folder.inside name) entry

/-- The files below the working directory that are new or have changed, with their bytes. -/
def changes (before after : FileSystem) : List (Location × ByteArray) :=
  after.entries.filterMap fun (place, entry) =>
    match entry with
    | .directory => none
    | .file content =>
        if place.isLocal ∧ before.entry? place ≠ some (.file content) then some (place, content)
        else none

end FileSystem

end RiscAssembler.Files
