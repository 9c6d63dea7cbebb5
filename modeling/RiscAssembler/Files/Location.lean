import RiscAssembler.Path

/-!
Contract: places in a tree of directories, seen from a working directory.

Owns:
- the directories from which places are named: the working directory, those above it, the root;
- a place as the names that lead to it from such a directory;
- the steps from a place to the one above it and to one inside it;
- the place from which a path starts.

There is always a directory above a place, and the root lies above itself. The name of the working
directory is not known, so no name leads back into it from above.
-/

namespace RiscAssembler.Files

/-- A directory from which places are named: the one so many levels above the working directory,
which is itself at level zero, or the root. -/
inductive Base where
  | above (levels : Nat)
  | root
deriving DecidableEq, Repr

def Base.parent : Base → Base
  | above levels => above (levels + 1)
  | root => root

/-- A place: a base, and the names that lead on from there, the innermost first. -/
structure Location where
  base : Base
  names : List (List Char)
deriving DecidableEq, Repr

namespace Location

def workingDirectory : Location := ⟨.above 0, []⟩

def root : Location := ⟨.root, []⟩

def parent (place : Location) : Location :=
  match place.names with
  | [] => ⟨place.base.parent, []⟩
  | _ :: outer => ⟨place.base, outer⟩

def inside (place : Location) (name : List Char) : Location :=
  ⟨place.base, name :: place.names⟩

/-- Whether a place is the working directory or lies below it. -/
def isLocal (place : Location) : Bool :=
  place.base = .above 0

def path (place : Location) : String :=
  String.ofList (['/'].intercalate place.names.reverse)

/-- The directory from which a path starts. The empty path starts nowhere. -/
def start? (path : String) : Option Location :=
  match path.toList with
  | [] => none
  | '/' :: _ => some root
  | _ => some workingDirectory

end Location

end RiscAssembler.Files
