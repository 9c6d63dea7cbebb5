/-!
Contract: file paths as texts.

Owns:
- the components of a path, which a slash separates;
- the file that a path names, with the text around its name;
- a file name as a stem and an extension;
- where the output goes when no path is given for it.

An empty component and a single dot stand for the directory in front of them, and two dots for the
directory above it.
-/

namespace RiscAssembler.Path

/-- The components of a path, from the left; two slashes in a row have an empty one between them. -/
def components (path : String) : List (List Char) :=
  path.toList.splitOn '/'

/-- Drops slashes and single dots behind the last component of a path that is read backwards. -/
def skipTrailing : List Char → List Char
  | '/' :: rest => skipTrailing rest
  | '.' :: '/' :: rest => skipTrailing ('/' :: rest)
  | path => path

/-- A path that names a file: the text in front of the name, the name, and the text behind it. -/
structure Named where
  folder : List Char
  name : List Char
  trailing : List Char
deriving DecidableEq, Repr

/-- The file that a path names. A path names none if it ends in two dots, or holds nothing but
slashes and a single dot. -/
def named? (path : String) : Option Named :=
  let backwards := skipTrailing path.toList.reverse
  let name := (backwards.takeWhile (· ≠ '/')).reverse
  if name = [] ∨ name = ['.'] ∨ name = ['.', '.'] then none
  else some
    { folder := (backwards.dropWhile (· ≠ '/')).reverse
      name
      trailing := path.toList.drop backwards.length }

/-- The extension of a file name: what follows its last dot, unless the name starts with that
dot. -/
def extension? (name : List Char) : Option (List Char) :=
  match name.reverse.dropWhile (· ≠ '.') with
  | [] | ['.'] => none
  | _ => some (name.reverse.takeWhile (· ≠ '.')).reverse

/-- A file name without its extension and the dot in front of it. -/
def stem (name : List Char) : List Char :=
  match extension? name with
  | none => name
  | some extension => name.take (name.length - extension.length - 1)

/-! ### The default output -/

/-- The extension of output files, with its dot. -/
def outputSuffix : List Char := ['.', 'b', 'i', 'n']

/-- The path beside the input, under the name of the input with `bin` as its extension. What follows
the name is dropped. A path that names no file stays as it is. So does, but for its extension, a
path that ends in two dots and an extension: without the extension it names no file. -/
def defaultOutput (input : String) : String :=
  match named? input with
  | none => input
  | some path =>
      let base := stem path.name
      let extension := (extension? path.name).getD []
      if base = ['.'] ∧ extension ≠ [] ∧ path.trailing = [] then
        String.ofList (path.folder ++ ['.', '.'])
      else
        String.ofList (path.folder ++ base ++ outputSuffix)

end RiscAssembler.Path
