import RiscAssembler.Files.System

/-!
Contract: what writing a file changes, and what it leaves as it was.

Owns:
- the entries of a file system where one entry has been put;
- the place that a path leads to, in full, and that it hangs on the directories alone;
- reading, by the bytes that a file holds;
- opening a file for writing, apart from the text that is written then;
- a file that is read back after it was written, and the other files, which are as before.

A path may lead through directories and turn back out of them, so a new file could stand in its way,
or open a way. It does neither: what is a directory stays one, and nothing else becomes one.

Main statements: `write_eq`, `readBytes_put_self` and `readBytes_put_of_ne`.
-/

namespace RiscAssembler.Files.FileSystem

/-! ### Entries -/

section Entries

variable {files : FileSystem} {place other : Location} {entry : Entry}

theorem entry?_put_self (named : place.names ≠ []) :
    entry? (files.put place entry) place = some entry := by
  simp [ entry?, put, named]

private theorem lookup_filter_ne (entries : List (Location × Entry)) (different : other ≠ place) :
    (entries.filter (·.1 ≠ place)).lookup other = entries.lookup other := by
  induction entries with
  | nil => rfl
  | cons head rest inductionHypothesis =>
      obtain ⟨key, value⟩ := head
      rw [List.filter_cons, List.lookup_cons]
      by_cases removed : key = place
      · have notHere : (other == key) = false := by
          rw [removed]
          exact beq_false_of_ne different
        rw [if_neg (by simpa using removed), notHere, inductionHypothesis]
      · rw [if_pos (by simpa using removed), List.lookup_cons, inductionHypothesis]

theorem entry?_put_of_ne (different : other ≠ place) :
    entry? (files.put place entry) other = files.entry? other := by
  have elsewhere : (other == place) = false := beq_false_of_ne different
  simp only [ entry?, put, List.lookup_cons, elsewhere, lookup_filter_ne _ different]

end Entries

/-! ### Places -/

theorem bind_eq_ok_iff {first : Except ε α} {second : α → Except ε β} {value : β} :
    first >>= second = .ok value ↔ ∃ middle, first = .ok middle ∧ second middle = .ok value := by
  cases first with
  | error fault =>
      constructor
      · intro ended
        cases ended
      · rintro ⟨middle, ended, _⟩
        cases ended
  | ok middle =>
      constructor
      · intro ended
        exact ⟨middle, rfl, ended⟩
      · rintro ⟨_, reached, ended⟩
        cases reached
        exact ended

/-- A path leads on from where it starts to a directory, by all its components but the last, and the
last is a name in that directory. -/
structure Leads (files : FileSystem) (path : String) (folder : Location) (name : List Char) :
    Prop where
  reaches : ∃ start, Location.start? path = some start ∧
    files.descend start (Path.components path).dropLast = .ok folder
  last : (Path.components path).getLastD [] = name
  named : isDirectoryName name = false

theorem locate_eq_ok_iff {files : FileSystem} {path : String} {place : Location} :
    files.locate path = .ok place ↔
      ∃ folder name, files.Leads path folder name ∧ place = folder.inside name := by
  unfold locate
  cases starts : Location.start? path with
  | none =>
      constructor
      · intro located
        cases located
      · rintro ⟨_, _, ⟨⟨_, starts', _⟩, _, _⟩, _⟩
        rw [starts] at starts'
        cases starts'
  | some start =>
      simp only [bind_eq_ok_iff]
      constructor
      · rintro ⟨folder, reaches, ended⟩
        split at ended
        · cases ended
        · rename_i named
          cases ended
          exact ⟨folder, _, ⟨⟨start, starts, reaches⟩, rfl, Bool.eq_false_iff.mpr named⟩, rfl⟩
      · rintro ⟨folder, name, ⟨⟨_, starts', reaches⟩, rfl, named⟩, rfl⟩
        rw [starts] at starts'
        cases starts'
        refine ⟨folder, reaches, ?_⟩
        rw [if_neg (Bool.eq_false_iff.mp named)]

/-- Slashes at the end leave empty components behind the last name. Without them nothing is cut
off. -/
theorem trimmed_eq_self {components : List (List Char)} (named : components.getLastD [] ≠ []) :
    (components.reverse.dropWhile (· = [])).reverse = components := by
  obtain rfl | ⟨front, last, rfl⟩ := List.eq_nil_or_concat components
  · rfl
  · rw [List.concat_eq_append] at named ⊢
    rw [List.getLastD_concat] at named
    rw [List.reverse_concat, List.dropWhile_cons_of_neg (by simpa using named),
      List.reverse_cons, List.reverse_reverse]

theorem eq_of_not_length_trimmed_lt {components : List (List Char)}
    (uncut : ¬(components.reverse.dropWhile (· = [])).reverse.length < components.length) :
    (components.reverse.dropWhile (· = [])).reverse = components := by
  have suffix : components.reverse.dropWhile (· = []) <:+ components.reverse :=
    List.dropWhile_suffix _
  have whole := suffix.eq_of_length_le (by simpa using uncut)
  rw [whole, List.reverse_reverse]

/-- A path is written where it leads to. The two differ only in the reasons why they fail. -/
theorem target_eq_ok_iff {files : FileSystem} {path : String} {place : Location} :
    files.target path = .ok place ↔ files.locate path = .ok place := by
  unfold target locate
  cases Location.start? path with
  | none => exact Iff.rfl
  | some start =>
      by_cases named : (Path.components path).getLastD [] = []
      · simp only [bind_eq_ok_iff]
        constructor
        · rintro ⟨folder, reaches, ended⟩
          split at ended
          · cases ended
          · rename_i opened
            obtain ⟨noDirectory, uncut⟩ := not_or.mp opened
            rw [eq_of_not_length_trimmed_lt uncut, named] at noDirectory
            exact absurd rfl noDirectory
        · rintro ⟨folder, reaches, ended⟩
          rw [named] at ended
          cases ended
      · simp only [trimmed_eq_self named, Nat.lt_irrefl, or_false]

/-! ### Reading -/

theorem readBytes_eq_ok_iff {files : FileSystem} {path : String} {bytes : ByteArray} :
    files.readBytes path = .ok bytes ↔
      ∃ place, files.locate path = .ok place ∧ files.entry? place = some (.file bytes) := by
  simp only [readBytes, bind_eq_ok_iff]
  constructor
  · rintro ⟨place, located, held⟩
    split at held
    · cases held
    · cases held
    · rename_i content entry
      cases held
      exact ⟨place, located, entry⟩
  · rintro ⟨place, located, entry⟩
    refine ⟨place, located, ?_⟩
    rw [entry]

theorem fromUTF8?_eq_some_iff {bytes : ByteArray} {text : String} :
    String.fromUTF8? bytes = some text ↔ bytes = text.toUTF8 := by
  unfold String.fromUTF8?
  constructor
  · intro decoded
    split at decoded
    · cases decoded
      rfl
    · cases decoded
  · rintro rfl
    exact dif_pos text.isValidUTF8

/-- A text that is read is the one whose bytes the file holds. -/
theorem read_eq_ok_iff {files : FileSystem} {path text : String} :
    files.read path = .ok text ↔ files.readBytes path = .ok text.toUTF8 := by
  simp only [read, bind_eq_ok_iff]
  constructor
  · rintro ⟨bytes, held, decoded⟩
    split at decoded
    · cases decoded
    · rename_i found
      cases decoded
      rw [held, fromUTF8?_eq_some_iff.mp found]
  · intro held
    refine ⟨text.toUTF8, held, ?_⟩
    rw [fromUTF8?_eq_some_iff.mpr rfl]

/-! ### Opening and writing -/

/-- The place of the file that is opened for writing at a path. Nothing is changed if it fails. -/
def openForWriting (files : FileSystem) (path : String) : Except Fault Location := do
  let place ← files.target path
  if files.entry? place = some .directory then .error .isDirectory else .ok place

/-- Whether a write succeeds does not hang on the text. It puts the text where the path is
opened. -/
theorem write_eq (files : FileSystem) (path text : String) :
    files.write path text =
      (files.openForWriting path).map fun place => files.put place (.file text.toUTF8) := by
  unfold write openForWriting
  cases files.target path with
  | error fault => rfl
  | ok place =>
      simp only [bind, Except.bind]
      cases files.entry? place with
      | none => rfl
      | some entry =>
          cases entry with
          | directory => rfl
          | file content => rfl

/-- A file is opened where its path leads to, unless a directory is there. -/
theorem openForWriting_eq_ok_iff {files : FileSystem} {path : String} {place : Location} :
    files.openForWriting path = .ok place ↔
      files.locate path = .ok place ∧ files.entry? place ≠ some .directory := by
  simp only [openForWriting, bind_eq_ok_iff, target_eq_ok_iff]
  constructor
  · rintro ⟨_, located, ended⟩
    split at ended
    · cases ended
    · rename_i noDirectory
      cases ended
      exact ⟨located, noDirectory⟩
  · rintro ⟨located, noDirectory⟩
    exact ⟨place, located, if_neg noDirectory⟩

/-! ### Reading after a write -/

section Directories

variable {before after : FileSystem}
  (kept : ∀ place, before.entry? place = some .directory → after.entry? place = some .directory)
include kept

/-- A path is led on by directories alone, so it leads on as before where they are still there. -/
theorem descend_of_directories {components : List (List Char)} {start folder : Location}
    (reaches : before.descend start components = .ok folder) :
    after.descend start components = .ok folder := by
  induction components generalizing start with
  | nil => exact reaches
  | cons component rest inductionHypothesis =>
      unfold descend at reaches ⊢
      split at reaches
      · rename_i blank
        rw [if_pos blank]
        exact inductionHypothesis reaches
      · rename_i notBlank
        rw [if_neg notBlank]
        split at reaches
        · rename_i up
          rw [if_pos up]
          exact inductionHypothesis reaches
        · rename_i notUp
          rw [if_neg notUp]
          split at reaches
          · cases reaches
          · cases reaches
          · rename_i through
            rw [kept _ through]
            exact inductionHypothesis reaches

theorem locate_of_directories {path : String} {place : Location}
    (located : before.locate path = .ok place) : after.locate path = .ok place := by
  obtain ⟨folder, name, ⟨⟨start, starts, reaches⟩, last, named⟩, rfl⟩ := locate_eq_ok_iff.mp located
  exact locate_eq_ok_iff.mpr
    ⟨folder, name, ⟨⟨start, starts, descend_of_directories kept reaches⟩, last, named⟩, rfl⟩

end Directories

section Put

variable {files : FileSystem} {place : Location} {content : ByteArray}
  (noDirectory : files.entry? place ≠ some .directory)
include noDirectory

theorem names_ne_nil_of_noDirectory : place.names ≠ [] := by
  intro base
  exact noDirectory (if_pos base)

/-- A file that is put where no directory is leaves all directories there, and makes none. -/
theorem directory_put_iff (other : Location) :
    entry? (files.put place (.file content)) other = some .directory ↔
      files.entry? other = some .directory := by
  by_cases same : other = place
  · rw [same, entry?_put_self (names_ne_nil_of_noDirectory noDirectory)]
    constructor
    · intro isDirectory
      cases isDirectory
    · intro isDirectory
      exact absurd isDirectory noDirectory
  · rw [entry?_put_of_ne same]

/-- So every path leads where it led before. -/
theorem locate_put {path : String} {other : Location} :
    (files.put place (.file content)).locate path = .ok other ↔ files.locate path = .ok other :=
  ⟨locate_of_directories fun other => (directory_put_iff noDirectory other).mp,
    locate_of_directories fun other => (directory_put_iff noDirectory other).mpr⟩

/-- Every other file keeps its bytes, and there is no other new file. -/
theorem readBytes_put_of_ne {path : String} {bytes : ByteArray}
    (different : files.locate path ≠ .ok place) :
    (files.put place (.file content)).readBytes path = .ok bytes ↔
      files.readBytes path = .ok bytes := by
  rw [readBytes_eq_ok_iff, readBytes_eq_ok_iff]
  refine exists_congr fun other => ?_
  rw [locate_put noDirectory]
  refine and_congr_right fun located => ?_
  have elsewhere : other ≠ place := by
    rintro rfl
    exact different located
  rw [entry?_put_of_ne elsewhere]

end Put

/-- What is written at a path is read there afterwards. -/
theorem readBytes_put_self {files : FileSystem} {path : String} {place : Location}
    {content : ByteArray} (opened : files.openForWriting path = .ok place) :
    (files.put place (.file content)).readBytes path = .ok content := by
  obtain ⟨located, noDirectory⟩ := openForWriting_eq_ok_iff.mp opened
  exact readBytes_eq_ok_iff.mpr ⟨place, (locate_put noDirectory).mpr located,
    entry?_put_self (names_ne_nil_of_noDirectory noDirectory)⟩

/-- A text can be read after a write where one could be read before, also where it was written. -/
theorem readable_put {files : FileSystem} {path input : String} {place : Location}
    {text source : String} (opened : files.openForWriting path = .ok place)
    (readable : files.read input = .ok source) :
    ∃ found, (files.put place (.file text.toUTF8)).read input = .ok found := by
  obtain ⟨_, noDirectory⟩ := openForWriting_eq_ok_iff.mp opened
  by_cases same : files.locate input = .ok place
  · have openedThere := openForWriting_eq_ok_iff.mpr ⟨same, noDirectory⟩
    exact ⟨text, read_eq_ok_iff.mpr (readBytes_put_self openedThere)⟩
  · have held := read_eq_ok_iff.mp readable
    exact ⟨source, read_eq_ok_iff.mpr ((readBytes_put_of_ne noDirectory same).mpr held)⟩

end RiscAssembler.Files.FileSystem
