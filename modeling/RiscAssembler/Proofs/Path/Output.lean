import RiscAssembler.Path

/-!
Contract: the default output of a path differs from the path in the last component alone.

Owns:
- a path as its last component and the text in front of it;
- the components of such a path;
- the name and the text around it where the last component names a file;
- the default output of such a path, and the paths that are their own default output.

Main statements: `endsIn_defaultOutput` and `defaultOutput_eq_self_iff`.
-/

namespace RiscAssembler.Path

/-! ### The last component -/

/-- A path is a text in front of its last component, and that. The text is empty or ends in a
slash. -/
structure EndsIn (path : String) (folder last : List Char) : Prop where
  text : path.toList = folder ++ last
  slash : folder = [] ∨ ∃ outer, folder = outer ++ ['/']
  noSlash : '/' ∉ last

theorem exists_endsIn (path : String) : ∃ folder last, EndsIn path folder last := by
  suffices parts : ∀ text : List Char, ∃ folder last, text = folder ++ last ∧
      (folder = [] ∨ ∃ outer, folder = outer ++ ['/']) ∧ '/' ∉ last by
    obtain ⟨folder, last, text, slash, noSlash⟩ := parts path.toList
    exact ⟨folder, last, text, slash, noSlash⟩
  intro text
  induction text with
  | nil => exact ⟨[], [], rfl, .inl rfl, List.not_mem_nil⟩
  | cons character rest inductionHypothesis =>
      obtain ⟨folder, last, rfl, rfl | ⟨outer, rfl⟩, noSlash⟩ := inductionHypothesis
      · by_cases slash : character = '/'
        · exact ⟨[character], last, rfl, .inr ⟨[], by rw [slash, List.nil_append]⟩, noSlash⟩
        · refine ⟨[], character :: last, rfl, .inl rfl, ?_⟩
          rintro (_ | ⟨_, slashInside⟩)
          · exact slash rfl
          · exact noSlash slashInside
      · exact ⟨character :: (outer ++ ['/']), last, rfl, .inr ⟨character :: outer, rfl⟩, noSlash⟩

section EndsIn

variable {path : String} {folder last : List Char} (ends : EndsIn path folder last)
include ends

theorem components_eq : components path = (folder.splitOn '/').dropLast ++ [last] := by
  rw [components, ends.text]
  rcases ends.slash with rfl | ⟨outer, rfl⟩
  · rw [List.nil_append, List.splitOn_eq_singleton ends.noSlash]
    rfl
  · rw [List.append_assoc, List.singleton_append, List.splitOn_append_cons_self,
      List.splitOn_append_cons_self, List.splitOn_nil, List.dropLast_concat,
      List.splitOn_eq_singleton ends.noSlash]

end EndsIn

/-! ### Stem and extension -/

section Stem

variable {name extension : List Char}

/-- A name with an extension is its stem, a dot and the extension. -/
theorem eq_stem_append (extended : extension? name = some extension) :
    name = stem name ++ '.' :: extension := by
  have parts := List.takeWhile_append_dropWhile (p := (· ≠ '.')) (l := name.reverse)
  have stops := List.head?_dropWhile_not (· ≠ '.') name.reverse
  have taken : stem name = name.take (name.length - extension.length - 1) := by
    rw [stem, extended]
  unfold extension? at extended
  cases behind : name.reverse.dropWhile (· ≠ '.') with
  | nil =>
      rw [behind] at extended
      cases extended
  | cons dot before =>
      rw [behind] at extended parts stops
      obtain rfl : dot = '.' := by simpa using stops
      have behindDot : (name.reverse.takeWhile (· ≠ '.')).reverse = extension := by
        split at extended
        · cases extended
        · cases extended
        · exact Option.some.inj extended
      have whole : name = before.reverse ++ '.' :: extension :=
        calc name = (name.reverse.takeWhile (· ≠ '.') ++ '.' :: before).reverse := by
              rw [parts, List.reverse_reverse]
          _ = before.reverse ++ '.' :: extension := by
              rw [List.reverse_append, List.reverse_cons, List.append_assoc, behindDot,
                List.singleton_append]
      have width : name.length - extension.length - 1 = before.reverse.length := by
        rw [whole, List.length_append, List.length_cons]
        omega
      have inFront : stem name = before.reverse := by
        rw [taken, width]
        conv => lhs; rw [whole]
        exact List.take_left
      rw [inFront]
      exact whole

theorem stem_eq_self (bare : extension? name = none) : stem name = name := by
  rw [stem, bare]

theorem isPrefix_stem (name : List Char) : stem name <+: name := by
  cases extended : extension? name with
  | none => exact ⟨[], by rw [List.append_nil, stem_eq_self extended]⟩
  | some extension => exact ⟨_, (eq_stem_append extended).symm⟩

end Stem

/-! ### Named files -/

/-- The last component of a path names a file. -/
structure Names (path : String) (folder name : List Char) : Prop
    extends EndsIn path folder name where
  nonempty : name ≠ []
  notHere : name ≠ ['.']
  notAbove : name ≠ ['.', '.']

/-- The name that the default output gives to a file. -/
def outputName (name : List Char) : List Char :=
  if stem name = ['.'] ∧ (extension? name).getD [] ≠ [] then ['.', '.']
  else stem name ++ outputSuffix

/-- Nothing is dropped behind a name. -/
theorem skipTrailing_append {name before : List Char} (nonempty : name ≠ [])
    (notHere : name ≠ ['.']) (noSlash : '/' ∉ name) :
    skipTrailing (name ++ before) = name ++ before := by
  obtain ⟨character, rest, rfl⟩ := List.exists_cons_of_ne_nil nonempty
  rw [List.cons_append]
  unfold skipTrailing
  split
  · rename_i starts
    cases starts
    exact absurd List.mem_cons_self noSlash
  · rename_i starts
    obtain ⟨rfl, next⟩ := List.cons.inj starts
    cases rest with
    | nil => exact absurd rfl notHere
    | cons second rest =>
        obtain ⟨rfl, _⟩ := List.cons.inj next
        exact absurd (List.mem_cons_of_mem _ List.mem_cons_self) noSlash
  · rfl

section Names

variable {path : String} {folder name : List Char} (names : Names path folder name)
include names

theorem reverse_eq : path.toList.reverse = name.reverse ++ folder.reverse := by
  rw [names.text, List.reverse_append]

theorem skipTrailing_reverse : skipTrailing path.toList.reverse = path.toList.reverse := by
  rw [reverse_eq names]
  refine skipTrailing_append ?_ ?_ ?_
  · exact mt List.reverse_eq_nil_iff.mp names.nonempty
  · intro here
    exact names.notHere (List.reverse_inj.mp here)
  · exact mt List.mem_reverse.mp names.noSlash

theorem not_slash_of_mem : ∀ character ∈ name.reverse, decide (character ≠ '/') = true := by
  intro character member
  rw [decide_eq_true_iff]
  rintro rfl
  exact names.noSlash (List.mem_reverse.mp member)

theorem takeWhile_reverse : path.toList.reverse.takeWhile (· ≠ '/') = name.reverse := by
  rw [reverse_eq names, List.takeWhile_append_of_pos (not_slash_of_mem names)]
  rcases names.slash with rfl | ⟨outer, rfl⟩
  · rw [List.reverse_nil, List.takeWhile_nil, List.append_nil]
  · rw [List.reverse_concat, List.takeWhile_cons_of_neg (by decide), List.append_nil]

theorem dropWhile_reverse : path.toList.reverse.dropWhile (· ≠ '/') = folder.reverse := by
  rw [reverse_eq names, List.dropWhile_append_of_pos (not_slash_of_mem names)]
  rcases names.slash with rfl | ⟨outer, rfl⟩
  · rfl
  · rw [List.reverse_concat, List.dropWhile_cons_of_neg (by decide)]

theorem named?_eq : named? path = some ⟨folder, name, []⟩ := by
  have nowhere : ¬(name = [] ∨ name = ['.'] ∨ name = ['.', '.']) := by
    rintro (nothing | here | above)
    · exact names.nonempty nothing
    · exact names.notHere here
    · exact names.notAbove above
  simp only [named?, skipTrailing_reverse names, takeWhile_reverse names, dropWhile_reverse names,
    List.reverse_reverse, if_neg nowhere, List.length_reverse, List.drop_length]

theorem toList_defaultOutput : (defaultOutput path).toList = folder ++ outputName name := by
  simp only [defaultOutput, named?_eq names, and_true, outputName]
  split
  · exact String.toList_ofList
  · rw [String.toList_ofList, List.append_assoc]

theorem endsIn_defaultOutput : EndsIn (defaultOutput path) folder (outputName name) := by
  refine ⟨toList_defaultOutput names, names.slash, ?_⟩
  unfold outputName
  split
  · decide
  · rw [List.mem_append]
    rintro (inStem | inSuffix)
    · exact names.noSlash ((isPrefix_stem name).subset inStem)
    · exact absurd inSuffix (by decide)

theorem outputName_eq_self_iff :
    outputName name = name ↔ extension? name = some ['b', 'i', 'n'] ∧ stem name ≠ ['.'] := by
  cases extended : extension? name with
  | none =>
      have longer : outputName name = name ++ outputSuffix := by
        rw [outputName, stem_eq_self extended, if_neg fun above => names.notHere above.1]
      constructor
      · intro same
        rw [longer, List.append_right_eq_self] at same
        cases same
      · rintro ⟨noExtension, _⟩
        cases noExtension
  | some extension =>
      have whole := eq_stem_append extended
      by_cases dot : stem name = ['.']
      · have someExtension : extension ≠ [] := by
          rintro rfl
          rw [dot] at whole
          exact names.notAbove whole
        rw [outputName, if_pos ⟨dot, by rwa [extended]⟩]
        constructor
        · intro above
          exact absurd above.symm names.notAbove
        · rintro ⟨_, noDot⟩
          exact absurd dot noDot
      · have renamed : outputName name = stem name ++ outputSuffix := by
          rw [outputName, if_neg fun above => dot above.1]
        have same : outputName name = name ↔ outputSuffix = '.' :: extension := by
          rw [renamed]
          conv => lhs; rhs; rw [whole]
          rw [List.append_cancel_left_eq]
        rw [same]
        constructor
        · intro suffix
          exact ⟨congrArg some (List.cons.inj suffix).2.symm, dot⟩
        · rintro ⟨isSuffix, _⟩
          rw [Option.some.inj isSuffix]
          rfl

theorem defaultOutput_eq_self_iff :
    defaultOutput path = path ↔ extension? name = some ['b', 'i', 'n'] ∧ stem name ≠ ['.'] := by
  rw [← String.toList_inj, toList_defaultOutput names, names.text, List.append_cancel_left_eq,
    outputName_eq_self_iff names]

end Names

end RiscAssembler.Path
