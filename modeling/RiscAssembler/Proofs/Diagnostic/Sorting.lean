import RiscAssembler.Diagnostic.Basic

/-!
Contract: a sorted report is known from the entries of each line.

Owns:
- the entries of a line, in order;
- stability: sorting changes the entries of no line;
- the converse: a list in order of lines with the same entries of each line is the sorted one;
- a stable listing by lines, as a property that does not mention how it is made;
- the report of a list of entries inside that of a longer one;
- the report of two lists of entries whose lines do not overlap.

Main statements: `onLine_sorted`, `sorted_eq_of_onLine`, `sorted_sublist_sorted_append` and
`sorted_append`.
-/

namespace RiscAssembler.Diagnostics

/-- The entries of a line, in the order of raising. -/
def onLine (diagnostics : List Diagnostic) (line : Nat) : List Diagnostic :=
  diagnostics.filter (·.line = line)

/-- The entries that some line can be blamed for. -/
def located (diagnostics : List Diagnostic) : List Diagnostic :=
  diagnostics.filter (·.line ≠ 0)

section OnLine

variable (first second : List Diagnostic) (line : Nat)

theorem onLine_append : onLine (first ++ second) line = onLine first line ++ onLine second line :=
  List.filter_append ..

theorem mem_onLine {diagnostic : Diagnostic} {diagnostics : List Diagnostic} :
    diagnostic ∈ onLine diagnostics line ↔ diagnostic ∈ diagnostics ∧ diagnostic.line = line := by
  simp [onLine]

theorem onLine_eq_nil {diagnostics : List Diagnostic}
    (elsewhere : ∀ diagnostic ∈ diagnostics, diagnostic.line ≠ line) :
    onLine diagnostics line = [] := by
  simpa [onLine] using elsewhere

theorem onLine_append_comm
    (disjoint : ∀ left ∈ first, ∀ right ∈ second, left.line ≠ right.line) :
    onLine (first ++ second) line = onLine (second ++ first) line := by
  rw [onLine_append, onLine_append]
  match empty : onLine first line with
  | [] => simp
  | left :: rest =>
      have leftOn := (mem_onLine line).mp (empty ▸ List.mem_cons_self : left ∈ onLine first line)
      have nothing : onLine second line = [] :=
        onLine_eq_nil line fun right member same =>
          disjoint left leftOn.1 right member (leftOn.2.trans same.symm)
      simp [nothing]

theorem onLine_onLine (other : Nat) (diagnostics : List Diagnostic) :
    onLine (onLine diagnostics other) line =
      if line = other then onLine diagnostics line else [] := by
  split
  · rename_i same
    subst same
    simp [onLine]
  · rename_i different
    exact onLine_eq_nil line fun diagnostic member same =>
      different (same.symm.trans ((mem_onLine other).mp member).2)

theorem onLine_located (diagnostics : List Diagnostic) :
    onLine (located diagnostics) line = if line = 0 then [] else onLine diagnostics line := by
  unfold onLine located
  rw [List.filter_filter]
  split
  · rename_i zero
    subst zero
    simp
  · rename_i positive
    refine List.filter_congr fun diagnostic _ => ?_
    by_cases same : diagnostic.line = line
    · simp [same, positive]
    · simp [same]

end OnLine

/-! ### Stability -/

/-- Sorting changes the entries of no line, nor their order. -/
theorem onLine_sorted (diagnostics : List Diagnostic) (line : Nat) :
    onLine (sorted diagnostics) line = onLine diagnostics line := by
  have ordered : (onLine diagnostics line).Pairwise
      (fun first second => decide (first.line ≤ second.line)) := by
    refine List.pairwise_of_forall_mem_list fun first firstMember second secondMember => ?_
    have firstLine := ((mem_onLine line).mp firstMember).2
    have secondLine := ((mem_onLine line).mp secondMember).2
    simp [firstLine, secondLine]
  -- entries of one line are in order already, so a stable sort keeps them as a sublist
  have kept : (onLine diagnostics line).Sublist (sorted diagnostics) :=
    List.sublist_mergeSort (fun first second third => by simpa using Nat.le_trans)
      (fun first second => by simpa using Nat.le_total first.line second.line) ordered
      List.filter_sublist
  have selected : (onLine (onLine diagnostics line) line).Sublist
      (onLine (sorted diagnostics) line) := kept.filter _
  have counted : (onLine (sorted diagnostics) line).length = (onLine diagnostics line).length :=
    ((sorted_perm diagnostics).filter _).length_eq
  rw [onLine_onLine, if_pos rfl] at selected
  exact (selected.eq_of_length counted.symm).symm

/-- A report lists what was raised by lines: it has the same entries, in order of lines, and those
of each line in the order of raising. -/
structure ListsByLine (report raised : List Diagnostic) : Prop where
  perm : report.Perm raised
  ordered : report.Pairwise fun first second => first.line ≤ second.line
  stable : ∀ line, onLine report line = onLine raised line

theorem sorted_listsByLine (diagnostics : List Diagnostic) :
    ListsByLine (sorted diagnostics) diagnostics where
  perm := sorted_perm diagnostics
  ordered := sorted_pairwise diagnostics
  stable := onLine_sorted diagnostics

theorem head_line_le {head diagnostic : Diagnostic} {tail : List Diagnostic}
    (ordered : (head :: tail).Pairwise (fun first second => first.line ≤ second.line))
    (member : diagnostic ∈ head :: tail) : head.line ≤ diagnostic.line := by
  rcases List.mem_cons.mp member with rfl | later
  · exact Nat.le_refl _
  · exact List.rel_of_pairwise_cons ordered later

/-- Two lists in order of lines are equal if they have the same entries of each line. -/
theorem eq_of_onLine {left right : List Diagnostic}
    (leftOrdered : left.Pairwise (fun first second => first.line ≤ second.line))
    (rightOrdered : right.Pairwise (fun first second => first.line ≤ second.line))
    (same : ∀ line, onLine left line = onLine right line) : left = right := by
  induction left generalizing right with
  | nil =>
      cases right with
      | nil => rfl
      | cons head tail =>
          have none := same head.line
          simp [onLine] at none
  | cons head tail inductionHypothesis =>
      cases right with
      | nil =>
          have none := same head.line
          simp [onLine] at none
      | cons other rest =>
          -- each head occurs in the other list, so both heads are on the least line of all
          have headOn : head ∈ onLine (other :: rest) head.line := by
            rw [← same head.line]
            simp [onLine]
          have otherOn : other ∈ onLine (head :: tail) other.line := by
            rw [same other.line]
            simp [onLine]
          have otherLe : other.line ≤ head.line :=
            head_line_le rightOrdered ((mem_onLine _).mp headOn).1
          have headLe : head.line ≤ other.line :=
            head_line_le leftOrdered ((mem_onLine _).mp otherOn).1
          have sameLine : other.line = head.line := Nat.le_antisymm otherLe headLe
          have first := same head.line
          simp only [onLine, List.filter_cons, sameLine, decide_true, if_true,
            List.cons.injEq] at first
          obtain ⟨rfl, _⟩ := first
          refine congrArg (head :: ·)
            (inductionHypothesis leftOrdered.of_cons rightOrdered.of_cons fun line => ?_)
          have both := same line
          simp only [onLine, List.filter_cons] at both
          split at both
          · exact (List.cons.inj both).2
          · exact both

/-- A list in order of lines is the sorted form of every list with the same entries of each
line. -/
theorem sorted_eq_of_onLine {diagnostics ordered : List Diagnostic}
    (inOrder : ordered.Pairwise (fun first second => first.line ≤ second.line))
    (same : ∀ line, onLine ordered line = onLine diagnostics line) :
    sorted diagnostics = ordered :=
  eq_of_onLine (sorted_pairwise diagnostics) inOrder fun line =>
    (onLine_sorted diagnostics line).trans (same line).symm

theorem sorted_congr {left right : List Diagnostic}
    (same : ∀ line, onLine left line = onLine right line) : sorted left = sorted right :=
  sorted_eq_of_onLine (sorted_pairwise right) fun line =>
    (onLine_sorted right line).trans (same line).symm

/-- Moving entries to other lines commutes with sorting if it keeps their order. -/
theorem sorted_map (move : Diagnostic → Diagnostic)
    (keepsOrder : ∀ first second : Diagnostic,
      first.line ≤ second.line ↔ (move first).line ≤ (move second).line)
    (diagnostics : List Diagnostic) :
    sorted (diagnostics.map move) = (sorted diagnostics).map move :=
  (List.map_mergeSort fun first _ second _ =>
    decide_eq_decide.mpr (keepsOrder first second)).symm

theorem sorted_sorted_append (first second : List Diagnostic) :
    sorted (sorted first ++ second) = sorted (first ++ second) :=
  sorted_congr fun line => by rw [onLine_append, onLine_append, onLine_sorted]

/-- Entries that are raised later do not disturb the report of those raised before. -/
theorem sorted_sublist_sorted_append (first second : List Diagnostic) :
    (sorted first).Sublist (sorted (first ++ second)) := by
  rw [← sorted_sorted_append]
  refine List.sublist_mergeSort (fun first second third => by simpa using Nat.le_trans)
    (fun first second => by simpa using Nat.le_total first.line second.line) ?_
    (List.sublist_append_left _ _)
  exact (sorted_pairwise first).imp fun before => by simpa using before

/-- The report of two lists of entries, where all that the second blames lies below all that the
first blames: first what no line can be blamed for, then the rest of one list, then the rest of
the other. -/
theorem sorted_append {first second : List Diagnostic}
    (below : ∀ left ∈ first, ∀ right ∈ second, right.line ≠ 0 → left.line < right.line) :
    sorted (first ++ second) =
      onLine (sorted first) 0 ++ onLine (sorted second) 0 ++ located (sorted first) ++
        located (sorted second) := by
  have unlocated : ∀ {diagnostics : List Diagnostic} {diagnostic : Diagnostic},
      diagnostic ∈ onLine diagnostics 0 → ∀ later : Diagnostic, diagnostic.line ≤ later.line := by
    intro diagnostics diagnostic member later
    rw [((mem_onLine 0).mp member).2]
    exact Nat.zero_le _
  have unlocatedOrdered : ∀ diagnostics : List Diagnostic,
      (onLine diagnostics 0).Pairwise (fun first second => first.line ≤ second.line) :=
    fun _ => List.pairwise_of_forall_mem_list fun _ member later _ => unlocated member later
  have locatedOrdered : ∀ diagnostics : List Diagnostic,
      (located (sorted diagnostics)).Pairwise (fun first second => first.line ≤ second.line) :=
    fun diagnostics => (sorted_pairwise diagnostics).sublist List.filter_sublist
  have ofLocated : ∀ {diagnostics : List Diagnostic} {diagnostic : Diagnostic},
      diagnostic ∈ located (sorted diagnostics) →
        diagnostic ∈ diagnostics ∧ diagnostic.line ≠ 0 := by
    intro diagnostics diagnostic member
    simpa [located, (sorted_perm diagnostics).mem_iff] using member
  refine sorted_eq_of_onLine ?inOrder fun line => ?sameLines
  case inOrder =>
    refine List.pairwise_append.mpr ⟨List.pairwise_append.mpr ⟨List.pairwise_append.mpr
      ⟨unlocatedOrdered _, unlocatedOrdered _, ?_⟩, locatedOrdered _, ?_⟩, locatedOrdered _, ?_⟩
    · exact fun left member right _ => unlocated member right
    · intro left member right _
      rcases List.mem_append.mp member with inFirst | inSecond
      · exact unlocated inFirst right
      · exact unlocated inSecond right
    · intro left member right rightMember
      have rightLine := ofLocated rightMember
      rcases List.mem_append.mp member with zero | inFirst
      · rcases List.mem_append.mp zero with inFirst | inSecond
        · exact unlocated inFirst right
        · exact unlocated inSecond right
      · exact Nat.le_of_lt (below left (ofLocated inFirst).1 right rightLine.1 rightLine.2)
  case sameLines =>
    simp only [onLine_append, onLine_onLine, onLine_located, onLine_sorted]
    by_cases zero : line = 0
    · simp [zero]
    · simp [zero]

end RiscAssembler.Diagnostics
