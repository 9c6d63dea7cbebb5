import Mathlib.Tactic.SplitIfs
import RiscAssembler.Proofs.Assembly.Stages

/-!
Contract: two program texts assembled apart, and assembled as one.

Owns:
- diagnostics that are moved further down, and how they are sorted;
- the parts of the assembly of two texts with a line break between them.

The second text has to start with an instruction, or its first tokens would be operands of the last
instruction of the first text. The first has to hold a token or a fault, or it would be reported as
empty by itself alone.

Main statement: `assemble_append_newline`.
-/

namespace RiscAssembler

/-! ### Diagnostics further down -/

namespace Diagnostics

theorem shifted_line_le_iff (count : Nat) (first second : Diagnostic) :
    first.line ≤ second.line ↔ (first.shifted count).line ≤ (second.shifted count).line := by
  unfold Diagnostic.shifted
  split_ifs with firstZero secondZero secondZero
  · rfl
  · simp [firstZero]
  · simp only [secondZero]
    omega
  · simp

theorem sorted_shifted (diagnostics : List Diagnostic) (count : Nat) :
    sorted (diagnostics.map (·.shifted count)) = (sorted diagnostics).map (·.shifted count) :=
  sorted_map _ (shifted_line_le_iff count) diagnostics

theorem shifted_line_eq_zero_iff (diagnostic : Diagnostic) (count : Nat) :
    (diagnostic.shifted count).line = 0 ↔ diagnostic.line = 0 := by
  unfold Diagnostic.shifted
  split_ifs with zero
  · simp [zero]
  · simp [zero]

theorem onLine_zero_shifted (diagnostics : List Diagnostic) (count : Nat) :
    onLine (diagnostics.map (·.shifted count)) 0 = onLine diagnostics 0 := by
  simp only [onLine, List.filter_map, Function.comp_def, shifted_line_eq_zero_iff]
  refine (List.map_congr_left fun diagnostic member => ?_).trans (List.map_id _)
  have zero : diagnostic.line = 0 := by simpa using (List.mem_filter.mp member).2
  simp [Diagnostic.shifted, zero]

theorem located_shifted (diagnostics : List Diagnostic) (count : Nat) :
    located (diagnostics.map (·.shifted count)) =
      (located diagnostics).map (·.shifted count) := by
  simp only [located, List.filter_map, Function.comp_def, ne_eq, shifted_line_eq_zero_iff]

end Diagnostics

theorem Diagnostics.map_shifted_located (diagnostics : List Diagnostic) (count : Nat) :
    (located diagnostics).map (·.shifted count) =
      (located diagnostics).map fun diagnostic =>
        ⟨diagnostic.line + count, diagnostic.message⟩ := by
  refine List.map_congr_left fun diagnostic member => ?_
  have positive : diagnostic.line ≠ 0 := by simpa using (List.mem_filter.mp member).2
  simp [Diagnostic.shifted, positive]

theorem LexicalFault.diagnostic_shifted {fault : LexicalFault} (placed : fault.line ≠ 0)
    (count : Nat) : (fault.shifted count).diagnostic = fault.diagnostic.shifted count := by
  simp [LexicalFault.shifted, LexicalFault.diagnostic, Diagnostic.shifted, placed]

/-! ### Two texts -/

theorem isEmpty_append_newline (first second : String) :
    (first ++ "\n" ++ second).isEmpty = false := by
  rw [Bool.eq_false_iff]
  intro empty
  have characters := congrArg String.toList (String.isEmpty_iff.mp empty)
  simp at characters

section Joined

variable {first second : String} (opens : (tokenize second).value.head?.any Token.isOpcode)
  (found : (tokenize first).value ≠ [] ∨ lexicalFaults first ≠ [])

include opens in
theorem opens_shifted (count : Nat) :
    ((tokenize second).value.map (·.shifted count)).head?.any Token.isOpcode := by
  cases tokens : (tokenize second).value with
  | nil => simp [tokens] at opens
  | cons token rest =>
      simpa [tokens, Token.isOpcode, Token.shifted] using opens

include opens in
theorem parse_append_newline :
    (parse (first ++ "\n" ++ second)).value =
      (parse first).value ++
        (parse second).value.map (·.shifted (1 + first.toList.count '\n')) := by
  change (segments (tokenize (first ++ "\n" ++ second)).value).2 =
    (segments (tokenize first).value).2 ++
      (segments (tokenize second).value).2.map (·.shifted (1 + first.toList.count '\n'))
  rw [tokenize_value_append_newline, segments_append (opens_shifted opens _), segments_shifted]

include opens found in
theorem tokenize_diagnostics_append_newline :
    (tokenize (first ++ "\n" ++ second)).diagnostics =
      (tokenize first).diagnostics ++
        (tokenize second).diagnostics.map (·.shifted (1 + first.toList.count '\n')) := by
  have secondFound := tokenize_ne_nil_of_opens opens
  have wholeFound : (tokenize (first ++ "\n" ++ second)).value ≠ [] := by
    simp [tokenize_value_append_newline, secondFound]
  rw [tokenize_diagnostics_of_found (.inl wholeFound), tokenize_diagnostics_of_found found,
    tokenize_diagnostics_of_found (.inl secondFound), lexicalFaults_append_newline,
    List.map_append, List.map_map, List.map_map]
  refine congrArg _ (List.map_congr_left fun fault member => ?_)
  have placed : fault.line ≠ 0 := Nat.ne_of_gt (line_of_mem_lexicalFaults member).1
  exact LexicalFault.diagnostic_shifted placed _

include opens in
theorem strayDiagnostics_append_newline :
    strayDiagnostics (first ++ "\n" ++ second) = strayDiagnostics first := by
  unfold strayDiagnostics
  rw [tokenize_value_append_newline, strayTokens_append (opens_shifted opens _)]

include opens in
theorem encodingDiagnostics_append_newline :
    encodingDiagnostics (first ++ "\n" ++ second) =
      encodingDiagnostics first ++
        (encodingDiagnostics second).map (·.shifted (1 + first.toList.count '\n')) := by
  unfold encodingDiagnostics
  rw [parse_append_newline opens, List.flatMap_append, List.flatMap_map, List.map_flatMap]
  refine congrArg _ (List.flatMap_congr fun instruction member => ?_)
  rw [Instruction.encodeLine_shifted (placed_of_mem_parse member)]

include opens in
theorem lines_append_newline :
    (parse (first ++ "\n" ++ second)).value.map (·.encodeLine.value) =
      (parse first).value.map (·.encodeLine.value) ++
        (parse second).value.map (·.encodeLine.value) := by
  rw [parse_append_newline opens, List.map_append, List.map_map]
  refine congrArg _ (List.map_congr_left fun instruction member => ?_)
  rw [Function.comp_apply, Instruction.encodeLine_shifted (placed_of_mem_parse member)]

/-- What is shifted by the lines of a text and blames a line at all blames one behind the text. -/
theorem lt_line_of_mem_shifted {diagnostics : List Diagnostic} {diagnostic : Diagnostic}
    {count : Nat} (member : diagnostic ∈ diagnostics.map (·.shifted count))
    (located : diagnostic.line ≠ 0) : count < diagnostic.line := by
  obtain ⟨origin, _, rfl⟩ := List.mem_map.mp member
  have positive : origin.line ≠ 0 := fun zero =>
    located ((Diagnostics.shifted_line_eq_zero_iff origin count).mpr zero)
  simp only [Diagnostic.shifted, positive, if_false]
  omega

include opens found in
/-- The stages of the joined text raise the diagnostics of both texts stage by stage, so those of
the second come between those of the first. No line of one is a line of the other, so sorting does
not tell the difference. -/
theorem sorted_raised_append_newline :
    Diagnostics.sorted (raisedDiagnostics (first ++ "\n" ++ second)) =
      Diagnostics.sorted (raisedDiagnostics first ++
        (raisedDiagnostics second).map (·.shifted (1 + first.toList.count '\n'))) := by
  refine Diagnostics.sorted_congr fun line => ?_
  have disjoint : ∀ left ∈ (tokenize second).diagnostics.map
        (·.shifted (1 + first.toList.count '\n')),
      ∀ right ∈ strayDiagnostics first ++ encodingDiagnostics first,
        left.line ≠ right.line := by
    intro left leftMember right rightMember same
    have rightLine : right.line ≤ 1 + first.toList.count '\n' :=
      line_of_mem_raised (by
        unfold raisedDiagnostics
        rw [List.append_assoc]
        exact List.mem_append_right _ rightMember)
    have leftLocated : left.line ≠ 0 := by
      obtain ⟨origin, isOrigin, rfl⟩ := List.mem_map.mp leftMember
      intro zero
      have originLine := (line_of_mem_tokenize_diagnostics isOrigin).1
      have originZero := (Diagnostics.shifted_line_eq_zero_iff origin _).mp zero
      omega
    have leftLine := lt_line_of_mem_shifted leftMember leftLocated
    omega
  have swapped := Diagnostics.onLine_append_comm _ _ line disjoint
  simp only [raisedDiagnostics, tokenize_diagnostics_append_newline opens found,
    strayDiagnostics_append_newline opens, encodingDiagnostics_append_newline opens,
    strayDiagnostics_of_opens opens, List.map_append, List.append_nil,
    Diagnostics.onLine_append] at swapped ⊢
  have moved := congrArg (fun middle => Diagnostics.onLine (tokenize first).diagnostics line ++
    (middle ++ Diagnostics.onLine ((encodingDiagnostics second).map
      (·.shifted (1 + first.toList.count '\n'))) line)) swapped
  simpa only [List.append_assoc] using moved

end Joined

/-- Two texts with a line break between them are assembled as if apart, if the second starts with
an instruction and the first holds a token or a fault: the output lines and the instructions of the
first, then those of the second further down. Of the report, what no line can be blamed for comes
first. -/
theorem assemble_append_newline (first second : String)
    (opens : (tokenize second).value.head?.any Token.isOpcode)
    (found : (tokenize first).value ≠ [] ∨ lexicalFaults first ≠ []) :
    (assemble (first ++ "\n" ++ second)).lines =
        (assemble first).lines ++ (assemble second).lines ∧
      (assemble (first ++ "\n" ++ second)).instructions =
        (assemble first).instructions ++
          (assemble second).instructions.map (·.shifted (1 + first.toList.count '\n')) ∧
      (assemble (first ++ "\n" ++ second)).diagnostics =
        (assemble first).diagnostics.filter (·.line = 0) ++
          (assemble second).diagnostics.filter (·.line = 0) ++
          (assemble first).diagnostics.filter (·.line ≠ 0) ++
          ((assemble second).diagnostics.filter (·.line ≠ 0)).map fun diagnostic =>
            ⟨diagnostic.line + (1 + first.toList.count '\n'), diagnostic.message⟩ := by
  rw [assemble_of_nonempty (isEmpty_append_newline first second),
    assemble_of_nonempty (isEmpty_of_found found),
    assemble_of_nonempty (isEmpty_of_found (.inl (tokenize_ne_nil_of_opens opens)))]
  refine ⟨lines_append_newline opens, parse_append_newline opens, ?_⟩
  -- whatever the moved diagnostics blame lies behind the first text, so the report splits in two
  have below : ∀ left ∈ raisedDiagnostics first,
      ∀ right ∈ (raisedDiagnostics second).map (·.shifted (1 + first.toList.count '\n')),
        right.line ≠ 0 → left.line < right.line := by
    intro left leftMember right rightMember located
    exact Nat.lt_of_le_of_lt (line_of_mem_raised leftMember)
      (lt_line_of_mem_shifted rightMember located)
  have report := sorted_raised_append_newline opens found
  rw [Diagnostics.sorted_append below, Diagnostics.sorted_shifted,
    Diagnostics.onLine_zero_shifted, Diagnostics.located_shifted,
    Diagnostics.map_shifted_located] at report
  exact report

/-- Two texts with faults of every stage. The first instruction of the second text has no operand to
be blamed on, so it comes before the faults of the first text. -/
theorem assemble_append_newline_faults :
    (tokenize "BEQ\n\nADD X2").value.head?.any Token.isOpcode = true ∧
      ((tokenize "X1 @\n").value ≠ [] ∨ lexicalFaults "X1 @\n" ≠ []) ∧
      (assemble ("X1 @\n" ++ "\n" ++ "BEQ\n\nADD X2")).lines = ["ERROR", "ERROR"] ∧
      (assemble ("X1 @\n" ++ "\n" ++ "BEQ\n\nADD X2")).diagnostics =
        [⟨0, "instruction BEQ expects 3 operands, but got 0"⟩,
          ⟨1, "unexpected character: '@'"⟩,
          ⟨1, "unexpected token: X1, expected an opcode"⟩,
          ⟨5, "instruction ADD expects 3 operands, but got 1"⟩] := by
  have opens : (tokenize "BEQ\n\nADD X2").value.head?.any Token.isOpcode = true := by
    decide +kernel
  have found : (tokenize "X1 @\n").value ≠ [] ∨ lexicalFaults "X1 @\n" ≠ [] := by
    decide +kernel
  have firstReport := assemble_diagnostics_of_ordered (isEmpty_of_found found) (by decide +kernel)
  have secondReport : (assemble "BEQ\n\nADD X2").diagnostics = _ :=
    assemble_diagnostics_of_ordered (by decide) (by decide +kernel)
  obtain ⟨lines, _, diagnostics⟩ := assemble_append_newline _ _ opens found
  rw [firstReport, secondReport] at diagnostics
  refine ⟨opens, found, lines.trans ?_, diagnostics.trans ?_⟩
  · decide +kernel
  · decide +kernel

end RiscAssembler
