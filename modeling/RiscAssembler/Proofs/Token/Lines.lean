import Mathlib.Data.List.Basic
import Mathlib.Tactic.SplitIfs
import RiscAssembler.Proofs.Token.Separation

/-!
Contract: a scan takes a text line by line.

Owns:
- tokens, faults, places and steps a number of lines further down;
- the line on which the text ahead of a place ends, which no step changes;
- skipping, recovery and one step when more text follows;
- one step, the recovery from a fault, and a whole scan across a line break;
- the scan of a text as the scans of its lines.

Main statements: `Cursor.scan_append_newline`, by induction on the steps of the scan, and
`tokenize_append_newline`, the same for whole texts. A fault of any kind drops text up to a line
break and no further, which is why nothing of the other lines is lost or numbered otherwise.
-/

namespace RiscAssembler

/-! ### Further down -/

/-- The same token a number of lines further down. -/
def Token.shifted (token : Token) (count : Nat) : Token :=
  { token with line := token.line + count }

def LexicalFault.shifted (fault : LexicalFault) (count : Nat) : LexicalFault :=
  { fault with line := fault.line + count }

def ScanItem.shifted (item : ScanItem) (count : Nat) : ScanItem :=
  match item with
  | .token found => .token (found.shifted count)
  | .fault found => .fault (found.shifted count)

def Cursor.shifted (cursor : Cursor) (count : Nat) : Cursor :=
  ⟨cursor.rest, cursor.line + count⟩

def Step.shifted (step : Step) (count : Nat) : Step :=
  match step with
  | .token found after => .token (found.shifted count) (after.shifted count)
  | .fault found after => .fault (found.shifted count) (after.shifted count)
  | .finished after => .finished (after.shifted count)

/-- A step yields a token or a fault on this line and leaves this place. -/
def Step.Yields (line : Nat) (after : Cursor) : Step → Prop
  | .token found place => found.line = line ∧ place = after
  | .fault found place => found.line = line ∧ place = after
  | .finished _ => False

namespace Cursor

theorem skipFrom_shifted (inComment : Bool) (text : List Char) (line count : Nat) :
    skipFrom inComment text (line + count) = (skipFrom inComment text line).shifted count := by
  induction text generalizing inComment line with
  | nil => rfl
  | cons character rest inductionHypothesis =>
      simp only [skipFrom, Nat.add_right_comm line count 1, inductionHypothesis]
      split_ifs <;> rfl

theorem nextLineFrom_shifted (text : List Char) (line count : Nat) :
    nextLineFrom text (line + count) = (nextLineFrom text line).shifted count := by
  induction text generalizing line with
  | nil => rfl
  | cons character rest inductionHypothesis =>
      simp only [nextLineFrom, Nat.add_right_comm line count 1, inductionHypothesis]
      split_ifs <;> rfl

theorem nextLine_shifted (cursor : Cursor) (count : Nat) :
    (cursor.shifted count).nextLine = cursor.nextLine.shifted count :=
  nextLineFrom_shifted cursor.rest cursor.line count

theorem classify_shifted (kind : Option TokenKind) (lexeme : List Char)
    (cause : String → LexicalFault.Cause) (line : Nat) (after : List Char) (count : Nat) :
    classify kind lexeme cause (line + count) after =
      (classify kind lexeme cause line after).shifted count := by
  cases kind <;> rfl

theorem tokenHere_shifted (text : List Char) (line count : Nat) :
    tokenHere text (line + count) = (tokenHere text line).shifted count := by
  cases text with
  | nil => rfl
  | cons character rest =>
      simp only [tokenHere, classify_shifted]
      split
      · rfl
      · split_ifs <;> rfl

theorem next_shifted (cursor : Cursor) (count : Nat) :
    (cursor.shifted count).next = cursor.next.shifted count := by
  have skipped : (cursor.shifted count).skipTrivia = cursor.skipTrivia.shifted count :=
    skipFrom_shifted false cursor.rest cursor.line count
  unfold next
  rw [skipped]
  exact tokenHere_shifted cursor.skipTrivia.rest cursor.skipTrivia.line count

/-- Where a text starts decides the lines of what a scan finds in it, and nothing else. -/
theorem scan_shifted (cursor : Cursor) (count : Nat) :
    (cursor.shifted count).scan = cursor.scan.map (·.shifted count) := by
  have shiftedStep (cursor : Cursor) : (cursor.shifted count).next =
      cursor.next.map (·.shifted count) (·.shifted count) (·.shifted count) := by
    rw [next_shifted]
    cases cursor.next <;> rfl
  rw [scan_map shiftedStep fun cursor => nextLine_shifted cursor count]
  refine List.map_congr_left fun item _ => ?_
  cases item <;> rfl

/-! ### The line of the end -/

/-- The line on which the text ahead of a place ends. -/
def lastLine (cursor : Cursor) : Nat :=
  cursor.line + cursor.rest.count '\n'

theorem lastLine_mk (text : List Char) (line : Nat) :
    (Cursor.mk text line).lastLine = line + text.count '\n' := rfl

theorem lastLine_skipFrom (inComment : Bool) (text : List Char) (line : Nat) :
    (skipFrom inComment text line).lastLine = line + text.count '\n' := by
  induction text generalizing inComment line with
  | nil => rfl
  | cons character rest inductionHypothesis =>
      simp only [skipFrom]
      split_ifs with isBreak
      · subst isBreak
        rw [inductionHypothesis, List.count_cons_self]
        omega
      · rw [inductionHypothesis, List.count_cons_of_ne isBreak]
      · rw [inductionHypothesis, List.count_cons_of_ne isBreak]
      · rw [inductionHypothesis, List.count_cons_of_ne isBreak]
      · rfl

theorem lastLine_skipTrivia (cursor : Cursor) : cursor.skipTrivia.lastLine = cursor.lastLine :=
  lastLine_skipFrom false cursor.rest cursor.line

theorem lastLine_nextLineFrom (text : List Char) (line : Nat) :
    (nextLineFrom text line).lastLine = line + text.count '\n' := by
  induction text generalizing line with
  | nil => rfl
  | cons character rest inductionHypothesis =>
      simp only [nextLineFrom]
      split_ifs with isBreak
      · subst isBreak
        rw [lastLine_mk, List.count_cons_self]
        omega
      · rw [inductionHypothesis, List.count_cons_of_ne isBreak]

theorem lastLine_nextLine (cursor : Cursor) : cursor.nextLine.lastLine = cursor.lastLine :=
  lastLine_nextLineFrom cursor.rest cursor.line

/-- No step changes the line on which the text ends. -/
theorem lastLine_after_next (cursor : Cursor) : cursor.next.after.lastLine = cursor.lastLine := by
  have reads := next_reads cursor
  rw [← lastLine_skipTrivia cursor, lastLine, lastLine]
  match step : cursor.next with
  | .token found after =>
      rw [step] at reads
      obtain ⟨_, sameLine, whole, breaks⟩ := reads
      simp only [Step.after]
      rw [sameLine, ← whole, List.count_append, List.count_eq_zero.mpr breaks, Nat.zero_add]
  | .fault found after =>
      rw [step] at reads
      obtain ⟨_, sameLine, whole, breaks⟩ := reads
      simp only [Step.after]
      rw [sameLine, ← whole, List.count_append, List.count_eq_zero.mpr breaks, Nat.zero_add]
  | .finished after =>
      rw [step] at reads
      obtain ⟨rfl, whole⟩ := reads
      rw [whole]
      rfl

theorem le_line_skipFrom (inComment : Bool) (text : List Char) (line : Nat) :
    line ≤ (skipFrom inComment text line).line := by
  induction text generalizing inComment line with
  | nil => exact Nat.le_refl line
  | cons character rest inductionHypothesis =>
      simp only [skipFrom]
      split_ifs
      · exact Nat.le_trans (Nat.le_succ line) (inductionHypothesis false (line + 1))
      · exact inductionHypothesis true line
      · exact inductionHypothesis true line
      · exact inductionHypothesis false line
      · exact Nat.le_refl line

theorem le_line_nextLineFrom (text : List Char) (line : Nat) :
    line ≤ (nextLineFrom text line).line := by
  induction text generalizing line with
  | nil => exact Nat.le_refl line
  | cons character rest inductionHypothesis =>
      simp only [nextLineFrom]
      split_ifs
      · exact Nat.le_succ line
      · exact inductionHypothesis line

/-- A step that yields something starts it on a line of the text ahead and ends on the same
line. -/
theorem lines_of_next {cursor : Cursor} {line : Nat} {after : Cursor}
    (yields : cursor.next.Yields line after) :
    cursor.line ≤ line ∧ after.line = line ∧ after.lastLine = cursor.lastLine := by
  have reads := next_reads cursor
  have sameEnd := lastLine_after_next cursor
  have skipped := le_line_skipFrom false cursor.rest cursor.line
  match step : cursor.next with
  | .token found place | .fault found place =>
      rw [step] at reads sameEnd yields
      obtain ⟨rfl, rfl⟩ := yields
      exact ⟨reads.1 ▸ skipped, reads.2.1.trans reads.1.symm, sameEnd⟩
  | .finished place =>
      rw [step] at yields
      exact yields.elim

theorem line_le_lastLine (cursor : Cursor) : cursor.line ≤ cursor.lastLine :=
  Nat.le_add_right _ _

end Cursor

def ScanItem.line : ScanItem → Nat
  | .token found => found.line
  | .fault found => found.line

namespace Cursor

/-- Everything that a scan finds lies on the lines of the text. -/
theorem line_of_mem_scan {cursor : Cursor} {item : ScanItem} (member : item ∈ cursor.scan) :
    cursor.line ≤ item.line ∧ item.line ≤ cursor.lastLine := by
  induction cursor using Cursor.scan_induction with
  | token cursor token after step inductionHypothesis =>
      have yields : cursor.next.Yields token.line after := step ▸ ⟨rfl, rfl⟩
      obtain ⟨start, sameLine, sameEnd⟩ := lines_of_next yields
      have beforeEnd := after.line_le_lastLine
      rw [sameLine, sameEnd] at beforeEnd
      rw [scan_eq, step] at member
      rcases List.mem_cons.mp member with rfl | later
      · exact ⟨start, beforeEnd⟩
      · have bounds := inductionHypothesis later
        rw [sameLine, sameEnd] at bounds
        exact ⟨Nat.le_trans start bounds.1, bounds.2⟩
  | fault cursor fault after step inductionHypothesis =>
      have yields : cursor.next.Yields fault.line after := step ▸ ⟨rfl, rfl⟩
      obtain ⟨start, sameLine, sameEnd⟩ := lines_of_next yields
      have beforeEnd := after.line_le_lastLine
      rw [sameLine, sameEnd] at beforeEnd
      have resumed : after.line ≤ after.nextLine.line :=
        le_line_nextLineFrom after.rest after.line
      rw [scan_eq, step] at member
      rcases List.mem_cons.mp member with rfl | later
      · exact ⟨start, beforeEnd⟩
      · have bounds := inductionHypothesis later
        rw [lastLine_nextLine, sameEnd] at bounds
        rw [sameLine] at resumed
        exact ⟨Nat.le_trans start (Nat.le_trans resumed bounds.1), bounds.2⟩
  | finished cursor after step =>
      rw [scan_eq, step] at member
      cases member

/-- A scan finds everything in the order of lines. -/
theorem scan_pairwise_line_le (cursor : Cursor) :
    cursor.scan.Pairwise fun first second => first.line ≤ second.line := by
  induction cursor using Cursor.scan_induction with
  | token cursor token after step inductionHypothesis =>
      have yields : cursor.next.Yields token.line after := step ▸ ⟨rfl, rfl⟩
      obtain ⟨_, sameLine, _⟩ := lines_of_next yields
      rw [scan_eq, step]
      refine .cons (fun item member => ?_) inductionHypothesis
      have below := (line_of_mem_scan member).1
      rwa [sameLine] at below
  | fault cursor fault after step inductionHypothesis =>
      have yields : cursor.next.Yields fault.line after := step ▸ ⟨rfl, rfl⟩
      obtain ⟨_, sameLine, _⟩ := lines_of_next yields
      have resumed := le_line_nextLineFrom after.rest after.line
      rw [scan_eq, step]
      refine .cons (fun item member => ?_) inductionHypothesis
      have below := Nat.le_trans resumed (line_of_mem_scan member).1
      rwa [sameLine] at below
  | finished cursor after step =>
      rw [scan_eq, step]
      exact .nil

/-! ### More text behind -/

/-- Whether a comment is open at the end of a text. -/
def commentAfter (inComment : Bool) : List Char → Bool
  | [] => inComment
  | character :: rest =>
      if character = '\n' then commentAfter false rest
      else commentAfter (inComment || character = '#') rest

section Behind

variable (after : List Char)

/-- Where only blanks and comments are left of a text, the skipping goes on in what follows it. -/
theorem skipFrom_append (inComment : Bool) (text : List Char) (line : Nat) :
    skipFrom inComment (text ++ after) line =
      if (skipFrom inComment text line).rest = [] then
        skipFrom (commentAfter inComment text) after (line + text.count '\n')
      else (skipFrom inComment text line).append after := by
  induction text generalizing inComment line with
  | nil => simp [skipFrom, commentAfter]
  | cons character rest inductionHypothesis =>
      simp only [List.cons_append, skipFrom, commentAfter, inductionHypothesis]
      by_cases isBreak : character = '\n'
      · subst isBreak
        simp only [if_true, List.count_cons_self, Nat.add_right_comm line 1, ← Nat.add_assoc]
      · simp only [isBreak, if_false, List.count_cons_of_ne isBreak]
        split_ifs <;> simp_all [append]

theorem skipTrivia_append_of_nil {cursor : Cursor} (empty : cursor.skipTrivia.rest = []) :
    (cursor.append after).skipTrivia =
      skipFrom (commentAfter false cursor.rest) after cursor.lastLine :=
  (skipFrom_append after false cursor.rest cursor.line).trans (if_pos empty)

theorem skipTrivia_append_of_rest {cursor : Cursor} (more : cursor.skipTrivia.rest ≠ []) :
    (cursor.append after).skipTrivia = cursor.skipTrivia.append after :=
  (skipFrom_append after false cursor.rest cursor.line).trans (if_neg more)

theorem nextLineFrom_append_of_mem {text : List Char} (breaks : '\n' ∈ text) (line : Nat) :
    nextLineFrom (text ++ after) line = (nextLineFrom text line).append after := by
  induction text with
  | nil => cases breaks
  | cons character rest inductionHypothesis =>
      by_cases isBreak : character = '\n'
      · simp [nextLineFrom, isBreak, append]
      · have later : '\n' ∈ rest := by simpa [Ne.symm isBreak] using breaks
        simp [nextLineFrom, isBreak, inductionHypothesis later]

theorem nextLineFrom_append_of_unbroken {text : List Char} (breaks : '\n' ∉ text) (line : Nat) :
    nextLineFrom (text ++ after) line = nextLineFrom after line := by
  induction text with
  | nil => rfl
  | cons character rest inductionHypothesis =>
      rw [List.mem_cons, not_or] at breaks
      simp [nextLineFrom, Ne.symm breaks.1, inductionHypothesis breaks.2]

/-- While something is left of a text, a step does not see what follows a separator behind it. -/
theorem next_append_of_rest {cursor : Cursor} (separated : Separated after)
    (more : cursor.skipTrivia.rest ≠ []) :
    (cursor.append after).next = cursor.next.append after := by
  unfold next
  rw [skipTrivia_append_of_rest after more]
  match place : cursor.skipTrivia.rest with
  | [] => exact absurd place more
  | character :: rest =>
      simp only [append, place]
      exact tokenHere_append separated character rest cursor.skipTrivia.line

theorem skipTrivia_ne_nil_of_yields {cursor : Cursor} {line : Nat} {place : Cursor}
    (yields : cursor.next.Yields line place) : cursor.skipTrivia.rest ≠ [] := by
  intro empty
  rw [next, empty] at yields
  exact yields

end Behind

/-! ### Across a line break -/

section LineBreak

variable (second : List Char)

/-- A comment or a run of blanks that reaches a line break does not hide what follows it. -/
theorem skipFrom_append_newline (inComment : Bool) (text : List Char) (line : Nat) :
    skipFrom inComment (text ++ '\n' :: second) line =
      if (skipFrom inComment text line).rest = [] then
        skipFrom false second (line + text.count '\n' + 1)
      else (skipFrom inComment text line).append ('\n' :: second) := by
  rw [skipFrom_append, skipFrom, if_pos rfl]

theorem nextLineFrom_append_of_not_mem {text : List Char} (breaks : '\n' ∉ text) (line : Nat) :
    nextLineFrom (text ++ '\n' :: second) line = ⟨second, line + 1⟩ := by
  rw [nextLineFrom_append_of_unbroken _ breaks, nextLineFrom, if_pos rfl]

theorem nextLineFrom_of_not_mem {text : List Char} (breaks : '\n' ∉ text) (line : Nat) :
    nextLineFrom text line = ⟨[], line⟩ := by
  have alone := nextLineFrom_append_of_unbroken [] breaks line
  rwa [List.append_nil] at alone

theorem separated_newline : Separated ('\n' :: second) :=
  separated_cons (by decide)

/-- Once nothing is left on the lines of the first text, a step starts on the second. -/
theorem next_append_newline_of_nil {cursor : Cursor} (empty : cursor.skipTrivia.rest = []) :
    (cursor.append ('\n' :: second)).next = (Cursor.mk second (cursor.lastLine + 1)).next := by
  have skipped : (cursor.append ('\n' :: second)).skipTrivia =
      (Cursor.mk second (cursor.lastLine + 1)).skipTrivia :=
    (skipFrom_append_newline second false cursor.rest cursor.line).trans (if_pos empty)
  unfold next
  rw [skipped]

/-- Recovery from a fault goes no further than the line break. -/
theorem scan_nextLine_append_newline (cursor : Cursor)
    (later : (cursor.nextLine.append ('\n' :: second)).scan =
      cursor.nextLine.scan ++ (Cursor.mk second (cursor.nextLine.lastLine + 1)).scan) :
    (cursor.append ('\n' :: second)).nextLine.scan =
      cursor.nextLine.scan ++ (Cursor.mk second (cursor.lastLine + 1)).scan := by
  by_cases breaks : '\n' ∈ cursor.rest
  · have split : (cursor.append ('\n' :: second)).nextLine =
        cursor.nextLine.append ('\n' :: second) :=
      nextLineFrom_append_of_mem _ breaks cursor.line
    rw [split, later, lastLine_nextLine]
  · have split : (cursor.append ('\n' :: second)).nextLine = ⟨second, cursor.line + 1⟩ :=
      nextLineFrom_append_of_not_mem second breaks cursor.line
    have atEnd : cursor.nextLine = ⟨[], cursor.line⟩ :=
      nextLineFrom_of_not_mem breaks cursor.line
    have nothing : (Cursor.mk [] cursor.line).scan = [] := by
      rw [scan_eq]
      rfl
    rw [split, atEnd, nothing, lastLine, List.count_eq_zero.mpr breaks]
    rfl

/-- The scan of two texts with a line break between them is the scan of the first, followed by the
scan of the second from the line behind the first. -/
theorem scan_append_newline (cursor : Cursor) :
    (cursor.append ('\n' :: second)).scan =
      cursor.scan ++ (Cursor.mk second (cursor.lastLine + 1)).scan := by
  induction cursor using Cursor.scan_induction with
  | token cursor token after step inductionHypothesis =>
      have yields : cursor.next.Yields token.line after := step ▸ ⟨rfl, rfl⟩
      obtain ⟨_, _, sameEnd⟩ := lines_of_next yields
      rw [scan_eq, next_append_of_rest _ (separated_newline second)
          (skipTrivia_ne_nil_of_yields yields),
        scan_eq cursor, step]
      simp [Step.append, inductionHypothesis, sameEnd]
  | fault cursor fault after step inductionHypothesis =>
      have yields : cursor.next.Yields fault.line after := step ▸ ⟨rfl, rfl⟩
      obtain ⟨_, _, sameEnd⟩ := lines_of_next yields
      rw [scan_eq, next_append_of_rest _ (separated_newline second)
          (skipTrivia_ne_nil_of_yields yields),
        scan_eq cursor, step]
      -- the fault drops the rest of its line, and that line ends at the break at the latest
      have resumed := scan_nextLine_append_newline second after inductionHypothesis
      simp [Step.append, resumed, sameEnd]
  | finished cursor after step =>
      have empty : cursor.skipTrivia.rest = [] := by
        have reads := next_reads cursor
        rw [step] at reads
        exact reads.2
      rw [scan_eq, next_append_newline_of_nil second empty, ← scan_eq, scan_eq cursor, step]
      rfl

end LineBreak

end Cursor

/-! ### Whole texts -/

/-- The lexical faults of a program text, in the order in which they stand. -/
def lexicalFaults (source : String) : List LexicalFault :=
  Scan.faults (Cursor.start source).scan

namespace Scan

/-- A change of what a scan finds is a change of what it finds of one sort. -/
theorem filterMap_map_items {Found : Type} {view : ScanItem → Option Found}
    {change : ScanItem → ScanItem} {changeFound : Found → Found}
    (commutes : ∀ item, view (change item) = (view item).map changeFound)
    (items : List ScanItem) :
    (items.map change).filterMap view = (items.filterMap view).map changeFound := by
  simp [List.filterMap_map, List.map_filterMap, commutes]

theorem tokens_shifted (items : List ScanItem) (count : Nat) :
    tokens (items.map (·.shifted count)) = (tokens items).map (·.shifted count) :=
  filterMap_map_items (fun item => by cases item <;> rfl) items

theorem faults_shifted (items : List ScanItem) (count : Nat) :
    faults (items.map (·.shifted count)) = (faults items).map (·.shifted count) :=
  filterMap_map_items (fun item => by cases item <;> rfl) items

theorem isEmpty_iff (items : List ScanItem) :
    items.isEmpty ↔ tokens items = [] ∧ faults items = [] := by
  cases items with
  | nil => simp [tokens, faults]
  | cons item rest => cases item <;> simp [tokens, faults, ScanItem.token?, ScanItem.fault?]

/-- The report of a scan: its faults in order, or one entry if there is neither token nor fault. -/
theorem diagnostics_eq (items : List ScanItem) :
    diagnostics items =
      if tokens items = [] ∧ faults items = [] then [⟨1, "empty or invalid instruction"⟩]
      else (faults items).map LexicalFault.diagnostic := by
  simp only [diagnostics, nothingFound, isEmpty_iff]

end Scan

theorem line_of_mem_tokenize {source : String} {token : Token}
    (member : token ∈ (tokenize source).value) :
    1 ≤ token.line ∧ token.line ≤ 1 + source.toList.count '\n' := by
  obtain ⟨item, found, isToken⟩ := List.mem_filterMap.mp member
  have bounds := Cursor.line_of_mem_scan found
  cases item with
  | token other =>
      cases isToken
      exact bounds
  | fault other => cases isToken

theorem tokenize_pairwise_line_le (source : String) :
    (tokenize source).value.Pairwise fun first second => first.line ≤ second.line := by
  apply (Cursor.start source).scan_pairwise_line_le.filterMap
  intro left right ordered first isFirst second isSecond
  cases left with
  | fault other => cases isFirst
  | token other =>
      cases right with
      | fault other => cases isSecond
      | token another =>
          cases isFirst
          cases isSecond
          exact ordered

theorem line_of_mem_lexicalFaults {source : String} {fault : LexicalFault}
    (member : fault ∈ lexicalFaults source) :
    1 ≤ fault.line ∧ fault.line ≤ 1 + source.toList.count '\n' := by
  obtain ⟨item, found, isFault⟩ := List.mem_filterMap.mp member
  have bounds := Cursor.line_of_mem_scan found
  cases item with
  | token other => cases isFault
  | fault other =>
      cases isFault
      exact bounds

theorem scan_start_append_newline (first second : String) :
    (Cursor.start (first ++ "\n" ++ second)).scan =
      (Cursor.start first).scan ++
        (Cursor.start second).scan.map (·.shifted (1 + first.toList.count '\n')) := by
  have joined : Cursor.start (first ++ "\n" ++ second) =
      (Cursor.start first).append ('\n' :: second.toList) := by
    simp [Cursor.start, Cursor.append]
  have below : Cursor.mk second.toList ((Cursor.start first).lastLine + 1) =
      (Cursor.start second).shifted (1 + first.toList.count '\n') := by
    simp only [Cursor.start, Cursor.lastLine, Cursor.shifted, Cursor.mk.injEq, true_and]
    omega
  rw [joined, Cursor.scan_append_newline, below, Cursor.scan_shifted]

theorem tokenize_value_append_newline (first second : String) :
    (tokenize (first ++ "\n" ++ second)).value =
      (tokenize first).value ++
        (tokenize second).value.map (·.shifted (1 + first.toList.count '\n')) := by
  have tokens := congrArg Scan.tokens (scan_start_append_newline first second)
  refine tokens.trans (List.filterMap_append.trans (congrArg _ ?_))
  exact Scan.tokens_shifted _ _

theorem lexicalFaults_append_newline (first second : String) :
    lexicalFaults (first ++ "\n" ++ second) =
      lexicalFaults first ++
        (lexicalFaults second).map (·.shifted (1 + first.toList.count '\n')) := by
  have faults := congrArg Scan.faults (scan_start_append_newline first second)
  refine faults.trans (List.filterMap_append.trans (congrArg _ ?_))
  exact Scan.faults_shifted _ _

theorem tokenize_diagnostics (source : String) :
    (tokenize source).diagnostics =
      if (tokenize source).value = [] ∧ lexicalFaults source = [] then
        [⟨1, "empty or invalid instruction"⟩]
      else (lexicalFaults source).map LexicalFault.diagnostic :=
  Scan.diagnostics_eq (Cursor.start source).scan

/-- The findings of a scan are those of the lines of the text, each scanned by itself. -/
theorem scan_linewise (text : List Char) (line : Nat) :
    (Cursor.mk text line).scan =
      ((text.splitOn '\n').zipIdx line).flatMap fun piece => (Cursor.mk piece.1 piece.2).scan := by
  by_cases breaks : '\n' ∈ text
  · obtain ⟨first, second, rfl, noBreak⟩ := List.eq_append_cons_of_mem breaks
    have joined := Cursor.scan_append_newline second (Cursor.mk first line)
    rw [Cursor.append, Cursor.lastLine_mk, List.count_eq_zero.mpr noBreak, Nat.add_zero,
      scan_linewise second (line + 1)] at joined
    rw [joined, List.splitOn_append_cons_self, List.splitOn_eq_singleton noBreak]
    simp
  · rw [List.splitOn_eq_singleton breaks]
    simp
termination_by text.length

/-- The findings in a program text are those in its lines, each taken as a text of its own and moved
down to its place. -/
theorem scan_start_linewise (source : String) :
    (Cursor.start source).scan =
      (source.toList.splitOn '\n').zipIdx.flatMap fun piece =>
        (Cursor.start (String.ofList piece.1)).scan.map (·.shifted piece.2) := by
  have placed : ∀ piece : List Char × Nat,
      (Cursor.mk piece.1 (piece.2 + 1)).scan =
        (Cursor.start (String.ofList piece.1)).scan.map (·.shifted piece.2) := by
    intro piece
    rw [← Cursor.scan_shifted, Cursor.start, Cursor.shifted, String.toList_ofList, Nat.add_comm]
  rw [Cursor.start, scan_linewise, List.zipIdx_succ, List.flatMap_map]
  simp only [placed]

theorem tokenize_value_linewise (source : String) :
    (tokenize source).value =
      (source.toList.splitOn '\n').zipIdx.flatMap fun piece =>
        (tokenize (String.ofList piece.1)).value.map (·.shifted piece.2) := by
  have tokens := congrArg Scan.tokens (scan_start_linewise source)
  refine tokens.trans (List.filterMap_flatMap.trans (List.flatMap_congr fun piece _ => ?_))
  exact Scan.tokens_shifted _ piece.2

theorem lexicalFaults_linewise (source : String) :
    lexicalFaults source =
      (source.toList.splitOn '\n').zipIdx.flatMap fun piece =>
        (lexicalFaults (String.ofList piece.1)).map (·.shifted piece.2) := by
  have faults := congrArg Scan.faults (scan_start_linewise source)
  refine faults.trans (List.filterMap_flatMap.trans (List.flatMap_congr fun piece _ => ?_))
  exact Scan.faults_shifted _ piece.2

/-- Tokens and lexical faults do not cross a line break, whatever is wrong on either side of it:
those of two texts with a line break between them are those of the first, followed by those of the
second as many lines further down as the first has. Hence every line of a text has the tokens and
faults that it has as a text of its own. The faults are all that is reported, except for a text
with neither tokens nor faults. -/
theorem tokenize_append_newline (first second : String) :
    (tokenize (first ++ "\n" ++ second)).value =
        (tokenize first).value ++
          (tokenize second).value.map (·.shifted (1 + first.toList.count '\n')) ∧
      lexicalFaults (first ++ "\n" ++ second) =
        lexicalFaults first ++
          (lexicalFaults second).map (·.shifted (1 + first.toList.count '\n')) ∧
      ∀ source : String,
        (tokenize source).value =
            ((source.toList.splitOn '\n').zipIdx.flatMap fun piece =>
              (tokenize (String.ofList piece.1)).value.map (·.shifted piece.2)) ∧
          lexicalFaults source =
            ((source.toList.splitOn '\n').zipIdx.flatMap fun piece =>
              (lexicalFaults (String.ofList piece.1)).map (·.shifted piece.2)) ∧
          (tokenize source).diagnostics =
            if (tokenize source).value = [] ∧ lexicalFaults source = [] then
              [⟨1, "empty or invalid instruction"⟩]
            else (lexicalFaults source).map LexicalFault.diagnostic :=
  ⟨tokenize_value_append_newline first second, lexicalFaults_append_newline first second,
    fun source => ⟨tokenize_value_linewise source, lexicalFaults_linewise source,
      tokenize_diagnostics source⟩⟩

end RiscAssembler
