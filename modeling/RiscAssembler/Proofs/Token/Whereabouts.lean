import RiscAssembler.Proofs.Text.Lines
import RiscAssembler.Proofs.Token.Coverage
import RiscAssembler.Proofs.Token.Respelling

/-!
Contract: the line that a token or a lexical fault names is a line of the text, and shows it.

Owns:
- the text that a finding is about, which holds something and no blank;
- the line of a token and the line of a lexical fault.

A scan counts line feeds, whereas the lines of a text also lose the carriage return in front of each
line feed and what a final line feed would start. Neither takes anything from a finding, because a
finding holds no blank.

Main statements: `tokenize_shown` and `lexicalFaults_shown`.
-/

namespace RiscAssembler

/-! ### Findings hold no blank -/

/-- The text that a finding is about. -/
def ScanItem.piece : ScanItem → List Char
  | .token found => found.lexeme.toList
  | .fault found => found.cause.offending

/-- The text of a finding holds something, and no blank. -/
structure ScanItem.Visible (item : ScanItem) : Prop where
  nonempty : item.piece ≠ []
  noBlank : ∀ character ∈ item.piece, Cursor.isBlank character = false

theorem isSeparator_of_isBlank {character : Char} (blank : Cursor.isBlank character) :
    isSeparator character := by
  simp only [Cursor.isBlank, Bool.or_eq_true, decide_eq_true_eq] at blank
  obtain ((rfl | rfl) | rfl) | rfl := blank
  all_goals rfl

namespace Cursor

/-- A step leaves all that follows a separator, unless it starts there. -/
theorem length_le_after_tokenHere {after : List Char} (separated : Separated after)
    (character : Char) (rest : List Char) (line : Nat) :
    after.length ≤ (tokenHere (character :: rest ++ after) line).after.rest.length := by
  rw [tokenHere_append separated]
  cases tokenHere (character :: rest) line with
  | token | fault | finished => simp [Step.append, Step.after, append]

theorem isBlank_head_skipTrivia (cursor : Cursor) :
    ∀ character ∈ cursor.skipTrivia.rest.head?, isBlank character = false :=
  isBlank_head_skipFrom false cursor.rest cursor.line

/-- What a step takes off a text holds no blank. -/
theorem isBlank_of_taken (cursor : Cursor) {taken : List Char}
    (split : taken ++ cursor.next.after.rest = cursor.skipTrivia.rest) :
    ∀ character ∈ taken, isBlank character = false := by
  intro blank member
  rw [Bool.eq_false_iff]
  intro isBlank
  obtain ⟨front, back, rfl⟩ := List.append_of_mem member
  cases front with
  | nil =>
      have noBlank := cursor.isBlank_head_skipTrivia blank (by rw [← split]; rfl)
      rw [isBlank] at noBlank
      cases noBlank
  | cons character front =>
      have separated : Separated (blank :: back ++ cursor.next.after.rest) :=
        separated_cons (isSeparator_of_isBlank isBlank)
      have bound := length_le_after_tokenHere separated character front cursor.skipTrivia.line
      rw [← List.append_assoc, split, ← next, List.length_append, List.length_cons] at bound
      omega

/-- Whatever a step finds is visible. -/
theorem visible_of_next_eq_token {cursor after : Cursor} {token : Token}
    (step : cursor.next = .token token after) : (ScanItem.token token).Visible := by
  have reads := cursor.next_reads
  have starts := cursor.next_starts
  rw [step] at reads starts
  refine ⟨starts, cursor.isBlank_of_taken ?_⟩
  rw [step]
  exact reads.2.2.1

theorem visible_of_next_eq_fault {cursor after : Cursor} {fault : LexicalFault}
    (step : cursor.next = .fault fault after) : (ScanItem.fault fault).Visible := by
  have reads := cursor.next_reads
  have starts := cursor.next_starts
  rw [step] at reads starts
  obtain ⟨nonempty, front⟩ := starts
  obtain ⟨cause, line⟩ := fault
  have taken : ∀ character ∈ cause.consumed, isBlank character = false := by
    apply cursor.isBlank_of_taken
    rw [step]
    exact reads.2.2.1
  refine ⟨nonempty, ?_⟩
  cases cause with
  | invalidNumber spelling => exact taken
  | unrecognizedWord spelling => exact taken
  | unexpectedCharacter character =>
      -- the character is not taken off, but the step stops at it
      obtain ⟨rest, whole⟩ := front
      have noBlank := cursor.isBlank_head_skipTrivia character (by rw [← whole]; rfl)
      simpa [ScanItem.piece, LexicalFault.Cause.offending] using noBlank

theorem visible_of_mem_scan {cursor : Cursor} {item : ScanItem} (member : item ∈ cursor.scan) :
    item.Visible :=
  forall_mem_scan visible_of_next_eq_token visible_of_next_eq_fault cursor item member

end Cursor

/-! ### Lines -/

/-- A line of a text has this number and shows this piece. -/
def ShowsOn (source : String) (number : Nat) (piece : List Char) : Prop :=
  ∃ line, Text.line? source.toList number = some line ∧ piece <:+: line

theorem exists_span_of_mem {Finding : Type} {TakesUp : Finding → Span → Prop}
    {findings : List Finding} {spans : List Span} (stand : List.Forall₂ TakesUp findings spans)
    {finding : Finding} (member : finding ∈ findings) : ∃ span, TakesUp finding span := by
  induction stand with
  | nil => cases member
  | cons here _ inductionHypothesis =>
      rcases List.mem_cons.mp member with rfl | later
      · exact ⟨_, here⟩
      · exact inductionHypothesis later

theorem take_append_extract (text : List Char) {start stop : Nat} (le : start ≤ stop) :
    text.take start ++ (text.extract start stop ++ text.drop stop) = text := by
  have rest : text.extract start stop ++ text.drop stop = text.drop start := by
    have split := List.take_append_drop (stop - start) (text.drop start)
    rw [List.drop_drop, Nat.add_sub_cancel' le] at split
    exact split
  rw [rest, List.take_append_drop]

/-- A visible piece at the start of a stretch is shown by the line of the stretch. -/
theorem showsOn_of_prefix {source : String} {span : Span} {item : ScanItem}
    (visible : item.Visible) (ordered : span.start ≤ span.stop)
    (starts : item.piece <+: source.toList.extract span.start span.stop) :
    ShowsOn source (lineOfPlace source.toList span.start) item.piece := by
  obtain ⟨rest, whole⟩ := starts
  have split := take_append_extract source.toList ordered
  have unbroken : '\n' ∉ item.piece ∧ '\r' ∉ item.piece := by
    constructor
    · intro member
      cases visible.noBlank '\n' member
    · intro member
      cases visible.noBlank '\r' member
  rw [← whole, List.append_assoc] at split
  have shown := Text.exists_line?_of_piece (source.toList.take span.start) visible.nonempty unbroken
    (rest ++ source.toList.drop span.stop)
  rw [split] at shown
  exact shown

theorem visible_of_mem_tokenize {source : String} {token : Token}
    (member : token ∈ (tokenize source).value) : (ScanItem.token token).Visible := by
  obtain ⟨item, found, isToken⟩ := List.mem_filterMap.mp member
  cases item with
  | fault other => cases isToken
  | token other =>
      cases isToken
      exact Cursor.visible_of_mem_scan found

theorem visible_of_mem_lexicalFaults {source : String} {fault : LexicalFault}
    (member : fault ∈ lexicalFaults source) : (ScanItem.fault fault).Visible := by
  obtain ⟨item, found, isFault⟩ := List.mem_filterMap.mp member
  cases item with
  | token other => cases isFault
  | fault other =>
      cases isFault
      exact Cursor.visible_of_mem_scan found

/-- The line of a token shows its spelling. -/
theorem tokenize_shown {source : String} {token : Token}
    (member : token ∈ (tokenize source).value) :
    ShowsOn source token.line token.lexeme.toList := by
  have start : (Cursor.start source).Follows source.toList [] := ⟨rfl, rfl⟩
  obtain ⟨tokenSpans, _, covering⟩ := Cursor.exists_covering start
  obtain ⟨span, takesUp⟩ := exists_span_of_mem covering.tokens_stand member
  rw [takesUp.line_eq]
  apply showsOn_of_prefix (visible_of_mem_tokenize member) (Nat.le_of_lt takesUp.nonempty)
  rw [takesUp.spelled]
  exact List.prefix_refl _

/-- The line of a lexical fault shows what is at fault. -/
theorem lexicalFaults_shown {source : String} {fault : LexicalFault}
    (member : fault ∈ lexicalFaults source) :
    ShowsOn source fault.line fault.cause.offending := by
  have start : (Cursor.start source).Follows source.toList [] := ⟨rfl, rfl⟩
  obtain ⟨_, faultSpans, covering⟩ := Cursor.exists_covering start
  obtain ⟨span, takesUp⟩ := exists_span_of_mem covering.faults_stand member
  rw [takesUp.line_eq]
  exact showsOn_of_prefix (visible_of_mem_lexicalFaults member) (Nat.le_of_lt takesUp.nonempty)
    takesUp.offends

end RiscAssembler
