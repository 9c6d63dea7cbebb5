import RiscAssembler.Proofs.Token.Replacing
import RiscAssembler.Proofs.Token.Stepping

/-!
Contract: a scan gets on with every step and ends where its text ends.

Owns:
- the place from which a scan goes on behind a step;
- the places that a scan visits, one for each token, one for each fault and one for the end;
- the order of these places, and the number of them.

An unexpected character stays unread when it is reported, and at the end of a text the recovery
drops nothing. The first step of a recovery always finds a character to drop in the first case, and
in the second case the fault has read its text.

Main statements: `Cursor.resume?_cases` for one step, `Cursor.visits_pairwise` for a whole scan, and
`scan_progress`.
-/

namespace RiscAssembler

/-- The number of characters in front of a place of a text. -/
def Cursor.position (text : List Char) (cursor : Cursor) : Nat :=
  text.length - cursor.rest.length

/-- What a step finds. -/
def Step.item? : Step → Option ScanItem
  | token found _ => some (.token found)
  | fault found _ => some (.fault found)
  | finished _ => none

namespace Cursor

/-- The place from which a scan goes on, unless it is at its end. -/
def resume? (cursor : Cursor) : Option Cursor :=
  match cursor.next with
  | .token _ after => some after
  | .fault _ after => some after.nextLine
  | .finished _ => none

theorem resume?_of_token {cursor after : Cursor} {found : Token}
    (step : cursor.next = .token found after) : cursor.resume? = some after := by
  rw [resume?, step]

theorem resume?_of_fault {cursor after : Cursor} {found : LexicalFault}
    (step : cursor.next = .fault found after) : cursor.resume? = some after.nextLine := by
  rw [resume?, step]

theorem resume?_of_finished {cursor after : Cursor} (step : cursor.next = .finished after) :
    cursor.resume? = none := by
  rw [resume?, step]

/-! ### One step -/

/-- A step ends the scan, and then the text has been read, or it leaves less of the text. -/
theorem resume?_cases (cursor : Cursor) :
    (∃ line, cursor.next = .finished ⟨[], line⟩ ∧ cursor.resume? = none) ∨
      ∃ later, cursor.resume? = some later ∧ later.rest <:+ cursor.rest ∧
        later.rest.length < cursor.rest.length := by
  unfold resume?
  match step : cursor.next with
  | .token found after =>
      have ahead := after_next_suffix cursor
      rw [step] at ahead
      exact .inr ⟨after, rfl, ahead, length_lt_of_next_eq_token step⟩
  | .fault found after =>
      have ahead := after_next_suffix cursor
      rw [step] at ahead
      exact .inr ⟨after.nextLine, rfl, after.nextLine_suffix.trans ahead,
        length_lt_of_next_eq_fault step⟩
  | .finished after =>
      have reads := next_reads cursor
      rw [step] at reads
      exact .inl ⟨cursor.skipTrivia.line, by rw [reads.1], rfl⟩

theorem length_lt_of_resume? {cursor later : Cursor} (resumed : cursor.resume? = some later) :
    later.rest.length < cursor.rest.length := by
  rcases resume?_cases cursor with ⟨_, _, none⟩ | ⟨other, some, _, shorter⟩
  · rw [none] at resumed
    cases resumed
  · rw [some] at resumed
    cases resumed
    exact shorter

theorem suffix_of_resume? {cursor later : Cursor} (resumed : cursor.resume? = some later) :
    later.rest <:+ cursor.rest := by
  rcases resume?_cases cursor with ⟨_, _, none⟩ | ⟨other, some, ahead, _⟩
  · rw [none] at resumed
    cases resumed
  · rw [some] at resumed
    cases resumed
    exact ahead

/-- A shorter rest of a text starts at a greater position. -/
theorem position_lt {text : List Char} {cursor later : Cursor} (inside : cursor.rest <:+ text)
    (shorter : later.rest.length < cursor.rest.length) :
    cursor.position text < later.position text := by
  have length := inside.length_le
  unfold position
  omega

/-! ### The places of a scan -/

/-- The places from which the steps of a scan are taken, up to the one at the end. -/
def visits (cursor : Cursor) : List Cursor :=
  match _resumed : cursor.resume? with
  | some later => cursor :: later.visits
  | none => [cursor]
termination_by cursor.rest.length
decreasing_by exact length_lt_of_resume? _resumed

theorem visits_of_resume? {cursor later : Cursor} (resumed : cursor.resume? = some later) :
    cursor.visits = cursor :: later.visits := by
  rw [visits]
  split
  · rename_i other again
    rw [resumed] at again
    rw [Option.some.inj again]
  · rename_i none
    rw [resumed] at none
    cases none

theorem visits_of_finished {cursor : Cursor} (finished : cursor.resume? = none) :
    cursor.visits = [cursor] := by
  rw [visits]
  split
  · rename_i other some
    rw [finished] at some
    cases some
  · rfl

/-- A scan finds what the steps from its places find. -/
theorem scan_eq_visits (cursor : Cursor) :
    cursor.scan = cursor.visits.filterMap (·.next.item?) := by
  induction cursor using scan_induction with
  | token cursor found after step inductionHypothesis =>
      have resumed := resume?_of_token step
      rw [scan_eq, visits_of_resume? resumed, List.filterMap_cons, step, ← inductionHypothesis]
      rfl
  | fault cursor found after step inductionHypothesis =>
      have resumed := resume?_of_fault step
      rw [scan_eq, visits_of_resume? resumed, List.filterMap_cons, step, ← inductionHypothesis]
      rfl
  | finished cursor after step =>
      have finished : cursor.resume? = none := by
        rw [resume?, step]
      rw [scan_eq, visits_of_finished finished, List.filterMap_cons, step]
      rfl

@[elab_as_elim]
theorem visits_induction {motive : Cursor → Prop}
    (resumed : ∀ cursor later, resume? cursor = some later → motive later → motive cursor)
    (finished : ∀ cursor, resume? cursor = none → motive cursor) (cursor : Cursor) :
    motive cursor := by
  match goesOn : cursor.resume? with
  | some later => exact resumed cursor later goesOn (visits_induction resumed finished later)
  | none => exact finished cursor goesOn
termination_by cursor.rest.length
decreasing_by exact length_lt_of_resume? goesOn

theorem suffix_of_mem_visits {cursor visit : Cursor} (member : visit ∈ cursor.visits) :
    visit.rest <:+ cursor.rest := by
  induction cursor using visits_induction with
  | resumed cursor later resumed inductionHypothesis =>
      rw [visits_of_resume? resumed, List.mem_cons] at member
      rcases member with rfl | isLater
      · exact List.suffix_refl _
      · exact (inductionHypothesis isLater).trans (suffix_of_resume? resumed)
  | finished cursor finished =>
      rw [visits_of_finished finished, List.mem_singleton] at member
      subst member
      exact List.suffix_refl _

/-- No more places are visited than there are characters, and the end. -/
theorem length_visits_le (cursor : Cursor) : cursor.visits.length ≤ cursor.rest.length + 1 := by
  induction cursor using visits_induction with
  | resumed cursor later resumed inductionHypothesis =>
      have shorter := length_lt_of_resume? resumed
      rw [visits_of_resume? resumed, List.length_cons]
      omega
  | finished cursor finished =>
      rw [visits_of_finished finished, List.length_singleton]
      omega

theorem length_visits (cursor : Cursor) : cursor.visits.length = cursor.scan.length + 1 := by
  induction cursor using scan_induction with
  | token cursor found after step inductionHypothesis =>
      have resumed := resume?_of_token step
      rw [visits_of_resume? resumed, scan_eq, step, List.length_cons, inductionHypothesis,
        List.length_cons]
  | fault cursor found after step inductionHypothesis =>
      have resumed := resume?_of_fault step
      rw [visits_of_resume? resumed, scan_eq, step, List.length_cons, inductionHypothesis,
        List.length_cons]
  | finished cursor after step =>
      rw [visits_of_finished (resume?_of_finished step), scan_eq, step]
      rfl

/-- A scan finds at most one thing for each character. -/
theorem length_scan_le (cursor : Cursor) : cursor.scan.length ≤ cursor.rest.length := by
  have places := length_visits_le cursor
  have found := length_visits cursor
  omega

theorem finish_eq (cursor : Cursor) :
    cursor.finish =
      match cursor.next with
      | .token _ after => after.finish
      | .fault _ after => after.nextLine.finish
      | .finished after => after := by
  rw [finish]
  split <;> simp_all

/-- A scan ends where its text ends. -/
theorem finish_rest (cursor : Cursor) : cursor.finish.rest = [] := by
  induction cursor using scan_induction with
  | token cursor found after step inductionHypothesis =>
      rw [finish_eq, step]
      exact inductionHypothesis
  | fault cursor found after step inductionHypothesis =>
      rw [finish_eq, step]
      exact inductionHypothesis
  | finished cursor after step =>
      have reads := next_reads cursor
      rw [step] at reads
      rw [finish_eq, step, reads.1]

/-! ### The order of the places -/

/-- What is found at a place stands in front of what is found at another place. After a fault, it
also stands on an earlier line. -/
structure Precedes (first second : Cursor) : Prop where
  shorter : second.skipTrivia.rest.length < first.skipTrivia.rest.length
  below : ∀ fault after item, first.next = .fault fault after → second.next.item? = some item →
    fault.line < item.line

theorem visits_pairwise (cursor : Cursor) : cursor.visits.Pairwise Precedes := by
  induction cursor using visits_induction with
  | resumed cursor later resumed inductionHypothesis =>
      rw [visits_of_resume? resumed]
      refine .cons ?_ inductionHypothesis
      intro visit member
      constructor
      · have skipped : cursor.skipTrivia.resume? = some later := by
          rw [← resumed, resume?, resume?, next_skipTrivia]
        have shorter := length_lt_of_resume? skipped
        have ahead := (suffix_of_mem_visits member).length_le
        have skips := visit.skipTrivia_suffix.length_le
        omega
      · intro fault after item step found
        have reads := next_reads cursor
        rw [step] at reads
        rw [resume?, step] at resumed
        obtain rfl : after.nextLine = later := Option.some.inj resumed
        have inScan : item ∈ after.nextLine.scan := by
          rw [scan_eq_visits]
          exact List.mem_filterMap.mpr ⟨visit, member, found⟩
        rw [reads.1, ← reads.2.1]
        exact line_lt_of_mem_scan_nextLine inScan
  | finished cursor finished =>
      rw [visits_of_finished finished]
      exact List.pairwise_singleton _ _

/-- A token on the line of a fault stands in front of the fault. -/
theorem token_precedes_fault {cursor faulted found : Cursor} (isFaulted : faulted ∈ cursor.visits)
    (isFound : found ∈ cursor.visits) {fault : LexicalFault} {token : Token}
    {after later : Cursor} (step : faulted.next = .fault fault after)
    (other : found.next = .token token later) (sameLine : token.line = fault.line) :
    faulted.skipTrivia.rest.length < found.skipTrivia.rest.length := by
  have different : faulted ≠ found := by
    intro same
    rw [same, other] at step
    cases step
  have ordered : cursor.visits.Pairwise fun first second =>
      Precedes first second ∨ Precedes second first :=
    cursor.visits_pairwise.imp .inl
  have symmetric : Std.Symm fun first second => Precedes first second ∨ Precedes second first :=
    ⟨fun _ _ => Or.symm⟩
  rcases ordered.forall isFaulted isFound different with before | behind
  · have below := before.below fault after (.token token) step (by rw [other]; rfl)
    rw [show (ScanItem.token token).line = token.line from rfl, sameLine] at below
    exact absurd below (Nat.lt_irrefl _)
  · exact behind.shorter

end Cursor

/-! ### Whole texts -/

theorem length_tokens_add_faults (items : List ScanItem) :
    (Scan.tokens items).length + (Scan.faults items).length = items.length := by
  induction items with
  | nil => rfl
  | cons item items inductionHypothesis =>
      have tail : (items.filterMap ScanItem.token?).length +
          (items.filterMap ScanItem.fault?).length = items.length := inductionHypothesis
      cases item with
      | token found =>
          simp only [Scan.tokens, Scan.faults, List.filterMap_cons, ScanItem.token?,
            ScanItem.fault?, List.length_cons]
          omega
      | fault found =>
          simp only [Scan.tokens, Scan.faults, List.filterMap_cons, ScanItem.token?,
            ScanItem.fault?, List.length_cons]
          omega

/-- From every place, a step ends the scan at the end of the text or moves on in the text, also if
the step itself reads nothing, as at an unexpected character. So a scan ends at the end of its text.
It finds at most one thing for each character and at most one fault on each line, the lines of what
it finds never go back, and behind a fault there is no token on the line. -/
theorem scan_progress :
    (∀ (text : List Char) (cursor : Cursor), cursor.rest <:+ text →
      (∃ line, cursor.next = .finished ⟨[], line⟩ ∧ cursor.resume? = none) ∨
        ∃ later, cursor.resume? = some later ∧ later.rest <:+ text ∧
          cursor.position text < later.position text) ∧
      (∀ (cursor after : Cursor) (character : Char) (line : Nat),
        cursor.next = .fault ⟨.unexpectedCharacter character, line⟩ after →
          after = cursor.skipTrivia ∧ cursor.resume? = some after.nextLine) ∧
      ∀ source : String,
        (Cursor.start source).scan = (Cursor.start source).visits.filterMap (·.next.item?) ∧
          (Cursor.start source).finish.position source.toList = source.toList.length ∧
          (tokenize source).value.length + (lexicalFaults source).length ≤ source.toList.length ∧
          (lexicalFaults source).Pairwise (fun first second => first.line < second.line) ∧
          (tokenize source).value.Pairwise (fun first second => first.line ≤ second.line) ∧
          ∀ faulted ∈ (Cursor.start source).visits, ∀ found ∈ (Cursor.start source).visits,
            ∀ fault token after later, faulted.next = .fault fault after →
              found.next = .token token later → token.line = fault.line →
                found.skipTrivia.position source.toList <
                  faulted.skipTrivia.position source.toList := by
  refine ⟨?_, ?_, ?_⟩
  · intro text cursor inside
    rcases cursor.resume?_cases with ends | ⟨later, resumed, ahead, shorter⟩
    · exact .inl ends
    · exact .inr ⟨later, resumed, ahead.trans inside, Cursor.position_lt inside shorter⟩
  · intro cursor after character line step
    exact ⟨(Cursor.after_unexpectedCharacter step).1, Cursor.resume?_of_fault step⟩
  · intro source
    have bound : (tokenize source).value.length + (lexicalFaults source).length =
        (Cursor.start source).scan.length :=
      length_tokens_add_faults _
    refine ⟨Cursor.scan_eq_visits _, ?_, ?_, (Cursor.start source).faults_pairwise_line_lt,
      tokenize_pairwise_line_le source, ?_⟩
    · rw [Cursor.position, Cursor.finish_rest]
      rfl
    · rw [bound]
      exact Cursor.length_scan_le (Cursor.start source)
    · intro faulted isFaulted found isFound fault token after later step other sameLine
      have ahead := Cursor.token_precedes_fault isFaulted isFound step other sameLine
      apply Cursor.position_lt _ ahead
      exact (Cursor.skipTrivia_suffix found).trans (Cursor.suffix_of_mem_visits isFound)

/-- An unexpected character behind a token. -/
theorem scan_progress_unexpected :
    (∃ later, (Cursor.mk " @ X1".toList 1).resume? = some later ∧
      later.rest <:+ "ADD @ X1".toList ∧
        (Cursor.mk " @ X1".toList 1).position "ADD @ X1".toList <
          later.position "ADD @ X1".toList) ∧
      Cursor.mk "@ X1".toList 1 = (Cursor.mk " @ X1".toList 1).skipTrivia ∧
      (Cursor.start "ADD @ X1").skipTrivia.position "ADD @ X1".toList <
        (Cursor.mk " @ X1".toList 1).skipTrivia.position "ADD @ X1".toList := by
  have first : (Cursor.start "ADD @ X1").next =
      .token ⟨.opcode .add, "ADD", 1⟩ ⟨" @ X1".toList, 1⟩ := by
    decide +kernel
  have second : (Cursor.mk " @ X1".toList 1).next =
      .fault ⟨.unexpectedCharacter '@', 1⟩ ⟨"@ X1".toList, 1⟩ := by
    decide +kernel
  have visits : (Cursor.start "ADD @ X1").visits =
      Cursor.start "ADD @ X1" :: (Cursor.mk " @ X1".toList 1) ::
        (Cursor.mk "@ X1".toList 1).nextLine.visits := by
    rw [Cursor.visits_of_resume? (Cursor.resume?_of_token first),
      Cursor.visits_of_resume? (Cursor.resume?_of_fault second)]
  refine ⟨?_, (scan_progress.2.1 _ _ _ _ second).1, ?_⟩
  · apply (scan_progress.1 "ADD @ X1".toList ⟨" @ X1".toList, 1⟩ ⟨"ADD".toList, rfl⟩).resolve_left
    intro ⟨_, _, ended⟩
    rw [Cursor.resume?_of_fault second] at ended
    cases ended
  · apply (scan_progress.2.2 "ADD @ X1").2.2.2.2.2 _ _ _ _ _ _ _ _ second first rfl
    · rw [visits]
      simp
    · rw [visits]
      simp

end RiscAssembler
