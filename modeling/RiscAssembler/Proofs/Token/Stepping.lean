import RiscAssembler.Proofs.Token.Coverage
import RiscAssembler.Proofs.Token.Layout
import RiscAssembler.Proofs.Token.Spelling
import RiscAssembler.Token.Scan

/-!
Contract: steps by themselves and the scan of a whole text.

Owns:
- steps that all yield tokens, and the scan from behind them;
- the steps that leave the place where it is: an unexpected character, and the end of the text;
- what a scan finds below the line of a place that steps lead to.

A place that steps lead to is in general none that the scan of the whole text comes to, because the
scan drops the rest of a faulted line and steps do not. The two meet again at the next line.

Main statements: `Cursor.scan_of_answers` and `Cursor.Follows.advanced`, by induction on the number
of steps, and `stepping_agrees`.
-/

namespace RiscAssembler

/-- What a scan finds of one sort below a line, told from all that it finds below the line. -/
theorem Scan.filterMap_filter_line {Found : Type} {view : ScanItem → Option Found}
    {lineOf : Found → Nat} (sameLine : ∀ item, ∀ found ∈ view item, lineOf found = item.line)
    (line : Nat) (items : List ScanItem) :
    (items.filter (line < ·.line)).filterMap view =
      (items.filterMap view).filter (line < lineOf ·) := by
  rw [List.filterMap_filter, List.filter_filterMap]
  refine List.filterMap_congr fun item _ => ?_
  cases viewed : view item with
  | none => simp
  | some found => simp [Option.filter, sameLine item found viewed]

namespace Cursor

/-! ### Steps that all yield tokens -/

theorem next_of_answer_eq_ok {cursor : Cursor} {token : Token}
    (answer : cursor.next.answer = .ok (some token)) :
    cursor.next = .token token cursor.next.after := by
  match step : cursor.next with
  | .token found after =>
      rw [step] at answer
      cases answer
      rfl
  | .fault found after =>
      rw [step] at answer
      cases answer
  | .finished after =>
      rw [step] at answer
      cases answer

/-- As long as steps yield tokens, they yield those of the scan, and leave the rest of the scan. -/
theorem scan_of_answers {count : Nat} {cursor : Cursor} {found : List Token}
    (answers : cursor.answers count = found.map fun token => .ok (some token)) :
    found.length = count ∧
      cursor.scan = found.map ScanItem.token ++ (cursor.advanced count).scan := by
  induction count generalizing cursor found with
  | zero =>
      obtain rfl := List.map_eq_nil_iff.mp answers.symm
      exact ⟨rfl, rfl⟩
  | succ count inductionHypothesis =>
      match found with
      | [] => cases answers
      | token :: found =>
          obtain ⟨answer, later⟩ := List.cons.inj answers
          obtain ⟨lengths, scanned⟩ := inductionHypothesis later
          refine ⟨congrArg (· + 1) lengths, ?_⟩
          rw [scan_eq, next_of_answer_eq_ok answer]
          exact congrArg (ScanItem.token token :: ·) scanned

theorem tokens_and_faults_of_answers {count : Nat} {cursor : Cursor} {found : List Token}
    (answers : cursor.answers count = found.map fun token => .ok (some token)) :
    Scan.tokens cursor.scan = found ++ Scan.tokens (cursor.advanced count).scan ∧
      Scan.faults cursor.scan = Scan.faults (cursor.advanced count).scan := by
  have scanned := (scan_of_answers answers).2
  constructor
  · rw [scanned, Scan.tokens, List.filterMap_append]
    exact congrArg (· ++ _) (Scan.tokens_map_token found)
  · rw [scanned, Scan.faults, List.filterMap_append]
    exact congrArg (· ++ _) (Scan.faults_map_token found)

/-! ### Steps that stay -/

theorem stays {cursor : Cursor} (same : cursor.next.after = cursor) (count : Nat) :
    cursor.answers count = List.replicate count cursor.next.answer ∧
      cursor.advanced count = cursor := by
  induction count with
  | zero => exact ⟨rfl, rfl⟩
  | succ count inductionHypothesis =>
      constructor
      · rw [answers, same, inductionHypothesis.1]
        rfl
      · rw [advanced, same, inductionHypothesis.2]

/-- An unexpected character stays unread: the place moves up to it and no further. -/
theorem after_unexpectedCharacter {cursor after : Cursor} {character : Char} {line : Nat}
    (step : cursor.next = .fault ⟨.unexpectedCharacter character, line⟩ after) :
    after = cursor.skipTrivia ∧ after.line = line := by
  have reads := next_reads cursor
  rw [step] at reads
  obtain ⟨ownLine, sameLine, whole, _⟩ := reads
  cases after
  exact ⟨congr_arg₂ Cursor.mk whole sameLine, sameLine.trans ownLine.symm⟩

theorem next_of_finished {cursor after : Cursor} (step : cursor.next = .finished after) :
    after.next = .finished after := by
  have reads := next_reads cursor
  rw [step] at reads
  rw [reads.1]
  rfl

/-! ### The lines below a place -/

/-- A step leaves a place that lies further on in the same text. -/
theorem Follows.next {text before : List Char} {cursor : Cursor}
    (follows : cursor.Follows text before) :
    ∃ taken, cursor.next.after.Follows text (before ++ taken) := by
  obtain ⟨taken, split, lines⟩ := cursor.exists_taken
  exact ⟨taken, follows.step split lines⟩

theorem Follows.advanced {text before : List Char} {cursor : Cursor}
    (follows : cursor.Follows text before) (count : Nat) :
    ∃ taken, (cursor.advanced count).Follows text (before ++ taken) := by
  induction count generalizing cursor before with
  | zero => exact ⟨[], (List.append_nil before).symm ▸ follows⟩
  | succ count inductionHypothesis =>
      obtain ⟨first, there⟩ := follows.next
      obtain ⟨more, reached⟩ := inductionHypothesis there
      rw [List.append_assoc] at reached
      exact ⟨first ++ more, reached⟩

/-- From the line below any place of a text on, a scan finds what the scan of the whole text finds
below the line of the place. -/
theorem Follows.scan_nextLine {text before : List Char} {cursor : Cursor}
    (follows : cursor.Follows text before) :
    cursor.nextLine.scan = (Cursor.mk text 1).scan.filter (cursor.line < ·.line) := by
  obtain ⟨dropped, ending, drops⟩ := cursor.exists_drops
  have lastLine : (Cursor.mk (before ++ dropped) 1).lastLine = cursor.line := by
    rw [lastLine_mk, List.count_append, List.count_eq_zero.mpr drops.unbroken, follows.line_eq,
      Nat.add_zero]
  have noneAbove : (Cursor.mk (before ++ dropped) 1).scan.filter (cursor.line < ·.line) = [] := by
    apply List.filter_eq_nil_iff.mpr
    intro item member
    have bounds := line_of_mem_scan member
    rw [lastLine] at bounds
    simpa using bounds.2
  have allBelow : cursor.nextLine.scan.filter (cursor.line < ·.line) = cursor.nextLine.scan := by
    apply List.filter_eq_self.mpr
    intro item member
    exact decide_eq_true (line_lt_of_mem_scan_nextLine member)
  have whole : before ++ dropped ++ (ending ++ cursor.nextLine.rest) = text := by
    rw [List.append_assoc, drops.split, follows.whole]
  rw [← whole]
  rcases drops.ending_eq with rfl | ⟨rfl, atEnd⟩
  · have below : cursor.nextLine = ⟨cursor.nextLine.rest, cursor.line + 1⟩ := by
      have lines := drops.line_eq
      rw [List.count_singleton_self] at lines
      rw [← lines]
    have joined := scan_append_newline cursor.nextLine.rest (Cursor.mk (before ++ dropped) 1)
    rw [lastLine, ← below] at joined
    rw [show (Cursor.mk (before ++ dropped ++ (['\n'] ++ cursor.nextLine.rest)) 1).scan = _ from
      joined, List.filter_append, noneAbove, allBelow, List.nil_append]
  · have nothing : cursor.nextLine.scan = [] := by
      generalize cursor.nextLine = place at atEnd
      cases place
      subst atEnd
      exact scan_nil _
    rw [atEnd, List.append_nil, List.append_nil, noneAbove, nothing]

theorem Follows.tokens_and_faults_nextLine {source : String} {before : List Char} {cursor : Cursor}
    (follows : cursor.Follows source.toList before) :
    Scan.tokens cursor.nextLine.scan = (RiscAssembler.tokenize source).value.filter
        (cursor.line < ·.line) ∧
      Scan.faults cursor.nextLine.scan = (lexicalFaults source).filter (cursor.line < ·.line) := by
  rw [follows.scan_nextLine]
  constructor
  · apply Scan.filterMap_filter_line
    intro item found member
    cases item with
    | token other =>
        cases member
        rfl
    | fault other => cases member
  · apply Scan.filterMap_filter_line
    intro item found member
    cases item with
    | token other => cases member
    | fault other =>
        cases member
        rfl

theorem tokenize_of_next_eq_fault {cursor after : Cursor} {fault : LexicalFault}
    (step : cursor.next = .fault fault after) :
    cursor.tokenize = ⟨Scan.tokens after.nextLine.scan,
      fault.diagnostic :: (Scan.faults after.nextLine.scan).map LexicalFault.diagnostic⟩ := by
  rw [tokenize, scan_eq, step]
  rfl

end Cursor

/-- The scan of a text from any place in it that steps lead to. If the steps found tokens only, they
found the first ones of the text, and the scan finds the others and all faults of the text. It says
that the text holds nothing if neither a token nor a fault is left. At an unexpected character all
further steps report that character again; the scan reports it once, and then finds and reports what
the scan of the text does on the later lines. At the end of the text all further steps say so. -/
theorem stepping_agrees (source : String) :
    (∀ count (found : List Token),
      (Cursor.start source).answers count = found.map (fun token => .ok (some token)) →
        found = (tokenize source).value.take count ∧
          ((Cursor.start source).advanced count).tokenize =
            ⟨(tokenize source).value.drop count,
              if (tokenize source).value.drop count = [] ∧ lexicalFaults source = [] then
                [⟨1, "empty or invalid instruction"⟩]
              else (lexicalFaults source).map LexicalFault.diagnostic⟩) ∧
      (∀ count character line after,
        ((Cursor.start source).advanced count).next =
            .fault ⟨.unexpectedCharacter character, line⟩ after →
          ∀ more,
            after.answers more =
                List.replicate more (.error
                  ⟨line, "unexpected character: '" ++ String.singleton character ++ "'"⟩) ∧
              (after.advanced more).tokenize =
                ((Cursor.start source).advanced count).tokenize ∧
              (after.advanced more).tokenize =
                ⟨(tokenize source).value.filter (line < ·.line),
                  ⟨line, "unexpected character: '" ++ String.singleton character ++ "'"⟩ ::
                    ((lexicalFaults source).filter (line < ·.line)).map
                      LexicalFault.diagnostic⟩) ∧
      ∀ count after,
        ((Cursor.start source).advanced count).next = .finished after →
          ∀ more, after.answers more = List.replicate more (.ok none) := by
  refine ⟨?_, ?_, ?_⟩
  · intro count found answers
    have lengths := (Cursor.scan_of_answers answers).1
    obtain ⟨tokens, faults⟩ := Cursor.tokens_and_faults_of_answers answers
    generalize (Cursor.start source).advanced count = place at tokens faults
    have value : (tokenize source).value = found ++ place.tokenize.value := tokens
    rw [value, List.take_left' lengths, List.drop_left' lengths, lexicalFaults, faults,
      Cursor.tokenize, Scan.reported, Scan.diagnostics_eq]
    exact ⟨rfl, rfl⟩
  · intro count character line after step more
    have start : (Cursor.start source).Follows source.toList [] := ⟨rfl, rfl⟩
    obtain ⟨before, reached⟩ := start.advanced count
    obtain ⟨gap, there, _⟩ := reached.skipTrivia
    generalize (Cursor.start source).advanced count = place at step there
    obtain ⟨rfl, rfl⟩ := Cursor.after_unexpectedCharacter step
    have again := place.next_skipTrivia.trans step
    have same : place.skipTrivia.next.after = place.skipTrivia := by rw [again, Step.after]
    obtain ⟨answers, stays⟩ := Cursor.stays same more
    obtain ⟨tokens, faults⟩ := there.tokens_and_faults_nextLine
    rw [again] at answers
    rw [stays]
    refine ⟨answers, congrArg Scan.reported place.scan_skipTrivia, ?_⟩
    rw [Cursor.tokenize_of_next_eq_fault again, tokens, faults]
    rfl
  · intro count after step more
    have again := Cursor.next_of_finished step
    have same : after.next.after = after := by rw [again, Step.after]
    rw [(Cursor.stays same more).1, again]
    rfl

/-- A token, a character that starts none, and another line; and a text that ends behind a token. -/
theorem stepping_agrees_unexpected :
    (Cursor.start "X1$ 5\nX2").answers 1 = [.ok (some ⟨.register 1, "X1", 1⟩)] ∧
      [⟨.register 1, "X1", 1⟩] = (tokenize "X1$ 5\nX2").value.take 1 ∧
      ((Cursor.start "X1$ 5\nX2").advanced 1).next =
        .fault ⟨.unexpectedCharacter '$', 1⟩ ⟨"$ 5\nX2".toList, 1⟩ ∧
      ((Cursor.mk "$ 5\nX2".toList 1).advanced 3).tokenize =
        ⟨[⟨.register 2, "X2", 2⟩], [⟨1, "unexpected character: '$'"⟩]⟩ ∧
      ((Cursor.start "X1").advanced 1).next = .finished ⟨[], 1⟩ ∧
      (Cursor.mk [] 1).answers 2 = [.ok none, .ok none] := by
  have answer : (Cursor.start "X1$ 5\nX2").answers 1 = [.ok (some ⟨.register 1, "X1", 1⟩)] := by
    decide +kernel
  have step : ((Cursor.start "X1$ 5\nX2").advanced 1).next =
      .fault ⟨.unexpectedCharacter '$', 1⟩ ⟨"$ 5\nX2".toList, 1⟩ := by
    decide +kernel
  have finished : ((Cursor.start "X1").advanced 1).next = .finished ⟨[], 1⟩ := by
    decide +kernel
  have first := ((stepping_agrees _).1 1 [⟨.register 1, "X1", 1⟩] answer).1
  have scanned := ((stepping_agrees _).2.1 1 '$' 1 _ step 3).2.2
  have tokens : (tokenize "X1$ 5\nX2").value =
      [⟨.register 1, "X1", 1⟩, ⟨.register 2, "X2", 2⟩] := by
    decide +kernel
  have faults : lexicalFaults "X1$ 5\nX2" = [⟨.unexpectedCharacter '$', 1⟩] := by
    decide +kernel
  rw [tokens, faults] at scanned
  exact ⟨answer, first, step, scanned, finished, (stepping_agrees _).2.2 1 _ finished 2⟩

end RiscAssembler
