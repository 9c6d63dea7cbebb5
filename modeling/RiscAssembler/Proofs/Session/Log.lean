import RiscAssembler.Proofs.Assembly.Outcome
import RiscAssembler.Session

/-!
Contract: what the stages of an assembly do to the list of diagnostics that they share.

Owns:
- a stage that adds a block of its own to the end of the list, whatever the list holds;
- for each stage, the block that it adds and the value that it returns;
- the number of diagnostics that a request raises;
- a row of requests on one list.

A stage is compared with the answer that it gives without a list around it. That answer depends on
the argument alone, so a stage that agrees with it on every list neither looks at the list nor
changes what is there.

Main statement: `performAll_appends`.
-/

namespace RiscAssembler.Session

/-! ### Stages that append -/

/-- On every list, a stage returns the value of an answer and adds its diagnostics to the end. -/
def Appends (stage : StateM Log α) (answer : Reported α) : Prop :=
  ∀ log, stage.run log = (answer.value, log ++ answer.diagnostics)

namespace Appends

theorem pure (value : α) : Appends (Pure.pure value) (Reported.silent value) := by
  intro log
  rw [Reported.silent, List.append_nil]
  rfl

theorem record_seq (diagnostic : Diagnostic) {later : StateM Log α} {answer : Reported α}
    (appends : Appends later answer) :
    Appends (record diagnostic >>= fun _ => later)
      ⟨answer.value, diagnostic :: answer.diagnostics⟩ := by
  intro log
  rw [List.append_cons]
  exact appends (log ++ [diagnostic])

theorem map {stage : StateM Log α} {answer : Reported α} (appends : Appends stage answer)
    (reply : α → β) :
    Appends (stage >>= fun value => Pure.pure (reply value))
      (answer >>= fun value => Pure.pure (reply value)) := by
  intro log
  rw [StateT.run_bind, appends log, Reported.value_bind, Reported.diagnostics_bind,
    Reported.diagnostics_pure, List.append_nil]
  rfl

end Appends

/-! ### Each stage -/

theorem appends_accept (source : String) : Appends (accept source) (acceptSource source) := by
  intro log
  unfold accept acceptSource
  cases source.isEmpty with
  | true => rfl
  | false =>
      rw [if_neg Bool.false_ne_true, if_neg Bool.false_ne_true, List.append_nil]
      rfl

theorem scan_eq (cursor : Cursor) (tokens : List Token) (faults : Nat) :
    scan cursor tokens faults =
      match cursor.next with
      | .token token after => scan after (tokens ++ [token]) faults
      | .fault fault after => do
          record fault.diagnostic
          scan after.nextLine tokens (faults + 1)
      | .finished _ => return (tokens, faults) := by
  rw [scan]
  split <;> simp_all

/-- A scan adds its faults to the list, and counts them and collects its tokens on top of what it
was given. -/
theorem appends_scan (cursor : Cursor) (tokens : List Token) (faults : Nat) :
    Appends (scan cursor tokens faults)
      ⟨(tokens ++ Scan.tokens cursor.scan, faults + (Scan.faults cursor.scan).length),
        (Scan.faults cursor.scan).map LexicalFault.diagnostic⟩ := by
  induction cursor using Cursor.scan_induction generalizing tokens faults with
  | token cursor found after step inductionHypothesis =>
      have later := inductionHypothesis (tokens ++ [found]) faults
      rw [← List.append_cons] at later
      rw [scan_eq, Cursor.scan_eq, step]
      exact later
  | fault cursor found after step inductionHypothesis =>
      have later := inductionHypothesis tokens (faults + 1)
      rw [Nat.add_assoc, Nat.add_comm 1] at later
      rw [scan_eq, Cursor.scan_eq, step]
      exact Appends.record_seq found.diagnostic later
  | finished cursor after step =>
      rw [scan_eq, Cursor.scan_eq, step]
      intro log
      rw [Scan.tokens, List.filterMap_nil, List.append_nil, Scan.faults, List.filterMap_nil,
        List.map_nil, List.append_nil]
      rfl

/-- The message about a text without tokens and faults hangs on the faults of that text alone, not
on what the list holds already. -/
theorem appends_tokenize (source : String) :
    Appends (tokenize source) (RiscAssembler.tokenize source) := by
  intro log
  have scanned := appends_scan (Cursor.start source) [] 0 log
  have counted (items : List ScanItem) :
      ((Scan.tokens items).isEmpty && (Scan.faults items).length == 0) = items.isEmpty := by
    rw [Bool.eq_iff_iff, Scan.isEmpty_iff]
    simp
  rw [List.nil_append, Nat.zero_add] at scanned
  rw [tokenize, StateT.run_bind, scanned, RiscAssembler.tokenize, Cursor.tokenize]
  generalize (Cursor.start source).scan = items
  change StateT.run
      (if (Scan.tokens items).isEmpty && (Scan.faults items).length == 0 then do
        record Scan.nothingFound
        return Scan.tokens items
      else return Scan.tokens items)
      (log ++ (Scan.faults items).map LexicalFault.diagnostic) = _
  rw [counted items]
  cases items with
  | nil =>
      rw [Scan.faults, List.filterMap_nil, List.map_nil, List.append_nil]
      rfl
  | cons item rest => rfl

theorem appends_group (tokens : List Token) :
    Appends (group tokens) (RiscAssembler.group tokens) := by
  induction tokens with
  | nil => exact Appends.pure []
  | cons token rest inductionHypothesis =>
      cases isOpcode : token.isOpcode with
      | true =>
          have noStray : strayTokens (token :: rest) = [] := by
            rw [strayTokens, List.takeWhile_cons, isOpcode]
            rfl
          rw [group, if_pos isOpcode, RiscAssembler.group, noStray]
          exact Appends.pure _
      | false =>
          have stray : strayTokens (token :: rest) = token :: strayTokens rest := by
            rw [strayTokens, List.takeWhile_cons, isOpcode]
            rfl
          rw [group, if_neg (Bool.eq_false_iff.mp isOpcode), RiscAssembler.group, stray,
            segments_instructions_of_not_opcode isOpcode]
          exact Appends.record_seq (opcodeExpected token) inductionHypothesis

theorem appends_encodeLine (instruction : Instruction) :
    Appends (encodeLine instruction) instruction.encodeLine := by
  unfold encodeLine Instruction.encodeLine
  cases instruction.encode with
  | ok word => exact Appends.pure word.bits
  | error fault => exact Appends.record_seq fault.diagnostic (Appends.pure Instruction.errorLine)

/-! ### Requests -/

/-- How many diagnostics a request raises: one if it hands a diagnostic in, if it has a text
refused or if it is answered by an error line; as many as there are lexical faults in a text, or
one for a text that has neither tokens nor faults; as many as there are tokens in front of the
first opcode. -/
def Request.entryCount : Request → Nat
  | raise _ => 1
  | accept source => if (accept source).answer.value = .verdict false then 1 else 0
  | tokenize source =>
      if (RiscAssembler.tokenize source).value = [] ∧ lexicalFaults source = [] then 1
      else (lexicalFaults source).length
  | group tokens => (tokens.takeWhile (!·.isOpcode)).length
  | encodeLine instruction =>
      if (encodeLine instruction).answer.value = .line "ERROR" then 1 else 0

theorem length_answer_diagnostics (request : Request) :
    request.answer.diagnostics.length = request.entryCount := by
  cases request with
  | raise diagnostic => rfl
  | accept source =>
      simp only [Request.answer, Request.entryCount, Reported.value_bind, Reported.value_pure,
        Reported.diagnostics_bind, Reported.diagnostics_pure, List.append_nil, acceptSource]
      by_cases empty : source.isEmpty
      · simp [empty]
      · simp [empty]
  | tokenize source =>
      simp only [Request.answer, Request.entryCount, Reported.diagnostics_bind,
        Reported.diagnostics_pure, List.append_nil, tokenize_diagnostics]
      split
      · rfl
      · rw [List.length_map]
  | group tokens =>
      simp only [Request.answer, Request.entryCount, Reported.diagnostics_bind,
        Reported.diagnostics_pure, List.append_nil, RiscAssembler.group, List.length_map]
      rfl
  | encodeLine instruction =>
      simp only [Request.answer, Request.entryCount, Reported.value_bind, Reported.value_pure,
        Reported.diagnostics_bind, Reported.diagnostics_pure, List.append_nil, Reply.line.injEq]
      cases result : instruction.encode with
      | ok word =>
          rw [Instruction.encodeLine_of_ok result]
          exact (if_neg (Instruction.bits_ne_errorLine word)).symm
      | error fault =>
          rw [Instruction.encodeLine_of_error result]
          exact (if_pos rfl).symm

theorem appends_stage (request : Request) : Appends request.stage request.answer := by
  cases request with
  | raise diagnostic => exact Appends.record_seq diagnostic (Appends.pure Reply.nothing)
  | accept source => exact (appends_accept source).map Reply.verdict
  | tokenize source => exact (appends_tokenize source).map Reply.tokens
  | group tokens => exact (appends_group tokens).map Reply.instructions
  | encodeLine instruction => exact (appends_encodeLine instruction).map Reply.line

theorem perform_eq (request : Request) (log : Log) :
    perform request log = (request.answer.value, log ++ request.answer.diagnostics) :=
  appends_stage request log

theorem performAll_eq (requests : List Request) (log : Log) :
    performAll requests log =
      (requests.map (·.answer.value), log ++ requests.flatMap (·.answer.diagnostics)) := by
  induction requests generalizing log with
  | nil => simp [performAll]
  | cons request rest inductionHypothesis =>
      simp only [performAll, perform_eq, inductionHypothesis, List.map_cons, List.flatMap_cons,
        List.append_assoc]

/-- Requests in a row on one list of diagnostics, whatever is on it at first. Each is answered as if
it stood by itself, and adds its own block behind all that is there. The length of the block is
known from the request. The report that is taken at the end has every entry once, in order of lines,
and those of each line in the order in which they were added. -/
theorem performAll_appends (requests : List Request) (log : Log) :
    (performAll requests log).1 = requests.map (·.answer.value) ∧
      (∀ place request, requests[place]? = some request →
        (performAll (requests.take (place + 1)) log).2 =
          (performAll (requests.take place) log).2 ++ request.answer.diagnostics) ∧
      (∀ request : Request, request.answer.diagnostics.length = request.entryCount) ∧
      Diagnostics.ListsByLine (takeReport (performAll requests log).2).1
        (log ++ requests.flatMap (·.answer.diagnostics)) := by
  refine ⟨?_, ?_, length_answer_diagnostics, ?_⟩
  · rw [performAll_eq]
  · intro place request found
    rw [performAll_eq, performAll_eq, List.take_add_one, found, Option.toList_some,
      List.flatMap_append, List.flatMap_singleton, List.append_assoc]
  · rw [performAll_eq]
    exact Diagnostics.sorted_listsByLine _

end RiscAssembler.Session
