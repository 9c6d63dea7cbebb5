import RiscAssembler.Assembly.Basic

/-!
Contract: a run of requests that share one list of diagnostics.

Owns:
- the list of diagnostics that all stages of an assembly add to;
- the stages at work on that list, where each diagnostic is added as soon as it is raised;
- the requests that can be made of the stages, one at a time or one after the other;
- the answer to a request by itself, without a list around it.

A scan counts its own faults. The list does not tell them, for it may hold what other requests have
raised before.
-/

namespace RiscAssembler.Session

/-- The diagnostics so far, in the order of raising. -/
abbrev Log : Type := List Diagnostic

/-! ### Stages -/

def record (diagnostic : Diagnostic) : StateM Log Unit :=
  modify (· ++ [diagnostic])

def accept (source : String) : StateM Log Bool := do
  if source.isEmpty then
    record emptySource
    return false
  else
    return true

/-- Scans on from a place, with the tokens and the number of faults found up to there. -/
def scan (cursor : Cursor) (tokens : List Token) (faults : Nat) :
    StateM Log (List Token × Nat) :=
  match _ : cursor.next with
  | .token token after => scan after (tokens ++ [token]) faults
  | .fault fault after => do
      record fault.diagnostic
      scan after.nextLine tokens (faults + 1)
  | .finished _ => return (tokens, faults)
termination_by cursor.rest.length
decreasing_by
  · exact Cursor.length_lt_of_next_eq_token (by assumption)
  · exact Cursor.length_lt_of_next_eq_fault (by assumption)

def tokenize (source : String) : StateM Log (List Token) := do
  let (tokens, faults) ← scan (Cursor.start source) [] 0
  if tokens.isEmpty && faults == 0 then record Scan.nothingFound
  return tokens

/-- Groups tokens. Those in front of the first opcode are recorded one by one. -/
def group : List Token → StateM Log (List Instruction)
  | [] => return []
  | token :: rest => do
      if token.isOpcode then
        return (segments (token :: rest)).2
      else
        record (opcodeExpected token)
        group rest

def encodeLine (instruction : Instruction) : StateM Log String :=
  match instruction.encode with
  | .ok word => return word.bits
  | .error fault => do
      record fault.diagnostic
      return Instruction.errorLine

/-! ### Requests -/

/-- A request of a stage, or a diagnostic to record, whole or by its line and its message. -/
inductive Request where
  | raise (diagnostic : Diagnostic)
  | accept (source : String)
  | tokenize (source : String)
  | group (tokens : List Token)
  | encodeLine (instruction : Instruction)
deriving DecidableEq, Repr

inductive Reply where
  | nothing
  | verdict (accepted : Bool)
  | tokens (tokens : List Token)
  | instructions (instructions : List Instruction)
  | line (line : String)
deriving DecidableEq, Repr

def Request.stage : Request → StateM Log Reply
  | raise diagnostic => do
      record diagnostic
      return .nothing
  | accept source => return .verdict (← Session.accept source)
  | tokenize source => return .tokens (← Session.tokenize source)
  | group tokens => return .instructions (← Session.group tokens)
  | encodeLine instruction => return .line (← Session.encodeLine instruction)

def perform (request : Request) (log : Log) : Reply × Log :=
  request.stage.run log

/-- Performs requests one after the other on one log. -/
def performAll : List Request → Log → List Reply × Log
  | [], log => ([], log)
  | request :: rest, log =>
      let (reply, log) := perform request log
      let (replies, log) := performAll rest log
      (reply :: replies, log)

/-- What a request comes to by itself: its reply and the diagnostics that it raises. -/
def Request.answer : Request → Reported Reply
  | raise diagnostic => ⟨.nothing, [diagnostic]⟩
  | accept source => do return .verdict (← acceptSource source)
  | tokenize source => do return .tokens (← RiscAssembler.tokenize source)
  | group tokens => do return .instructions (← RiscAssembler.group tokens)
  | encodeLine instruction => do return .line (← instruction.encodeLine)

/-- Takes the report out of the log and leaves the log empty. -/
def takeReport (log : Log) : List Diagnostic × Log :=
  (Diagnostics.sorted log, [])

end RiscAssembler.Session
