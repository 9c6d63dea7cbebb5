import RiscAssembler.Token.Cursor

/-!
Contract: the tokens and the lexical faults of a whole program text.

Owns:
- the scan of a text: tokens and faults in the order in which they stand;
- recovery: a fault drops the rest of its line, and the scan goes on with the next line;
- the report of a scan, which says so when a text holds nothing at all;
- the text taken one step at a time, without recovery: what the caller of a step is told, and the
  place behind a number of steps.

Main statement: `scan_eq`, the scan is one step followed by the scan of what the step leaves.
-/

namespace RiscAssembler

inductive ScanItem where
  | token (token : Token)
  | fault (fault : LexicalFault)
deriving DecidableEq, Repr

namespace ScanItem

def token? : ScanItem → Option Token
  | .token found => some found
  | .fault _ => none

def fault? : ScanItem → Option LexicalFault
  | .token _ => none
  | .fault found => some found

end ScanItem

/-- Everything found from a place on. A fault drops the rest of its line. -/
def Cursor.scan (cursor : Cursor) : List ScanItem :=
  match _ : cursor.next with
  | .token token after => .token token :: after.scan
  | .fault fault after => .fault fault :: after.nextLine.scan
  | .finished _ => []
termination_by cursor.rest.length
decreasing_by
  · exact Cursor.length_lt_of_next_eq_token (by assumption)
  · exact Cursor.length_lt_of_next_eq_fault (by assumption)

theorem Cursor.scan_eq (cursor : Cursor) :
    cursor.scan =
      match cursor.next with
      | .token token after => .token token :: after.scan
      | .fault fault after => .fault fault :: after.nextLine.scan
      | .finished _ => [] := by
  rw [Cursor.scan]
  split <;> simp_all

@[simp] theorem Cursor.scan_nil (line : Nat) : scan ⟨[], line⟩ = [] :=
  scan_eq _

/-- The place where the scan from a place ends. -/
def Cursor.finish (cursor : Cursor) : Cursor :=
  match _ : cursor.next with
  | .token _ after => after.finish
  | .fault _ after => after.nextLine.finish
  | .finished after => after
termination_by cursor.rest.length
decreasing_by
  · exact Cursor.length_lt_of_next_eq_token (by assumption)
  · exact Cursor.length_lt_of_next_eq_fault (by assumption)

namespace Scan

def tokens (items : List ScanItem) : List Token :=
  items.filterMap ScanItem.token?

def faults (items : List ScanItem) : List LexicalFault :=
  items.filterMap ScanItem.fault?

def nothingFound : Diagnostic :=
  ⟨1, "empty or invalid instruction"⟩

def diagnostics (items : List ScanItem) : List Diagnostic :=
  if items.isEmpty then [nothingFound] else (faults items).map LexicalFault.diagnostic

def reported (items : List ScanItem) : Reported (List Token) :=
  ⟨tokens items, diagnostics items⟩

end Scan

def Cursor.tokenize (cursor : Cursor) : Reported (List Token) :=
  Scan.reported cursor.scan

def tokenize (source : String) : Reported (List Token) :=
  (Cursor.start source).tokenize

/-! ### Single steps

A step does not recover from a fault. The next one goes on from the place at which the fault was
reported, whereas a scan goes on with the next line. -/

/-- What the caller of a step is told: a token, a fault, or that nothing is left. -/
def Step.answer : Step → Except Diagnostic (Option Token)
  | token found _ => .ok (some found)
  | fault found _ => .error found.diagnostic
  | finished _ => .ok none

namespace Cursor

/-- The answers to a number of steps, each from the place that the one before it left. -/
def answers : Nat → Cursor → List (Except Diagnostic (Option Token))
  | 0, _ => []
  | count + 1, cursor => cursor.next.answer :: answers count cursor.next.after

/-- The place behind a number of steps. -/
def advanced : Nat → Cursor → Cursor
  | 0, cursor => cursor
  | count + 1, cursor => advanced count cursor.next.after

end Cursor

end RiscAssembler
