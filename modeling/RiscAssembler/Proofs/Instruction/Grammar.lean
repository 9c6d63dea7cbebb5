import Mathlib.Data.List.TakeWhile
import RiscAssembler.Proofs.Instruction.Segments

/-!
Contract: instructions as a grammar describes them, without a cursor or a look-ahead.

Owns:
- a list of tokens as stray tokens and runs, each an opcode and what follows it up to the next;
- the one division of a list into such parts;
- the operands of a run: base offsets without their parentheses, and then no commas;
- every base offset, wherever it stands, and nothing else, as what loses its parentheses.

Main statement: `group_follows_grammar`.
-/

namespace RiscAssembler

/-- An opcode and the tokens behind it, none of which is an opcode. -/
structure OpcodeRun where
  mnemonic : Mnemonic
  lexeme : String
  line : Nat
  following : List Token
  plain : ∀ token ∈ following, token.isOpcode = false

def OpcodeRun.tokens (run : OpcodeRun) : List Token :=
  ⟨.opcode run.mnemonic, run.lexeme, run.line⟩ :: run.following

/-- Tokens that are no opcodes, and runs of tokens that start with an opcode each. -/
structure Division where
  stray : List Token
  runs : List OpcodeRun
  plain : ∀ token ∈ stray, token.isOpcode = false

def Division.tokens (division : Division) : List Token :=
  division.stray ++ division.runs.flatMap OpcodeRun.tokens

/-- Tokens in which each offset with its base in parentheses is written as the offset and the
base. -/
def collapsed : List Token → List Token
  | offset :: left :: base :: right :: rest =>
      if isBaseOffset offset.kind left.kind base.kind right.kind then
        offset :: base :: collapsed rest
      else offset :: collapsed (left :: base :: right :: rest)
  | token :: rest => token :: collapsed rest
  | [] => []

/-- The operands that a list of tokens stands for. -/
def operandsOf (tokens : List Token) : List Token :=
  (collapsed tokens).filter (·.kind ≠ .comma)

def OpcodeRun.instruction (run : OpcodeRun) : Instruction :=
  ⟨run.mnemonic, operandsOf run.following, run.line⟩

/-! ### Base offsets -/

theorem collapsed_baseOffset {offset left base right : Token}
    (whole : isBaseOffset offset.kind left.kind base.kind right.kind) (rest : List Token) :
    collapsed (offset :: left :: base :: right :: rest) = offset :: base :: collapsed rest := by
  rw [collapsed, if_pos whole]

theorem collapsed_cons {token : Token} {rest : List Token}
    (other : startsBaseOffset (token :: rest) = false) :
    collapsed (token :: rest) = token :: collapsed rest := by
  match rest with
  | [] | [_] | [_, _] => simp [collapsed]
  | left :: base :: right :: rest =>
      have noBaseOffset : ¬ isBaseOffset token.kind left.kind base.kind right.kind := by
        simpa [startsBaseOffset] using other
      rw [collapsed, if_neg noBaseOffset]

/-- A list that does not go on with a later part of a base offset is collapsed by itself. -/
theorem collapsed_append {second : List Token}
    (stops : ∀ token ∈ second.head?, token.kind.continuesBaseOffset = false) (first : List Token) :
    collapsed (first ++ second) = collapsed first ++ collapsed second := by
  induction first using segments_induction with
  | nil => simp [collapsed]
  | baseOffset offset left base right rest whole inductionHypothesis =>
      simp only [List.cons_append, collapsed_baseOffset whole, inductionHypothesis]
  | other token rest other inductionHypothesis =>
      have appended : startsBaseOffset (token :: (rest ++ second)) = false := by
        rw [← List.cons_append, startsBaseOffset_append_of_head (by simp) stops, other]
      rw [List.cons_append, collapsed_cons appended, collapsed_cons other, inductionHypothesis,
        List.cons_append]

/-- A base offset loses its parentheses wherever it stands. -/
theorem collapsed_append_baseOffset {offset left base right : Token}
    (whole : isBaseOffset offset.kind left.kind base.kind right.kind) (before after : List Token) :
    collapsed (before ++ offset :: left :: base :: right :: after) =
      collapsed before ++ offset :: base :: collapsed after := by
  have stops : ∀ token ∈ (offset :: left :: base :: right :: after).head?,
      token.kind.continuesBaseOffset = false := by
    obtain ⟨⟨value, isValue⟩, _⟩ := isBaseOffset_iff.mp whole
    simp [isValue, TokenKind.continuesBaseOffset]
  rw [collapsed_append stops, collapsed_baseOffset whole]

/-- Tokens without a base offset stay as they are. -/
theorem collapsed_eq_self {tokens : List Token}
    (none : ∀ rest, rest <:+ tokens → startsBaseOffset rest = false) :
    collapsed tokens = tokens := by
  induction tokens with
  | nil => simp [collapsed]
  | cons token rest inductionHypothesis =>
      rw [collapsed_cons (none _ (List.suffix_refl _)), inductionHypothesis]
      intro later isLater
      exact none later (isLater.trans (List.suffix_cons token rest))

/-! ### Operands -/

/-- Tokens without an opcode are divided into operands only. -/
theorem segments_of_plain {tokens : List Token}
    (plain : ∀ token ∈ tokens, token.isOpcode = false) :
    segments tokens = (operandsOf tokens, []) := by
  unfold operandsOf
  induction tokens using segments_induction with
  | nil => simp [segments, collapsed]
  | baseOffset offset left base right rest whole inductionHypothesis =>
      obtain ⟨⟨value, isValue⟩, _, ⟨number, isBase⟩, _⟩ := isBaseOffset_iff.mp whole
      have restPlain : ∀ token ∈ rest, token.isOpcode = false := by
        intro token member
        exact plain token (by simp [member])
      rw [segments_baseOffset whole, collapsed_baseOffset whole, inductionHypothesis restPlain]
      simp [isValue, isBase]
  | other token rest other inductionHypothesis =>
      obtain ⟨noOpcode, restPlain⟩ := List.forall_mem_cons.mp plain
      rw [segments_cons other, collapsed_cons other, inductionHypothesis restPlain]
      obtain ⟨kind, lexeme, line⟩ := token
      cases kind with
      | opcode mnemonic => cases noOpcode
      | _ => rfl

/-! ### Runs -/

theorem OpcodeRun.opens_tokens (run : OpcodeRun) (rest : List Token) :
    (run.tokens ++ rest).head?.any Token.isOpcode :=
  rfl

/-- Behind a run there is nothing, or an opcode. -/
theorem isOpcode_head_runs (runs : List OpcodeRun) :
    ∀ token ∈ (runs.flatMap OpcodeRun.tokens).head?, token.isOpcode := by
  cases runs with
  | nil => simp
  | cons run rest =>
      intro token isHead
      obtain rfl : (⟨.opcode run.mnemonic, run.lexeme, run.line⟩ : Token) = token := by
        simpa [OpcodeRun.tokens] using isHead
      rfl

/-- Tokens in front of runs are divided by themselves. -/
theorem segments_append_runs (first : List Token) (runs : List OpcodeRun) :
    segments (first ++ runs.flatMap OpcodeRun.tokens) =
      ((segments first).1,
        (segments first).2 ++ (segments (runs.flatMap OpcodeRun.tokens)).2) := by
  cases runs with
  | nil => simp [segments]
  | cons run rest => exact segments_append (run.opens_tokens _) first

/-- Each run is one instruction. -/
theorem segments_runs (runs : List OpcodeRun) :
    (segments (runs.flatMap OpcodeRun.tokens)).2 = runs.map OpcodeRun.instruction := by
  induction runs with
  | nil => simp [segments]
  | cons run rest inductionHypothesis =>
      rw [List.flatMap_cons, OpcodeRun.tokens, List.cons_append, segments_opcode,
        segments_append_runs, segments_of_plain run.plain, inductionHypothesis]
      rfl

/-! ### The one division -/

theorem strayTokens_append_runs {first : List Token}
    (plain : ∀ token ∈ first, token.isOpcode = false) (runs : List OpcodeRun) :
    strayTokens (first ++ runs.flatMap OpcodeRun.tokens) = first := by
  have stops : ∀ token ∈ (runs.flatMap OpcodeRun.tokens).head?, (!token.isOpcode) = false := by
    intro token isHead
    rw [isOpcode_head_runs runs token isHead, Bool.not_true]
  rw [strayTokens, takeWhile_append_stop stops, List.takeWhile_eq_self_iff]
  intro token member
  rw [plain token member, Bool.not_false]

theorem append_runs_inj {first other : List Token}
    (firstPlain : ∀ token ∈ first, token.isOpcode = false)
    (otherPlain : ∀ token ∈ other, token.isOpcode = false) {runs more : List OpcodeRun}
    (same : first ++ runs.flatMap OpcodeRun.tokens = other ++ more.flatMap OpcodeRun.tokens) :
    first = other ∧ runs.flatMap OpcodeRun.tokens = more.flatMap OpcodeRun.tokens := by
  have sameFirst : first = other := by
    rw [← strayTokens_append_runs firstPlain runs, same, strayTokens_append_runs otherPlain more]
  subst sameFirst
  exact ⟨rfl, List.append_cancel_left same⟩

theorem runs_eq_of_tokens_eq {runs more : List OpcodeRun}
    (same : runs.flatMap OpcodeRun.tokens = more.flatMap OpcodeRun.tokens) : runs = more := by
  induction runs generalizing more with
  | nil =>
      cases more with
      | nil => rfl
      | cons run rest => cases same
  | cons run rest inductionHypothesis =>
      cases more with
      | nil => cases same
      | cons otherRun otherRest =>
          obtain ⟨mnemonic, lexeme, line, following, plain⟩ := run
          obtain ⟨otherMnemonic, otherLexeme, otherLine, otherFollowing, otherPlain⟩ := otherRun
          obtain ⟨sameOpcode, sameTail⟩ := List.cons.inj same
          obtain ⟨sameFollowing, sameRest⟩ := append_runs_inj plain otherPlain sameTail
          cases sameOpcode
          subst sameFollowing
          rw [inductionHypothesis sameRest]

theorem Division.eq_of_tokens_eq {division other : Division}
    (same : division.tokens = other.tokens) : division = other := by
  obtain ⟨stray, runs, plain⟩ := division
  obtain ⟨otherStray, otherRuns, otherPlain⟩ := other
  obtain ⟨sameStray, sameTokens⟩ := append_runs_inj plain otherPlain same
  have sameRuns := runs_eq_of_tokens_eq sameTokens
  subst sameStray sameRuns
  rfl

theorem exists_division (tokens : List Token) :
    ∃ division : Division, division.tokens = tokens := by
  induction tokens with
  | nil => exact ⟨⟨[], [], by simp⟩, rfl⟩
  | cons token rest inductionHypothesis =>
      obtain ⟨⟨stray, runs, plain⟩, rfl⟩ := inductionHypothesis
      obtain ⟨kind, lexeme, line⟩ := token
      cases kind with
      | opcode mnemonic =>
          exact ⟨⟨[], ⟨mnemonic, lexeme, line, stray, plain⟩ :: runs, by simp⟩, rfl⟩
      | _ => exact ⟨⟨_ :: stray, runs, List.forall_mem_cons.mpr ⟨rfl, plain⟩⟩, rfl⟩

/-! ### Grouping -/

theorem group_division (division : Division) :
    group division.tokens =
      ⟨division.runs.map OpcodeRun.instruction, division.stray.map opcodeExpected⟩ := by
  unfold group Division.tokens
  rw [segments_append_runs, segments_of_plain division.plain, segments_runs,
    strayTokens_append_runs division.plain, List.nil_append]

/-- Two lists of tokens are grouped one after the other, if the second starts with an opcode. -/
theorem group_append {second : List Token} (opens : second.head?.any Token.isOpcode)
    (first : List Token) :
    group (first ++ second) =
      ⟨(group first).value ++ (group second).value,
        (group first).diagnostics ++ (group second).diagnostics⟩ := by
  unfold group
  rw [segments_append opens, strayTokens_append opens, strayTokens_of_opens opens, List.map_nil,
    List.append_nil]

/-- Grouping follows a grammar. Every list of tokens is stray tokens and then runs of tokens, each
opened by one of the opcodes, in exactly one way. The instructions are the runs, in order: each has
the mnemonic and the line of its opcode, and for operands what follows the opcode, with base
offsets instead of their four tokens and without commas. The diagnostics are one for each stray
token, in order. In a list of operands every base offset is collapsed, wherever it stands, and
nothing else is. So lists of tokens are grouped one after the other where the second opens with an
opcode. -/
theorem group_follows_grammar (tokens : List Token) :
    (∃ division : Division, division.tokens = tokens ∧
      (∀ other : Division, other.tokens = tokens → other = division) ∧
      group tokens =
        ⟨division.runs.map fun run =>
            ⟨run.mnemonic, (collapsed run.following).filter (·.kind ≠ .comma), run.line⟩,
          division.stray.map fun token =>
            ⟨token.line, "unexpected token: " ++ token.lexeme ++ ", expected an opcode"⟩⟩) ∧
      (∀ (before after : List Token) (offset left base right : Token),
        isBaseOffset offset.kind left.kind base.kind right.kind →
          collapsed (before ++ offset :: left :: base :: right :: after) =
            collapsed before ++ offset :: base :: collapsed after) ∧
      ((∀ rest, rest <:+ tokens → startsBaseOffset rest = false) → collapsed tokens = tokens) ∧
      ∀ second : List Token, second.head?.any Token.isOpcode →
        group (tokens ++ second) =
          ⟨(group tokens).value ++ (group second).value,
            (group tokens).diagnostics ++ (group second).diagnostics⟩ := by
  refine ⟨?_, fun before after _ _ _ _ whole => collapsed_append_baseOffset whole before after,
    collapsed_eq_self, fun second opens => group_append opens tokens⟩
  obtain ⟨division, rfl⟩ := exists_division tokens
  exact ⟨division, rfl, fun other same => Division.eq_of_tokens_eq same, group_division division⟩

/-- A comma within keeps the parentheses. -/
example :
    operandsOf [⟨.immediate 4, "4", 1⟩, ⟨.comma, ",", 1⟩, ⟨.leftParenthesis, "(", 1⟩,
      ⟨.register 5, "t0", 1⟩, ⟨.rightParenthesis, ")", 1⟩] =
    [⟨.immediate 4, "4", 1⟩, ⟨.leftParenthesis, "(", 1⟩, ⟨.register 5, "t0", 1⟩,
      ⟨.rightParenthesis, ")", 1⟩] := by
  decide

end RiscAssembler
