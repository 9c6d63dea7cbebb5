import RiscAssembler.Instruction
import RiscAssembler.Proofs.Token.Lines

/-!
Contract: the division of tokens into instructions, one token or one base offset at a time.

Owns:
- the tokens that start with an offset and its base in parentheses;
- the two equations of the division, and induction along them;
- one instruction for each opcode, in order;
- the division of two lists where the second opens an instruction;
- tokens in front of the first opcode, which change no instruction, and which of them are stray;
- the division of an opcode and operands with commas between them;
- the division of tokens that are spelled otherwise or stand elsewhere;
- where the operands and the lines of instructions come from.

Does not own: what an instruction means. Other modules take the division apart through the two
equations and the induction alone.
-/

namespace RiscAssembler

def Instruction.shifted (instruction : Instruction) (count : Nat) : Instruction :=
  ⟨instruction.mnemonic, instruction.operands.map (·.shifted count), instruction.line + count⟩

/-- A token of the same kind, spelled otherwise and on another line. -/
def Token.relabel (spell : String → String) (move : Nat → Nat) (token : Token) : Token :=
  ⟨token.kind, spell token.lexeme, move token.line⟩

def Instruction.relabel (spell : String → String) (move : Nat → Nat)
    (instruction : Instruction) : Instruction :=
  ⟨instruction.mnemonic, instruction.operands.map (Token.relabel spell move),
    move instruction.line⟩

/-- Whether tokens of four kinds make up an offset and its base in parentheses. -/
def isBaseOffset : (offset left base right : TokenKind) → Bool
  | .immediate _, .leftParenthesis, .register _, .rightParenthesis => true
  | _, _, _, _ => false

def startsBaseOffset : List Token → Bool
  | offset :: left :: base :: right :: _ =>
      isBaseOffset offset.kind left.kind base.kind right.kind
  | _ => false

/-- Whether a token of a kind can be a later part of a base offset. -/
def TokenKind.continuesBaseOffset : TokenKind → Bool
  | leftParenthesis | register _ | rightParenthesis => true
  | _ => false

/-- Puts a token that is no part of a base offset in front of divided tokens. -/
def joinSegments (token : Token) (later : List Token × List Instruction) :
    List Token × List Instruction :=
  match token.kind with
  | .opcode mnemonic => ([], ⟨mnemonic, later.1, token.line⟩ :: later.2)
  | .comma => later
  | _ => (token :: later.1, later.2)

/-! ### The two equations -/

theorem isBaseOffset_iff {offset left base right : TokenKind} :
    isBaseOffset offset left base right ↔
      (∃ value, offset = .immediate value) ∧ left = .leftParenthesis ∧
        (∃ number, base = .register number) ∧ right = .rightParenthesis := by
  constructor
  · intro whole
    unfold isBaseOffset at whole
    split at whole
    · exact ⟨⟨_, rfl⟩, rfl, ⟨_, rfl⟩, rfl⟩
    · cases whole
  · rintro ⟨⟨value, rfl⟩, rfl, ⟨number, rfl⟩, rfl⟩
    rfl

theorem segments_baseOffset {offset left base right : Token}
    (whole : isBaseOffset offset.kind left.kind base.kind right.kind) (rest : List Token) :
    segments (offset :: left :: base :: right :: rest) =
      (offset :: base :: (segments rest).1, (segments rest).2) := by
  obtain ⟨⟨value, isValue⟩, isLeft, ⟨number, isBase⟩, isRight⟩ := isBaseOffset_iff.mp whole
  cases offset
  cases left
  cases base
  cases right
  subst isValue isLeft isBase isRight
  rw [segments]

/-- Every other token is divided off by itself. -/
theorem segments_cons {token : Token} {rest : List Token}
    (other : startsBaseOffset (token :: rest) = false) :
    segments (token :: rest) = joinSegments token (segments rest) := by
  obtain ⟨kind, lexeme, line⟩ := token
  rw [segments]
  · cases kind <;> rfl
  · rintro value offsetLexeme offsetLine leftLexeme leftLine number baseLexeme baseLine
      rightLexeme rightLine later equal rfl
    cases equal
    cases other

@[elab_as_elim]
theorem segments_induction {motive : List Token → Prop} (nil : motive [])
    (baseOffset : ∀ (offset left base right : Token) (rest : List Token),
      isBaseOffset offset.kind left.kind base.kind right.kind → motive rest →
      motive (offset :: left :: base :: right :: rest))
    (other : ∀ (token : Token) (rest : List Token),
      startsBaseOffset (token :: rest) = false → motive rest → motive (token :: rest))
    (tokens : List Token) : motive tokens := by
  match tokens with
  | [] => exact nil
  | token :: rest =>
      cases starts : startsBaseOffset (token :: rest) with
      | false => exact other token rest starts (segments_induction nil baseOffset other rest)
      | true =>
          unfold startsBaseOffset at starts
          split at starts
          · rename_i offset left base right later equal
            have shorter := congrArg List.length equal
            rw [equal]
            exact baseOffset offset left base right later starts
              (segments_induction nil baseOffset other later)
          · cases starts
termination_by tokens.length
decreasing_by
  · simp
  · simp only [List.length_cons] at shorter ⊢
    omega

/-! ### Two lists -/

/-- The look-ahead for a base offset stops at every token that cannot be a later part of one. -/
theorem startsBaseOffset_append_of_head {first second : List Token} (nonempty : first ≠ [])
    (stops : ∀ token ∈ second.head?, token.kind.continuesBaseOffset = false) :
    startsBaseOffset (first ++ second) = startsBaseOffset first := by
  match second with
  | [] => rw [List.append_nil]
  | token :: rest =>
      have stop : token.kind.continuesBaseOffset = false := stops token (by simp)
      have misplaced (offset left base right : TokenKind) :
          isBaseOffset offset token.kind base right = false ∧
            isBaseOffset offset left token.kind right = false ∧
            isBaseOffset offset left base token.kind = false := by
        simp only [Bool.eq_false_iff, ne_eq, isBaseOffset_iff]
        refine ⟨?_, ?_, ?_⟩
        · rintro ⟨_, isLeft, _⟩
          rw [isLeft] at stop
          cases stop
        · rintro ⟨_, _, ⟨number, isBase⟩, _⟩
          rw [isBase] at stop
          cases stop
        · rintro ⟨_, _, _, isRight⟩
          rw [isRight] at stop
          cases stop
      match first, rest with
      | [], _ => exact absurd rfl nonempty
      | [_], [] | [_], [_] | [_, _], [] => rfl
      | [offset], base :: right :: _ =>
          exact (misplaced offset.kind .comma base.kind right.kind).1
      | [offset, left], right :: _ =>
          exact (misplaced offset.kind left.kind .comma right.kind).2.1
      | [offset, left, base], _ =>
          exact (misplaced offset.kind left.kind base.kind .comma).2.2
      | _ :: _ :: _ :: _ :: _, _ => rfl

/-- The look-ahead for a base offset never reaches across an opcode. -/
theorem startsBaseOffset_append {first second : List Token} (nonempty : first ≠ [])
    (opens : second.head?.any Token.isOpcode) :
    startsBaseOffset (first ++ second) = startsBaseOffset first := by
  refine startsBaseOffset_append_of_head nonempty fun token isHead => ?_
  obtain ⟨kind, lexeme, line⟩ := token
  rw [Option.mem_def.mp isHead] at opens
  cases kind with
  | opcode mnemonic => rfl
  | _ => cases opens

/-- An opcode divides off all that follows it up to the next one. -/
theorem segments_opcode (mnemonic : Mnemonic) (lexeme : String) (line : Nat) (rest : List Token) :
    segments (⟨.opcode mnemonic, lexeme, line⟩ :: rest) =
      ([], ⟨mnemonic, (segments rest).1, line⟩ :: (segments rest).2) := by
  have other : startsBaseOffset (⟨.opcode mnemonic, lexeme, line⟩ :: rest) = false := by
    unfold startsBaseOffset
    split
    · rename_i equal
      cases equal
      rfl
    · rfl
  rw [segments_cons other]
  rfl

/-- Each opcode starts an instruction of its own, and nothing else does. -/
theorem segments_opcodes (tokens : List Token) :
    (segments tokens).2.map (fun instruction =>
        (TokenKind.opcode instruction.mnemonic, instruction.line)) =
      (tokens.filter Token.isOpcode).map fun token => (token.kind, token.line) := by
  induction tokens using segments_induction with
  | nil => rfl
  | baseOffset offset left base right rest whole inductionHypothesis =>
      obtain ⟨⟨value, isValue⟩, isLeft, ⟨number, isBase⟩, isRight⟩ := isBaseOffset_iff.mp whole
      rw [segments_baseOffset whole, inductionHypothesis]
      simp [Token.isOpcode, TokenKind.isOpcode, isValue, isLeft, isBase, isRight]
  | other token rest other inductionHypothesis =>
      obtain ⟨kind, lexeme, line⟩ := token
      rw [segments_cons other]
      cases kind with
      | opcode mnemonic =>
          show (TokenKind.opcode mnemonic, line) :: (segments rest).2.map _ = _
          rw [inductionHypothesis]
          rfl
      | _ => exact inductionHypothesis

theorem segments_of_opens {tokens : List Token} (opens : tokens.head?.any Token.isOpcode) :
    (segments tokens).1 = [] := by
  match tokens with
  | [] => cases opens
  | ⟨.opcode mnemonic, lexeme, line⟩ :: rest =>
      rw [segments_opcode]

/-- The division of two lists, if the second opens an instruction. -/
theorem segments_append {second : List Token} (opens : second.head?.any Token.isOpcode)
    (first : List Token) :
    segments (first ++ second) =
      ((segments first).1, (segments first).2 ++ (segments second).2) := by
  induction first using segments_induction with
  | nil =>
      simp only [List.nil_append, segments]
      rw [← segments_of_opens opens]
  | baseOffset offset left base right rest whole inductionHypothesis =>
      simp only [List.cons_append, segments_baseOffset whole, inductionHypothesis]
  | other token rest other inductionHypothesis =>
      -- what is no base offset in the first list does not become one by what follows it
      have appended : startsBaseOffset (token :: (rest ++ second)) = false := by
        rw [← List.cons_append, startsBaseOffset_append (by simp) opens, other]
      rw [List.cons_append, segments_cons appended, segments_cons other, inductionHypothesis]
      unfold joinSegments
      split <;> rfl

/-! ### Tokens in front of the first opcode -/

/-- No token in front of an opcode is stray because of what follows the opcode. -/
theorem strayTokens_append {second : List Token} (opens : second.head?.any Token.isOpcode)
    (first : List Token) : strayTokens (first ++ second) = strayTokens first := by
  refine takeWhile_append_stop (fun token head => ?_) first
  rw [Option.mem_def.mp head] at opens
  simpa using opens

theorem strayTokens_of_opens {tokens : List Token} (opens : tokens.head?.any Token.isOpcode) :
    strayTokens tokens = [] :=
  strayTokens_append opens []

theorem startsBaseOffset_of_ne_immediate {token : Token}
    (other : ∀ value, token.kind ≠ .immediate value) (rest : List Token) :
    startsBaseOffset (token :: rest) = false := by
  match rest with
  | [] | [_] | [_, _] => rfl
  | left :: base :: right :: _ =>
      rw [Bool.eq_false_iff]
      intro whole
      obtain ⟨⟨value, isValue⟩, _⟩ := isBaseOffset_iff.mp whole
      exact other value isValue

/-- Only an opcode has a part in the instructions behind the operands that it ends. -/
theorem segments_instructions_of_not_opcode {token : Token} (noOpcode : token.isOpcode = false)
    (rest : List Token) : (segments (token :: rest)).2 = (segments rest).2 := by
  have alone {token : Token} {rest : List Token} (noOpcode : token.isOpcode = false)
      (other : startsBaseOffset (token :: rest) = false) :
      (segments (token :: rest)).2 = (segments rest).2 := by
    obtain ⟨kind, lexeme, line⟩ := token
    rw [segments_cons other]
    cases kind with
    | opcode mnemonic => cases noOpcode
    | _ => rfl
  cases starts : startsBaseOffset (token :: rest) with
  | false => exact alone noOpcode starts
  | true =>
      -- the four tokens of a base offset are passed over at once, or one after the other
      match rest with
      | [] | [_] | [_, _] => cases starts
      | left :: base :: right :: later =>
          obtain ⟨_, isLeft, ⟨number, isBase⟩, isRight⟩ := isBaseOffset_iff.mp starts
          have passed {token : Token} (noOpcode : token.isOpcode = false)
              (other : ∀ value, token.kind ≠ .immediate value) (rest : List Token) :
              (segments (token :: rest)).2 = (segments rest).2 :=
            alone noOpcode (startsBaseOffset_of_ne_immediate other rest)
          rw [segments_baseOffset starts,
            passed (by rw [Token.isOpcode, isLeft]; rfl) (by simp [isLeft]),
            passed (by rw [Token.isOpcode, isBase]; rfl) (by simp [isBase]),
            passed (by rw [Token.isOpcode, isRight]; rfl) (by simp [isRight])]

/-! ### Commas -/

theorem startsBaseOffset_comma {token comma : Token} (isComma : comma.kind = .comma)
    (rest : List Token) : startsBaseOffset (token :: comma :: rest) = false := by
  obtain ⟨kind, lexeme, line⟩ := comma
  subst isComma
  match rest with
  | [] | [_] => rfl
  | _ :: _ :: _ => simp [startsBaseOffset, isBaseOffset]

theorem segments_comma {comma : Token} (isComma : comma.kind = .comma) (rest : List Token) :
    segments (comma :: rest) = segments rest := by
  obtain ⟨kind, lexeme, line⟩ := comma
  subst isComma
  have other : startsBaseOffset (⟨.comma, lexeme, line⟩ :: rest) = false := by
    match rest with
    | [] | [_] | [_, _] => rfl
    | _ :: _ :: _ :: _ => rfl
  rw [segments_cons other]
  rfl

/-- Operands with a comma between any two of them are the operands alone. -/
theorem segments_intersperse {comma : Token} (isComma : comma.kind = .comma)
    {operands : List Token}
    (plain : ∀ operand ∈ operands, operand.kind ≠ .comma ∧ operand.isOpcode = false) :
    segments (operands.intersperse comma) = (operands, []) := by
  induction operands with
  | nil => rfl
  | cons operand rest inductionHypothesis =>
      obtain ⟨⟨noComma, noOpcode⟩, restPlain⟩ := List.forall_mem_cons.mp plain
      have joined (later : List Token × List Instruction) :
          joinSegments operand later = (operand :: later.1, later.2) := by
        obtain ⟨kind, lexeme, line⟩ := operand
        cases kind with
        | opcode mnemonic => cases noOpcode
        | comma => exact absurd rfl noComma
        | _ => rfl
      have later := inductionHypothesis restPlain
      cases rest with
      | nil =>
          rw [List.intersperse_nil] at later
          rw [List.intersperse_singleton, segments_cons rfl, joined, later]
      | cons next rest =>
          rw [List.intersperse_cons_cons, segments_cons (startsBaseOffset_comma isComma _), joined,
            segments_comma isComma, later]

/-- An opcode and its operands, kept apart by commas, are one instruction. -/
theorem segments_separated {comma : Token} (isComma : comma.kind = .comma) {operands : List Token}
    (plain : ∀ operand ∈ operands, operand.kind ≠ .comma ∧ operand.isOpcode = false)
    {mnemonic : Mnemonic} {lexeme : String} {line : Nat} :
    segments (⟨.opcode mnemonic, lexeme, line⟩ :: operands.intersperse comma) =
      ([], [⟨mnemonic, operands, line⟩]) := by
  rw [segments_opcode, segments_intersperse isComma plain]

/-! ### Spelled otherwise, and elsewhere -/

section Relabel

variable (spell : String → String) (move : Nat → Nat)

theorem startsBaseOffset_relabel (tokens : List Token) :
    startsBaseOffset (tokens.map (Token.relabel spell move)) = startsBaseOffset tokens := by
  match tokens with
  | [] | [_] | [_, _] | [_, _, _] => rfl
  | _ :: _ :: _ :: _ :: _ => rfl

/-- Only the kinds of tokens decide how they are divided. -/
theorem segments_relabel (tokens : List Token) :
    segments (tokens.map (Token.relabel spell move)) =
      ((segments tokens).1.map (Token.relabel spell move),
        (segments tokens).2.map (Instruction.relabel spell move)) := by
  induction tokens using segments_induction with
  | nil => simp [segments]
  | baseOffset offset left base right rest whole inductionHypothesis =>
      simp only [List.map_cons, segments_baseOffset whole]
      rw [segments_baseOffset (by exact whole), inductionHypothesis]
  | other token rest other inductionHypothesis =>
      have relabelled := startsBaseOffset_relabel spell move (token :: rest)
      rw [other] at relabelled
      rw [List.map_cons, segments_cons relabelled, segments_cons other, inductionHypothesis]
      unfold joinSegments
      simp only [Token.relabel]
      split <;> rfl

end Relabel

theorem segments_shifted (tokens : List Token) (count : Nat) :
    segments (tokens.map (·.shifted count)) =
      ((segments tokens).1.map (·.shifted count), (segments tokens).2.map (·.shifted count)) :=
  segments_relabel id (· + count) tokens

/-! ### Where the parts come from -/

/-- Every operand is one of the tokens, and every instruction stands where its opcode stands. -/
theorem of_mem_segments (tokens : List Token) :
    (∀ operand ∈ (segments tokens).1, operand ∈ tokens) ∧
      ∀ instruction ∈ (segments tokens).2,
        (∃ token ∈ tokens,
          token.kind = .opcode instruction.mnemonic ∧ token.line = instruction.line) ∧
          ∀ operand ∈ instruction.operands, operand ∈ tokens := by
  induction tokens using segments_induction with
  | nil => simp [segments]
  | baseOffset offset left base right rest whole inductionHypothesis =>
      have later : ∀ {token : Token}, token ∈ rest →
          token ∈ offset :: left :: base :: right :: rest := by
        intro token member
        simp [member]
      rw [segments_baseOffset whole]
      refine ⟨?_, fun instruction member => ?_⟩
      · simp only [List.forall_mem_cons]
        exact ⟨by simp, by simp, fun operand member => later (inductionHypothesis.1 operand member)⟩
      · obtain ⟨⟨token, isToken, here⟩, operands⟩ := inductionHypothesis.2 instruction member
        exact ⟨⟨token, later isToken, here⟩, fun operand member => later (operands operand member)⟩
  | other token rest other inductionHypothesis =>
      have kept : ∀ operand ∈ (segments rest).1, operand ∈ token :: rest :=
        fun operand member => List.mem_cons_of_mem token (inductionHypothesis.1 operand member)
      have later : ∀ instruction ∈ (segments rest).2,
          (∃ found ∈ token :: rest,
            found.kind = .opcode instruction.mnemonic ∧ found.line = instruction.line) ∧
            ∀ operand ∈ instruction.operands, operand ∈ token :: rest := by
        intro instruction member
        obtain ⟨⟨found, isToken, here⟩, operands⟩ := inductionHypothesis.2 instruction member
        exact ⟨⟨found, List.mem_cons_of_mem token isToken, here⟩,
          fun operand member => List.mem_cons_of_mem token (operands operand member)⟩
      rw [segments_cons other]
      unfold joinSegments
      split
      · rename_i mnemonic isOpcode
        refine ⟨by simp, List.forall_mem_cons.mpr ⟨⟨⟨token, by simp, isOpcode, rfl⟩, kept⟩, later⟩⟩
      · exact ⟨kept, later⟩
      · exact ⟨List.forall_mem_cons.mpr ⟨by simp, kept⟩, later⟩

/-- No operand is a comma or an opcode. -/
theorem plain_of_mem_segments (tokens : List Token) :
    (∀ operand ∈ (segments tokens).1, operand.kind ≠ .comma ∧ operand.isOpcode = false) ∧
      ∀ instruction ∈ (segments tokens).2, ∀ operand ∈ instruction.operands,
        operand.kind ≠ .comma ∧ operand.isOpcode = false := by
  induction tokens using segments_induction with
  | nil => simp [segments]
  | baseOffset offset left base right rest whole inductionHypothesis =>
      obtain ⟨⟨value, isValue⟩, _, ⟨number, isBase⟩, _⟩ := isBaseOffset_iff.mp whole
      rw [segments_baseOffset whole]
      refine ⟨?_, inductionHypothesis.2⟩
      simp only [List.forall_mem_cons]
      refine ⟨?_, ?_, inductionHypothesis.1⟩
      · simp [Token.isOpcode, TokenKind.isOpcode, isValue]
      · simp [Token.isOpcode, TokenKind.isOpcode, isBase]
  | other token rest other inductionHypothesis =>
      obtain ⟨kind, lexeme, line⟩ := token
      rw [segments_cons other]
      cases kind with
      | opcode mnemonic =>
          refine ⟨by simp [joinSegments], ?_⟩
          exact List.forall_mem_cons.mpr ⟨inductionHypothesis.1, inductionHypothesis.2⟩
      | comma => exact inductionHypothesis
      | _ =>
          refine ⟨List.forall_mem_cons.mpr ⟨⟨?_, rfl⟩, inductionHypothesis.1⟩,
            inductionHypothesis.2⟩
          intro isComma
          cases isComma

end RiscAssembler
