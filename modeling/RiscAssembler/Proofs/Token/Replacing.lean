import RiscAssembler.Proofs.Token.Coverage
import RiscAssembler.Proofs.Token.Layout
import RiscAssembler.Proofs.Token.Word

/-!
Contract: a program text up to a finding does not depend on the text from there on.

Owns:
- the texts that can follow a number or a word in place of another;
- one step that leaves such a text unread;
- the places of a text where its scan looks for a finding, and what it has found before;
- the tokens of a text, each with the text in front of it and the text behind it.

Does not own: what is found at a place where one text has taken the place of another.

Main statements: `Cursor.ComesTo.replace`, by induction on the findings, and `mem_tokenize_iff`.
-/

namespace RiscAssembler

/-! ### Texts in place of another -/

/-- Numbers and words that end in front of the one text end in front of the other. No number or word
ends in front of a digit, so that any text can take the place of one that starts with a digit. -/
def EndsAlike (left right : List Char) : Prop :=
  left.head? = right.head? ∨ ∃ character ∈ left.head?, character.isDigit

namespace EndsAlike

variable {left right : List Char} (alike : EndsAlike left right)
include alike

theorem append (front : List Char) : EndsAlike (front ++ left) (front ++ right) := by
  cases front with
  | nil => exact alike
  | cons character rest => exact .inl rfl

/-- Where a class with all digits in it stops, the first characters are the same. -/
theorem head?_eq {property : Char → Bool}
    (digits : ∀ character, character.isDigit → property character)
    (stops : ∀ character ∈ left.head?, property character = false) : left.head? = right.head? := by
  rcases alike with same | ⟨character, first, isDigit⟩
  · exact same
  · have other := stops character first
    rw [digits character isDigit] at other
    cases other

end EndsAlike

namespace Numeral

/-- The mark of a hexadecimal number reaches one character into the text behind a digit. -/
theorem Magnitude.HexMarked.of_head?_eq {whole left right : List Char} (someDigit : whole ≠ [])
    (same : left.head? = right.head?) (marked : HexMarked (whole ++ right)) :
    HexMarked (whole ++ left) := by
  obtain ⟨rest, marked⟩ := marked
  match whole with
  | [] => exact absurd rfl someDigit
  | [zero] =>
      match left, right with
      | [], [] => exact ⟨rest, marked⟩
      | first :: more, other :: _ =>
          obtain rfl := Option.some.inj same
          simp only [List.cons_append, List.nil_append, List.cons.injEq] at marked ⊢
          rcases marked with ⟨rfl, rfl, _⟩ | ⟨rfl, rfl, _⟩
          · exact ⟨more, .inl rfl⟩
          · exact ⟨more, .inr rfl⟩
  | zero :: mark :: digits =>
      simp only [List.cons_append, List.cons.injEq] at marked ⊢
      rcases marked with ⟨rfl, rfl, _⟩ | ⟨rfl, rfl, _⟩
      · exact ⟨digits ++ left, .inl rfl⟩
      · exact ⟨digits ++ left, .inr rfl⟩

theorem Magnitude.EndsBefore.of_alike {magnitude : Magnitude} {left right : List Char}
    (ends : magnitude.EndsBefore left) (alike : EndsAlike left right) :
    magnitude.EndsBefore right := by
  match magnitude with
  | hexadecimal _ _ =>
      have same := alike.head?_eq isHexDigit_of_isDigit ends
      rw [EndsBefore, ← same]
      exact ends
  | decimal whole (some _) =>
      have same := alike.head?_eq (fun _ => id) ends
      rw [EndsBefore, ← same]
      exact ends
  | decimal whole none =>
      obtain ⟨stops, unmarked⟩ := ends
      have same := alike.head?_eq (fun _ => id) fun character first => (stops character first).1
      refine ⟨same ▸ stops, fun marked => ?_⟩
      by_cases someDigit : whole = []
      · -- the mark would start with a digit, which goes on with the number
        subst someDigit
        obtain ⟨rest, rfl | rfl⟩ := marked
        · exact absurd (stops '0' same).1 (by decide)
        · exact absurd (stops '0' same).1 (by decide)
      · exact unmarked (marked.of_head?_eq someDigit same)

theorem read_replace {numeral : Numeral} {text before left right : List Char}
    (alike : EndsAlike left right) (nonempty : text ≠ [])
    (found : read (text ++ left) = (numeral, before ++ left)) :
    read (text ++ right) = (numeral, before ++ right) := by
  obtain ⟨split, signed, well, ends⟩ := read_eq_iff.mp found
  rw [← List.append_assoc] at split
  obtain rfl := List.append_cancel_right split
  rw [List.head?_append_of_ne_nil _ nonempty] at signed
  apply IsLongest.read_eq
  refine ⟨(List.append_assoc ..).symm, ?_, well, ends.of_alike (alike.append before)⟩
  rw [List.head?_append_of_ne_nil _ nonempty]
  exact signed

end Numeral

theorem Identifier.read_replace {word text before left right : List Char}
    (alike : EndsAlike left right) (found : read (text ++ left) = (word, before ++ left)) :
    read (text ++ right) = (word, before ++ right) := by
  obtain ⟨split, inside, ends⟩ := read_eq_iff.mp found
  have same := (alike.append before).head?_eq isAlphanum_of_isDigit ends
  rw [← List.append_assoc] at split
  obtain rfl := List.append_cancel_right split
  exact read_eq_iff.mpr ⟨(List.append_assoc ..).symm, inside, same ▸ ends⟩

/-! ### One step -/

/-- The same step when it leaves another text. -/
def Step.leaving (step : Step) (rest : List Char) : Step :=
  step.map id id fun after => ⟨rest, after.line⟩

namespace Cursor

theorem classify_leaving (kind : Option TokenKind) (lexeme : List Char)
    (cause : String → LexicalFault.Cause) (line : Nat) (after rest : List Char) :
    classify kind lexeme cause line rest =
      (classify kind lexeme cause line after).leaving rest := by
  cases kind <;> rfl

theorem rest_after_classify (kind : Option TokenKind) (lexeme : List Char)
    (cause : String → LexicalFault.Cause) (line : Nat) (after : List Char) :
    (classify kind lexeme cause line after).after.rest = after := by
  cases kind <;> rfl

theorem tokenHere_replace {left right before : List Char} (alike : EndsAlike left right)
    {text : List Char} (nonempty : text ≠ []) (line : Nat)
    (leaves : (tokenHere (text ++ left) line).after.rest = before ++ left) :
    tokenHere (text ++ right) line =
      (tokenHere (text ++ left) line).leaving (before ++ right) := by
  obtain ⟨character, rest, rfl⟩ := List.exists_cons_of_ne_nil nonempty
  cases known : punctuation? character with
  | some kind =>
      simp only [List.cons_append, tokenHere, known] at leaves ⊢
      obtain rfl := List.append_cancel_right leaves
      rfl
  | none =>
      simp only [List.cons_append, tokenHere, known] at leaves ⊢
      split_ifs at leaves ⊢ with starts letter
      · rw [rest_after_classify] at leaves
        have found : Numeral.read (character :: rest ++ left) =
            ((Numeral.read (character :: rest ++ left)).1, before ++ left) := Prod.ext rfl leaves
        rw [← List.cons_append, Numeral.read_replace alike nonempty found]
        exact classify_leaving ..
      · rw [rest_after_classify] at leaves
        have found : Identifier.read (character :: rest ++ left) =
            ((Identifier.read (character :: rest ++ left)).1, before ++ left) :=
          Prod.ext rfl leaves
        rw [← List.cons_append, Identifier.read_replace alike found]
        exact classify_leaving ..
      · have whole : character :: rest ++ left = before ++ left := leaves
        obtain rfl := List.append_cancel_right whole
        rfl

theorem skipTrivia_ne_nil_of_length_lt {after : List Char} {cursor : Cursor}
    (longer : after.length < (cursor.append after).skipTrivia.rest.length) :
    cursor.skipTrivia.rest ≠ [] := by
  intro empty
  have shorter := length_skipFrom_le (commentAfter false cursor.rest) after cursor.lastLine
  rw [← skipTrivia_append_of_nil after empty] at shorter
  omega

/-- A step that leaves a text unread does not see which text it is. -/
theorem next_replace {left right : List Char} (alike : EndsAlike left right) {cursor : Cursor}
    (longer : left.length < (cursor.append left).skipTrivia.rest.length)
    (ahead : left <:+ (cursor.append left).next.after.rest) :
    ∃ before, (cursor.append left).next.after.rest = before ++ left ∧
      (cursor.append right).next = (cursor.append left).next.leaving (before ++ right) := by
  have more := skipTrivia_ne_nil_of_length_lt longer
  obtain ⟨before, leaves⟩ := ahead
  refine ⟨before, leaves.symm, ?_⟩
  simp only [next, skipTrivia_append_of_rest _ more] at leaves ⊢
  exact tokenHere_replace alike more _ leaves.symm

/-! ### Scans up to a place -/

/-- A scan comes to a place, where it looks for the next finding, behind some other findings. -/
inductive ComesTo (place : Cursor) : Cursor → List ScanItem → Prop
  | here {cursor : Cursor} (skipped : cursor.skipTrivia = place) : ComesTo place cursor []
  | token {cursor after : Cursor} {found : Token} {items : List ScanItem}
      (step : cursor.next = .token found after) (later : ComesTo place after items) :
      ComesTo place cursor (.token found :: items)
  | fault {cursor after : Cursor} {found : LexicalFault} {items : List ScanItem}
      (step : cursor.next = .fault found after) (later : ComesTo place after.nextLine items) :
      ComesTo place cursor (.fault found :: items)

/-- A comment hides at least the first character of a text. -/
theorem length_skipFrom_true_lt {text : List Char} (nonempty : text ≠ []) (line : Nat) :
    (skipFrom true text line).rest.length < text.length := by
  obtain ⟨character, rest, rfl⟩ := List.exists_cons_of_ne_nil nonempty
  simp only [skipFrom, if_true, List.length_cons, Nat.lt_succ_iff]
  split_ifs
  · exact length_skipFrom_le false rest (line + 1)
  · exact length_skipFrom_le true rest line

theorem skipTrivia_suffix (cursor : Cursor) : cursor.skipTrivia.rest <:+ cursor.rest := by
  obtain ⟨skipped, whole, _⟩ := cursor.exists_skipped
  exact ⟨skipped, whole⟩

theorem nextLine_suffix (cursor : Cursor) : cursor.nextLine.rest <:+ cursor.rest := by
  obtain ⟨dropped, ending, drops⟩ := cursor.exists_drops
  refine ⟨dropped ++ ending, ?_⟩
  rw [List.append_assoc, drops.split]

/-- Recovery that leaves a text unread goes on behind a line break in front of it. -/
theorem mem_of_suffix_nextLine {before text : List Char} {line : Nat} (nonempty : text ≠ [])
    (ahead : text <:+ ((Cursor.mk before line).append text).nextLine.rest) : '\n' ∈ before := by
  by_contra unbroken
  have dropped : ((Cursor.mk before line).append text).nextLine = nextLineFrom text line :=
    nextLineFrom_append_of_unbroken text unbroken line
  obtain ⟨character, rest, rfl⟩ := List.exists_cons_of_ne_nil nonempty
  have shorter := length_nextLineFrom_cons_lt character rest line
  rw [dropped] at ahead
  exact absurd shorter (Nat.not_lt.mpr ahead.length_le)

theorem after_next_suffix (cursor : Cursor) : cursor.next.after.rest <:+ cursor.rest := by
  obtain ⟨taken, split, _⟩ := cursor.exists_taken
  exact ⟨taken, split⟩

namespace ComesTo

theorem scan_eq {place cursor : Cursor} {items : List ScanItem}
    (comes : ComesTo place cursor items) : cursor.scan = items ++ place.scan := by
  induction comes with
  | here skipped =>
      rw [← skipped, scan_skipTrivia]
      rfl
  | token step later inductionHypothesis =>
      rw [Cursor.scan_eq, step]
      exact congrArg (_ :: ·) inductionHypothesis
  | fault step later inductionHypothesis =>
      rw [Cursor.scan_eq, step]
      exact congrArg (_ :: ·) inductionHypothesis

/-- The place is where the next finding starts. -/
theorem skipTrivia_eq {place cursor : Cursor} {items : List ScanItem}
    (comes : ComesTo place cursor items) : place.skipTrivia = place := by
  induction comes with
  | here skipped =>
      rw [← skipped]
      exact skipTrivia_skipFrom false _ _
  | token step later inductionHypothesis => exact inductionHypothesis
  | fault step later inductionHypothesis => exact inductionHypothesis

theorem suffix {place cursor : Cursor} {items : List ScanItem}
    (comes : ComesTo place cursor items) : place.rest <:+ cursor.rest := by
  induction comes with
  | here skipped =>
      rw [← skipped]
      exact skipTrivia_suffix _
  | @token cursor after found items step later inductionHypothesis =>
      have left := cursor.after_next_suffix
      rw [step] at left
      exact inductionHypothesis.trans left
  | @fault cursor after found items step later inductionHypothesis =>
      have left := cursor.after_next_suffix
      rw [step] at left
      exact (inductionHypothesis.trans after.nextLine_suffix).trans left

section Replace

variable {left right : List Char} (nonempty : left ≠ [])
  (leftStarts : ∀ line, skipFrom false left line = ⟨left, line⟩)
  (rightStarts : ∀ line, skipFrom false right line = ⟨right, line⟩)
include nonempty leftStarts rightStarts

theorem skipTrivia_replace {cursor : Cursor} {line : Nat}
    (skipped : (cursor.append left).skipTrivia = ⟨left, line⟩) :
    (cursor.append right).skipTrivia = ⟨right, line⟩ := by
  by_cases empty : cursor.skipTrivia.rest = []
  · rw [skipTrivia_append_of_nil _ empty] at skipped ⊢
    cases commented : commentAfter false cursor.rest with
    | false =>
        rw [commented, leftStarts] at skipped
        obtain ⟨_, rfl⟩ := Cursor.mk.inj skipped
        exact rightStarts _
    | true =>
        -- an open comment would hide the start of the text
        have shorter := length_skipFrom_true_lt nonempty cursor.lastLine
        rw [commented] at skipped
        rw [skipped] at shorter
        exact absurd shorter (Nat.lt_irrefl _)
  · rw [skipTrivia_append_of_rest _ empty] at skipped
    obtain ⟨whole, _⟩ := Cursor.mk.inj skipped
    exact absurd (List.append_left_eq_self.mp whole) empty

variable (alike : EndsAlike left right)
include alike

/-- What a scan has found when it comes to a place does not depend on the text from there on. -/
theorem replace {cursor : Cursor} {line : Nat} {items : List ScanItem}
    (comes : ComesTo ⟨left, line⟩ (cursor.append left) items) :
    ComesTo ⟨right, line⟩ (cursor.append right) items := by
  generalize whole : cursor.append left = start at comes
  induction comes generalizing cursor with
  | here skipped =>
      subst whole
      exact .here (skipTrivia_replace nonempty leftStarts rightStarts skipped)
  | @token _ after found items step later inductionHypothesis =>
      subst whole
      have ahead : left <:+ after.rest := later.suffix
      have shrinks := length_lt_of_next_eq_token ((next_skipTrivia _).trans step)
      have longer := Nat.lt_of_le_of_lt ahead.length_le shrinks
      obtain ⟨before, leaves, replaced⟩ := next_replace alike longer (step ▸ ahead)
      rw [step] at leaves replaced
      have place : (Cursor.mk before after.line).append left = after :=
        congrArg (Cursor.mk · after.line) leaves.symm
      exact .token replaced (inductionHypothesis place)
  | @fault _ after found items step later inductionHypothesis =>
      subst whole
      have behind : left <:+ after.nextLine.rest := later.suffix
      have shrinks := length_lt_of_next_eq_fault ((next_skipTrivia _).trans step)
      have longer := Nat.lt_of_le_of_lt behind.length_le shrinks
      obtain ⟨before, leaves, replaced⟩ :=
        next_replace alike longer (step ▸ behind.trans after.nextLine_suffix)
      rw [step] at leaves replaced
      have place : (Cursor.mk before after.line).append left = after :=
        congrArg (Cursor.mk · after.line) leaves.symm
      rw [← place] at behind
      have breaks : '\n' ∈ before := mem_of_suffix_nextLine nonempty behind
      have split (text : List Char) : ((Cursor.mk before after.line).append text).nextLine =
          (Cursor.mk before after.line).nextLine.append text :=
        nextLineFrom_append_of_mem text breaks after.line
      have resumed : (Cursor.mk before after.line).nextLine.append left = after.nextLine := by
        rw [← split, place]
      have continued := inductionHypothesis resumed
      rw [← split] at continued
      exact .fault replaced continued

end Replace

end ComesTo

/-- A token that a scan finds is found at a place that the scan comes to. -/
theorem exists_comesTo_of_mem_scan {cursor : Cursor} {token : Token}
    (member : .token token ∈ cursor.scan) :
    ∃ after items, ComesTo ⟨token.lexeme.toList ++ after, token.line⟩ cursor items ∧
      tokenHere (token.lexeme.toList ++ after) token.line = .token token ⟨after, token.line⟩ := by
  induction cursor using scan_induction with
  | token cursor found after step inductionHypothesis =>
      rw [scan_eq, step] at member
      rcases List.mem_cons.mp member with same | later
      · obtain rfl := ScanItem.token.inj same
        have reads := next_reads cursor
        rw [step] at reads
        obtain ⟨ownLine, sameLine, whole, _⟩ := reads
        have place : cursor.skipTrivia = ⟨token.lexeme.toList ++ after.rest, token.line⟩ :=
          congr_arg₂ Cursor.mk whole.symm ownLine.symm
        rw [next, place] at step
        refine ⟨after.rest, [], .here place, step.trans ?_⟩
        rw [ownLine, ← sameLine]
      · obtain ⟨rest, items, comes, here⟩ := inductionHypothesis later
        exact ⟨rest, _, .token step comes, here⟩
  | fault cursor fault after step inductionHypothesis =>
      rw [scan_eq, step] at member
      rcases List.mem_cons.mp member with same | later
      · cases same
      · obtain ⟨rest, items, comes, here⟩ := inductionHypothesis later
        exact ⟨rest, _, .fault step comes, here⟩
  | finished cursor after step =>
      rw [scan_eq, step] at member
      cases member

end Cursor

/-- A token of a text, with the text in front of it and the text behind it. -/
structure Token.StandsBetween (before after : List Char) (token : Token) : Prop where
  comes : ∃ items, Cursor.ComesTo ⟨token.lexeme.toList ++ after, token.line⟩
    ⟨before ++ (token.lexeme.toList ++ after), 1⟩ items
  here : Cursor.tokenHere (token.lexeme.toList ++ after) token.line =
    .token token ⟨after, token.line⟩

theorem Token.StandsBetween.scan_eq {before after : List Char} {token : Token}
    (stands : token.StandsBetween before after) :
    Cursor.scan ⟨token.lexeme.toList ++ after, token.line⟩ =
      .token token :: Cursor.scan ⟨after, token.line⟩ := by
  obtain ⟨items, comes⟩ := stands.comes
  rw [Cursor.scan_eq, Cursor.next, comes.skipTrivia_eq, stands.here]

/-- The tokens of a text are exactly those that stand somewhere in it. -/
theorem mem_tokenize_iff {source : String} {token : Token} :
    token ∈ (tokenize source).value ↔
      ∃ before after, before ++ (token.lexeme.toList ++ after) = source.toList ∧
        token.StandsBetween before after := by
  constructor
  · intro member
    obtain ⟨item, found, isToken⟩ := List.mem_filterMap.mp member
    cases item with
    | fault other => cases isToken
    | token other =>
        obtain rfl := Option.some.inj isToken
        obtain ⟨after, items, comes, here⟩ := Cursor.exists_comesTo_of_mem_scan found
        obtain ⟨before, split⟩ := comes.suffix
        refine ⟨before, after, split, ⟨items, ?_⟩, here⟩
        rw [split]
        exact comes
  · rintro ⟨before, after, split, stands⟩
    obtain ⟨items, comes⟩ := stands.comes
    rw [split] at comes
    apply List.mem_filterMap.mpr
    refine ⟨.token token, ?_, rfl⟩
    rw [Cursor.start, comes.scan_eq, stands.scan_eq]
    exact List.mem_append_right _ List.mem_cons_self

end RiscAssembler
