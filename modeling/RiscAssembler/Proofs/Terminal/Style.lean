import RiscAssembler.Terminal.Style

/-!
Contract: painted text is the bare text with control sequences put in.

Owns:
- control sequences put into a text, as a relation;
- the control sequences that can be told in a text, and the text without them;
- the places at which a text can be cut without cutting a control sequence.

Does not own: control sequences that do something else than set a style.

A text may hold control sequences of its own, also broken ones. A sequence that is put in starts
with an escape character, which continues no sequence, so it is never taken for the end of a broken
one.

Main statements: `painted_paint` and `plain_paint`.
-/

namespace RiscAssembler.Terminal

/-- A text with control sequences of the styles in use put in anywhere. -/
inductive Painted : List Char → List Char → Prop where
  | nil : Painted [] []
  | cons (character : Char) {text painted : List Char} (rest : Painted text painted) :
      Painted (character :: text) (character :: painted)
  | start (style : Style) {text painted : List Char} (rest : Painted text painted) :
      Painted text (style.start ++ painted)
  | reset {text painted : List Char} (rest : Painted text painted) :
      Painted text (Terminal.reset ++ painted)

namespace Painted

theorem refl (text : List Char) : Painted text text := by
  induction text with
  | nil => exact .nil
  | cons character rest inductionHypothesis => exact .cons character inductionHypothesis

theorem append {text painted more paintedMore : List Char} (first : Painted text painted)
    (second : Painted more paintedMore) : Painted (text ++ more) (painted ++ paintedMore) := by
  induction first with
  | nil => exact second
  | cons character _ inductionHypothesis => exact .cons character inductionHypothesis
  | start style _ inductionHypothesis =>
      rw [List.append_assoc]
      exact .start style inductionHypothesis
  | reset _ inductionHypothesis => exact .reset inductionHypothesis

end Painted

def isParameter (character : Char) : Bool :=
  character.isDigit || character = ';'

/-- What stands behind the parameters and the letter with which a control sequence ends. -/
def behindParameters? (text : List Char) : Option (List Char) :=
  match text.dropWhile isParameter with
  | 'm' :: rest => some rest
  | _ => none

/-- What stands behind the control sequence at the front of a text, if there is one. -/
def behindSequence? : List Char → Option (List Char)
  | '\x1b' :: '[' :: rest => behindParameters? rest
  | _ => none

/-! ### Sequences in a text -/

theorem dropWhile_isParameter_of_behindParameters? {text later : List Char}
    (found : behindParameters? text = some later) :
    text.dropWhile isParameter = 'm' :: later := by
  unfold behindParameters? at found
  split at found
  · rename_i rest ends
    rw [ends, Option.some.inj found]
  · cases found

theorem length_behindSequence?_lt {text later : List Char}
    (found : behindSequence? text = some later) : later.length < text.length := by
  unfold behindSequence? at found
  split at found
  · rename_i rest
    have ends := dropWhile_isParameter_of_behindParameters? found
    have dropped : (rest.dropWhile isParameter).length ≤ rest.length :=
      (List.dropWhile_sublist isParameter).length_le
    rw [ends] at dropped
    simp only [List.length_cons] at dropped ⊢
    omega
  · cases found

theorem behindSequence?_eq_none {character : Char} {rest : List Char}
    (closed : ¬ (character = '\x1b' ∧ rest.head? = some '[')) :
    behindSequence? (character :: rest) = none := by
  unfold behindSequence?
  split
  · rename_i more whole
    rw [(List.cons.inj whole).1, (List.cons.inj whole).2] at closed
    exact absurd ⟨rfl, rfl⟩ closed
  · rfl

/-- A text without its control sequences. -/
def plain (text : List Char) : List Char :=
  match text with
  | [] => []
  | character :: rest =>
      match _found : behindSequence? (character :: rest) with
      | some later => plain later
      | none => character :: plain rest
termination_by text.length
decreasing_by
  · exact length_behindSequence?_lt _found
  · exact Nat.lt_succ_self _

theorem plain_nil : plain [] = [] := by
  rw [plain]

theorem plain_of_sequence {text later : List Char} (found : behindSequence? text = some later) :
    plain text = plain later := by
  cases text with
  | nil => cases found
  | cons character rest =>
      rw [plain]
      split
      · rename_i other again
        rw [found] at again
        rw [Option.some.inj again]
      · rename_i missing
        rw [found] at missing
        cases missing

theorem plain_cons {character : Char} {rest : List Char}
    (missing : behindSequence? (character :: rest) = none) :
    plain (character :: rest) = character :: plain rest := by
  rw [plain]
  split
  · rename_i found
    rw [missing] at found
    cases found
  · rfl

@[simp]
theorem plain_start_append (style : Style) (text : List Char) :
    plain (style.start ++ text) = plain text := by
  apply plain_of_sequence
  cases style with
  | bold | red | boldRed => rfl

@[simp]
theorem plain_reset_append (text : List Char) : plain (reset ++ text) = plain text :=
  plain_of_sequence rfl

/-! ### Cuts -/

/-- A character that continues no control sequence. -/
def interrupts (character : Char) : Bool :=
  !(character = '[' || character = 'm' || isParameter character)

section Cut

variable {rest : List Char}

theorem behindParameters?_append (text : List Char) (cut : rest.head?.all interrupts) :
    behindParameters? (text ++ rest) = (behindParameters? text).map (· ++ rest) := by
  rw [behindParameters?, behindParameters?, List.dropWhile_append]
  cases ends : text.dropWhile isParameter with
  | nil =>
      cases rest with
      | nil => rfl
      | cons character rest =>
          simp only [List.head?_cons, Option.all_some, interrupts, Bool.not_eq_true',
            Bool.or_eq_false_iff, decide_eq_false_iff_not] at cut
          rw [List.isEmpty_nil, if_pos rfl, List.dropWhile_cons_of_neg (by simp [cut.2])]
          split
          · rename_i same
            exact absurd (List.cons.inj same).1 cut.1.2
          · rfl
  | cons character later =>
      rw [List.isEmpty_cons, if_neg (by decide)]
      by_cases letter : character = 'm'
      · rw [letter]
        rfl
      · simp [letter]

theorem behindSequence?_append (character : Char) (text : List Char)
    (cut : rest.head?.all interrupts) :
    behindSequence? (character :: text ++ rest) =
      (behindSequence? (character :: text)).map (· ++ rest) := by
  by_cases escape : character = '\x1b'
  · rw [escape]
    cases text with
    | nil =>
        cases rest with
        | nil => rfl
        | cons first rest =>
            have interrupted : first ≠ '[' := by
              intro same
              rw [same] at cut
              exact Bool.false_ne_true cut
            simp [behindSequence?, interrupted]
    | cons second text =>
        by_cases bracket : second = '['
        · rw [bracket]
          exact behindParameters?_append text cut
        · simp [behindSequence?, bracket]
  · simp [behindSequence?, escape]

/-- A text that is cut in front of a character that continues no control sequence loses the same
sequences as its two parts. -/
theorem plain_append (text : List Char) (cut : rest.head?.all interrupts) :
    plain (text ++ rest) = plain text ++ plain rest := by
  induction text using plain.induct with
  | case1 => rw [List.nil_append, plain_nil, List.nil_append]
  | case2 character text later found inductionHypothesis =>
      have longer : behindSequence? (character :: text ++ rest) = some (later ++ rest) := by
        rw [behindSequence?_append character text cut, found]
        rfl
      rw [plain_of_sequence longer, plain_of_sequence found, inductionHypothesis]
  | case3 character text missing inductionHypothesis =>
      have longer : behindSequence? (character :: (text ++ rest)) = none := by
        rw [← List.cons_append, behindSequence?_append character text cut, missing]
        rfl
      rw [List.cons_append, plain_cons longer, plain_cons missing, inductionHypothesis,
        List.cons_append]

/-- A text without escape characters stays as it is, whatever stands behind it. -/
theorem plain_append_of_bare {text : List Char}
    (bare : ∀ character ∈ text, character ≠ '\x1b') :
    plain (text ++ rest) = text ++ plain rest := by
  induction text with
  | nil => rfl
  | cons character text inductionHypothesis =>
      rw [List.forall_mem_cons] at bare
      have missing : behindSequence? (character :: (text ++ rest)) = none :=
        behindSequence?_eq_none fun opens => bare.1 opens.1
      rw [List.cons_append, plain_cons missing, inductionHypothesis bare.2, List.cons_append]

end Cut

/-! ### Paint -/

namespace Style

variable (style : Style)

/-- A text goes on as it stands, unless it starts with a reset. -/
theorem resumed_cases (character : Char) (rest : List Char) :
    style.resumed (character :: rest) = character :: style.resumed rest ∨
      ∃ later, character :: rest = reset ++ later := by
  by_cases isReset : ∃ later, character :: rest = reset ++ later
  · exact .inr isReset
  · left
    rw [resumed]
    intro later same isRest
    exact isReset ⟨later, by rw [same, isRest]; rfl⟩

theorem resumed_cons {character : Char} (noEscape : character ≠ '\x1b') (rest : List Char) :
    style.resumed (character :: rest) = character :: style.resumed rest := by
  rcases resumed_cases style character rest with whole | ⟨later, isReset⟩
  · exact whole
  · exact absurd (List.cons.inj isReset).1 noEscape

theorem head?_resumed (text : List Char) : (style.resumed text).head? = text.head? := by
  unfold resumed
  split
  · rfl
  · rfl
  · rfl

theorem exists_resumed_cons (character : Char) (rest : List Char) :
    ∃ more, style.resumed (character :: rest) = character :: more :=
  List.head?_eq_some_iff.mp (head?_resumed style (character :: rest))

theorem dropWhile_resumed (text : List Char) :
    (style.resumed text).dropWhile isParameter = style.resumed (text.dropWhile isParameter) := by
  induction text with
  | nil => rfl
  | cons character rest inductionHypothesis =>
      by_cases parameter : isParameter character
      · have noEscape : character ≠ '\x1b' := by
          intro same
          rw [same] at parameter
          exact Bool.false_ne_true parameter
        rw [resumed_cons style noEscape, List.dropWhile_cons_of_pos parameter,
          List.dropWhile_cons_of_pos parameter, inductionHypothesis]
      · obtain ⟨more, starts⟩ := exists_resumed_cons style character rest
        rw [List.dropWhile_cons_of_neg parameter, starts, List.dropWhile_cons_of_neg parameter]

theorem behindParameters?_resumed (text : List Char) :
    behindParameters? (style.resumed text) = (behindParameters? text).map style.resumed := by
  rw [behindParameters?, behindParameters?, dropWhile_resumed]
  cases text.dropWhile isParameter with
  | nil => rfl
  | cons first later =>
      by_cases letter : first = 'm'
      · rw [letter, resumed_cons style (by decide)]
        rfl
      · obtain ⟨more, starts⟩ := exists_resumed_cons style first later
        rw [starts]
        simp [letter]

/-- A style that is switched on again breaks no sequence of the text. -/
theorem behindSequence?_resumed (character : Char) (rest : List Char) :
    behindSequence? (character :: style.resumed rest) =
      (behindSequence? (character :: rest)).map style.resumed := by
  by_cases opens : character = '\x1b' ∧ rest.head? = some '['
  · obtain ⟨more, bracket⟩ := List.head?_eq_some_iff.mp opens.2
    rw [opens.1, bracket, resumed_cons style (by decide)]
    exact behindParameters?_resumed style more
  · have resumedOpens : ¬ (character = '\x1b' ∧ (style.resumed rest).head? = some '[') := by
      rwa [head?_resumed]
    rw [behindSequence?_eq_none opens, behindSequence?_eq_none resumedOpens]
    rfl

theorem plain_resumed (text : List Char) : plain (style.resumed text) = plain text := by
  induction text using plain.induct with
  | case1 => rfl
  | case2 character rest later found inductionHypothesis =>
      rw [plain_of_sequence found, ← inductionHypothesis]
      rcases resumed_cases style character rest with whole | ⟨other, isReset⟩
      · rw [whole]
        apply plain_of_sequence
        rw [behindSequence?_resumed, found]
        rfl
      · rw [isReset] at found ⊢
        obtain rfl : other = later := Option.some.inj found
        show plain (reset ++ style.start ++ style.resumed other) = _
        rw [List.append_assoc, plain_reset_append, plain_start_append]
  | case3 character rest missing inductionHypothesis =>
      have whole : style.resumed (character :: rest) = character :: style.resumed rest := by
        apply (resumed_cases style character rest).resolve_right
        intro ⟨other, isReset⟩
        rw [isReset] at missing
        cases missing
      have resumedMissing : behindSequence? (character :: style.resumed rest) = none := by
        rw [behindSequence?_resumed, missing]
        rfl
      rw [whole, plain_cons resumedMissing, plain_cons missing, inductionHypothesis]

theorem painted_resumed (text : List Char) : Painted text (style.resumed text) := by
  induction text using Style.resumed.induct with
  | case1 => exact .nil
  | case2 rest inductionHypothesis =>
      show Painted (reset ++ rest) (reset ++ style.start ++ style.resumed rest)
      rw [List.append_assoc]
      exact (Painted.refl reset).append (.start style inductionHypothesis)
  | case3 character rest noReset inductionHypothesis =>
      have whole : style.resumed (character :: rest) = character :: style.resumed rest := by
        apply (resumed_cases style character rest).resolve_right
        intro ⟨later, isReset⟩
        exact noReset later (List.cons.inj isReset).1 (List.cons.inj isReset).2
      rw [whole]
      exact .cons character inductionHypothesis

end Style

section Paint

variable (colours : Colours) (style : Style)

/-- Paint takes nothing away from a text and does not change its order. -/
theorem painted_paint (text : List Char) : Painted text (paint colours style text) := by
  cases colours with
  | off => exact .refl text
  | on =>
      have whole := (style.painted_resumed text).append (.reset .nil)
      rw [List.append_nil, List.append_nil] at whole
      rw [paint, List.append_assoc]
      exact .start style whole

/-- Without control sequences, a painted text is the text, whatever stands behind it. -/
theorem plain_paint_append (text : List Char) {rest : List Char}
    (cut : rest.head?.all interrupts) :
    plain (paint colours style text ++ rest) = plain (text ++ rest) := by
  cases colours with
  | off => rfl
  | on =>
      have resetCut : (reset ++ rest).head?.all interrupts := rfl
      rw [paint, List.append_assoc, List.append_assoc, plain_start_append,
        plain_append _ resetCut, plain_reset_append, plain_append _ cut, Style.plain_resumed]

end Paint

end RiscAssembler.Terminal
