import RiscAssembler.Json.Reader
import RiscAssembler.Proofs.Json.Quoted
import RiscAssembler.Proofs.Text.Digits

/-!
Contract: the symbols of a JSON text are found piece by piece.

Owns:
- the texts that no number or name can run on into;
- the texts that spell given symbols in front of any such text;
- how blanks, punctuation, quoted strings, numbers and whole containers put such texts together.

Only a number or a name needs anything of what stands behind it: every other symbol shows its own
end. So the laws in front of a text ask nothing of it, and the one law that puts a text behind
another asks that it does not run on.

Main statement: `Spells.container`.
-/

namespace RiscAssembler.Json

/-! ### Characters -/

section Classes

variable {character : Char}

theorem isBare_eq_false_of_isBlank (blank : isBlank character) : isBare character = false := by
  simp only [isBlank, Bool.or_eq_true, decide_eq_true_eq] at blank
  rcases blank with ((rfl | rfl) | rfl) | rfl
  all_goals rfl

theorem other_classes_of_punctuation? {symbol : Symbol}
    (found : punctuation? character = some symbol) :
    isBlank character = false ∧ isBare character = false := by
  unfold punctuation? at found
  split at found
  case h_7 => cases found
  all_goals exact ⟨rfl, rfl⟩

theorem isBlank_eq_false_of_isBare (bare : isBare character) : isBlank character = false := by
  rw [Bool.eq_false_iff]
  intro blank
  rw [isBare_eq_false_of_isBlank blank] at bare
  cases bare

theorem punctuation?_eq_none_of_isBare (bare : isBare character) :
    punctuation? character = none := by
  cases found : punctuation? character with
  | none => rfl
  | some symbol =>
      rw [(other_classes_of_punctuation? found).2] at bare
      cases bare

theorem isBare_of_isDigit (digit : character.isDigit) : isBare character := by
  simp [isBare, Char.isAlphanum, digit]

end Classes

/-! ### Numbers -/

theorem natural?_decimal (number : Nat) : natural? (Text.decimal number) = some number := by
  have digits : (Text.decimal number).all Char.isDigit :=
    List.all_eq_true.mpr fun _ => Text.isDigit_of_mem_decimal
  have shortest : (Text.decimal number).head? = some '0' → Text.decimal number = ['0'] := by
    intro leading
    rw [Text.head?_decimal_eq_zero_iff.mp leading]
    rfl
  rw [natural?, if_pos ⟨digits, Text.decimal_ne_nil number, shortest⟩, Text.digitsValue_decimal]

theorem bareValue?_signedDecimal (number : Int) :
    bareValue? (Text.signedDecimal number) = some (.integer number) := by
  unfold Text.signedDecimal
  split
  case isTrue negative =>
    have value : -(number.natAbs : Int) = number := by omega
    rw [bareValue?, natural?_decimal]
    exact congrArg (fun read => some (Value.integer read)) value
  case isFalse natural =>
    have value : (number.natAbs : Int) = number := by omega
    have digits : ∀ digit ∈ Text.decimal number.natAbs, digit.isDigit :=
      fun _ => Text.isDigit_of_mem_decimal
    rw [bareValue?, natural?_decimal]
    · exact congrArg (fun read => some (Value.integer read)) value
    · intro isNull
      have letter := digits 'n' (by simp [isNull])
      cases letter
    · intro rest isNegative
      have sign := digits '-' (by simp [isNegative])
      cases sign

theorem isBare_of_mem_signedDecimal {number : Int} {character : Char}
    (member : character ∈ Text.signedDecimal number) : isBare character := by
  unfold Text.signedDecimal at member
  split at member
  · rcases List.mem_cons.mp member with rfl | digit
    · rfl
    · exact isBare_of_isDigit (Text.isDigit_of_mem_decimal digit)
  · exact isBare_of_isDigit (Text.isDigit_of_mem_decimal member)

/-! ### One symbol -/

/-- A text that does not go on with a number or a name. -/
def Ended (text : List Char) : Prop :=
  ∀ character ∈ text.head?, isBare character = false

namespace Ended

theorem nil : Ended [] := by
  intro character member
  cases member

theorem cons {character : Char} {rest : List Char} (notBare : isBare character = false) :
    Ended (character :: rest) := by
  intro first isFirst
  cases isFirst
  exact notBare

theorem of_isBlank {gap : List Char} (blank : ∀ character ∈ gap, isBlank character) :
    Ended gap := by
  intro character first
  exact isBare_eq_false_of_isBlank (blank character (List.mem_of_mem_head? first))

theorem append {first second : List Char} (firstEnded : Ended first) (secondEnded : Ended second) :
    Ended (first ++ second) := by
  cases first with
  | nil => exact secondEnded
  | cons character rest => exact firstEnded

theorem takeWhile_isBare {text : List Char} (ended : Ended text) : text.takeWhile isBare = [] := by
  cases text with
  | nil => rfl
  | cons character rest => rw [List.takeWhile_cons_of_neg (by simp [ended character rfl])]

theorem dropWhile_isBare {text : List Char} (ended : Ended text) :
    text.dropWhile isBare = text := by
  cases text with
  | nil => rfl
  | cons character rest => rw [List.dropWhile_cons_of_neg (by simp [ended character rfl])]

end Ended

theorem symbols?_cons_of_isBlank {character : Char} {rest : List Char}
    (blank : isBlank character) : symbols? (character :: rest) = symbols? rest := by
  rw [symbols?, if_pos blank]

theorem symbols?_cons_of_punctuation? {character : Char} {rest : List Char} {symbol : Symbol}
    (found : punctuation? character = some symbol) :
    symbols? (character :: rest) = (symbols? rest).map (symbol :: ·) := by
  rw [symbols?, (other_classes_of_punctuation? found).1, if_neg Bool.false_ne_true]
  simp only [found]

theorem symbols?_quoted_append (text after : List Char) :
    symbols? (quoted text ++ after) =
      (symbols? after).map (.scalar (.string (String.ofList text)) :: ·) := by
  have read : unquote? (text.flatMap escaped ++ ['"'] ++ after) = some (text, after) := by
    rw [List.append_assoc]
    exact unquote?_flatMap_escaped text after
  rw [quoted, List.cons_append, List.cons_append, symbols?, if_neg (by decide),
    show punctuation? '"' = none from rfl]
  dsimp only
  rw [if_pos rfl]
  split
  case h_1 unread =>
    rw [read] at unread
    cases unread
  case h_2 string rest isRead =>
    rw [read] at isRead
    cases isRead
    rfl

theorem symbols?_bare_append {text after : List Char} {value : Value}
    (bare : ∀ character ∈ text, isBare character) (read : bareValue? text = some value)
    (ended : Ended after) :
    symbols? (text ++ after) = (symbols? after).map (.scalar value :: ·) := by
  cases text with
  | nil => cases read
  | cons character rest =>
      have firstBare : isBare character := bare character List.mem_cons_self
      have notBlank : ¬ isBlank character := by simp [isBlank_eq_false_of_isBare firstBare]
      have notQuote : character ≠ '"' := by
        rintro rfl
        cases firstBare
      have restBare : ∀ character ∈ rest, isBare character :=
        fun character member => bare character (List.mem_cons_of_mem _ member)
      have taken : (rest ++ after).takeWhile isBare = rest := by
        rw [List.takeWhile_append_of_pos restBare, ended.takeWhile_isBare, List.append_nil]
      have dropped : (rest ++ after).dropWhile isBare = after := by
        rw [List.dropWhile_append_of_pos restBare, ended.dropWhile_isBare]
      rw [List.cons_append, symbols?, if_neg notBlank]
      simp only [punctuation?_eq_none_of_isBare firstBare, if_neg notQuote, if_pos firstBare, taken,
        dropped, read]

/-! ### Texts that spell symbols -/

/-- A text that spells symbols in front of any text that it does not run on into. -/
def Spells (text : List Char) (symbols : List Symbol) : Prop :=
  ∀ after, Ended after → symbols? (text ++ after) = (symbols? after).map (symbols ++ ·)

namespace Spells

variable {text rest : List Char} {symbols restSymbols : List Symbol}

theorem symbols?_eq (spells : Spells text symbols) : symbols? text = some symbols := by
  have alone := spells [] Ended.nil
  rw [List.append_nil, symbols?, Option.map_some, List.append_nil] at alone
  exact alone

theorem append (first : Spells text symbols) (second : Spells rest restSymbols)
    (ended : Ended rest) : Spells (text ++ rest) (symbols ++ restSymbols) := by
  intro after afterEnded
  rw [List.append_assoc, first _ (ended.append afterEnded), second _ afterEnded, Option.map_map]
  exact congrArg (Option.map · _) (funext fun _ => (List.append_assoc _ _ _).symm)

theorem blank_cons {character : Char} (blank : isBlank character) (spells : Spells text symbols) :
    Spells (character :: text) symbols := by
  intro after ended
  rw [List.cons_append, symbols?_cons_of_isBlank blank, spells _ ended]

theorem blanks_append {gap : List Char} (blank : ∀ character ∈ gap, isBlank character)
    (spells : Spells text symbols) : Spells (gap ++ text) symbols := by
  induction gap with
  | nil => exact spells
  | cons character gap inductionHypothesis =>
      rw [List.forall_mem_cons] at blank
      exact blank_cons blank.1 (inductionHypothesis blank.2)

theorem punctuation_cons {character : Char} {symbol : Symbol}
    (found : punctuation? character = some symbol) (spells : Spells text symbols) :
    Spells (character :: text) (symbol :: symbols) := by
  intro after ended
  rw [List.cons_append, symbols?_cons_of_punctuation? found, spells _ ended, Option.map_map]
  rfl

theorem nil : Spells [] [] := by
  intro after ended
  rw [List.nil_append]
  exact Option.map_id'.symm

/-- Blanks behind a text spell nothing. -/
theorem append_blanks {gap : List Char} (blank : ∀ character ∈ gap, isBlank character)
    (spells : Spells text symbols) : Spells (text ++ gap) symbols := by
  have nothing : Spells gap [] := by simpa using blanks_append blank nil
  simpa using spells.append nothing (Ended.of_isBlank blank)

theorem quoted_append (string : String) (spells : Spells text symbols) :
    Spells (quoted string.toList ++ text) (.scalar (.string string) :: symbols) := by
  intro after ended
  rw [List.append_assoc, symbols?_quoted_append, spells _ ended, Option.map_map,
    String.ofList_toList]
  rfl

theorem null : Spells ['n', 'u', 'l', 'l'] [.scalar .null] :=
  fun _ ended => symbols?_bare_append (List.all_eq_true.mp rfl) rfl ended

theorem integer (value : Int) : Spells (Text.signedDecimal value) [.scalar (.integer value)] :=
  fun _ ended => symbols?_bare_append (fun _ => isBare_of_mem_signedDecimal)
    (bareValue?_signedDecimal value) ended

theorem string (string : String) : Spells (quoted string.toList) [.scalar (.string string)] := by
  simpa using quoted_append string nil

/-! ### Containers -/

section Containers

variable {gap last : List Char} {closing : Char} {closeSymbol : Symbol} {parts : List (List Char)}
  {partSymbols : List (List Symbol)}
  (gapBlank : ∀ character ∈ gap, isBlank character)
  (lastBlank : ∀ character ∈ last, isBlank character)
  (closes : punctuation? closing = some closeSymbol)
include gapBlank lastBlank closes

/-- The parts of a container up to its end: with a comma between any two, and blanks behind each
comma and in front of the end. -/
theorem parts_append (each : List.Forall₂ Spells parts partSymbols) :
    Spells ((',' :: gap).intercalate parts ++ (last ++ [closing]))
      ([.comma].intercalate partSymbols ++ [closeSymbol]) := by
  have ending : Spells (last ++ [closing]) [closeSymbol] :=
    blanks_append lastBlank (punctuation_cons closes nil)
  induction each with
  | nil => exact ending
  | @cons part symbols parts partSymbols isPart others inductionHypothesis =>
      cases others with
      | nil =>
          have ended : Ended (last ++ [closing]) :=
            (Ended.of_isBlank lastBlank).append
              (Ended.cons (other_classes_of_punctuation? closes).2)
          rw [List.intercalate_singleton, List.intercalate_singleton]
          exact isPart.append ending ended
      | cons =>
          -- a comma stands behind this part, and what follows it is spelled by the other parts
          have onward := punctuation_cons (show punctuation? ',' = some .comma from rfl)
            (blanks_append gapBlank inductionHypothesis)
          simpa [List.intercalate_cons_cons] using isPart.append onward (Ended.cons rfl)

/-- A container spells what its parts spell, between its opening and its closing symbol. -/
theorem container {opening : Char} {openSymbol : Symbol}
    (opens : punctuation? opening = some openSymbol)
    (each : List.Forall₂ Spells parts partSymbols) :
    Spells (opening :: gap ++ (',' :: gap).intercalate parts ++ last ++ [closing])
      (openSymbol :: [.comma].intercalate partSymbols ++ [closeSymbol]) := by
  have inside := parts_append gapBlank lastBlank closes each
  simpa using punctuation_cons opens (blanks_append gapBlank inside)

end Containers

end Spells

end RiscAssembler.Json
