import RiscAssembler.Proofs.Text.Digits
import RiscAssembler.Proofs.Token.Coverage
import RiscAssembler.Proofs.Token.Numeral

/-!
Contract: the numbers of a program text, how far they reach and what they stand for.

Owns:
- the immediates that a number stands for, told from its sign and its digits alone;
- the step at a digit or a minus sign.

How far a number reaches does not depend on whether it stands for anything. A number without digits,
or one out of range, is taken off whole and reported.

Main statement: `Cursor.next_number`.
-/

namespace RiscAssembler

namespace Numeral

/-- What a number stands for. A hexadecimal number without its sign, and a decimal integer with its
sign, is a signed integer of 64 bits. A number with a point has a digit on one side of it. -/
inductive StandsFor : Numeral → TokenKind → Prop
  | hexadecimal {negative capitalMark : Bool} {digits : List Char} {magnitude : Nat}
      (someDigit : digits ≠ [])
      (value : magnitude = Nat.ofDigits 16 (digits.reverse.map Text.digitValue))
      (small : magnitude ≤ 2 ^ 63 - 1) :
      StandsFor ⟨negative, .hexadecimal capitalMark digits⟩
        (.immediate (if negative then -(magnitude : Int) else magnitude))
  | integer {negative : Bool} {whole : List Char} {magnitude : Nat} {value : Int}
      (someDigit : whole ≠ [])
      (unsigned : magnitude = Nat.ofDigits 10 (whole.reverse.map Text.digitValue))
      (signed : value = if negative then -(magnitude : Int) else magnitude)
      (lower : -2 ^ 63 ≤ value) (upper : value ≤ 2 ^ 63 - 1) :
      StandsFor ⟨negative, .decimal whole none⟩ (.immediate value)
  | float {negative : Bool} {whole fraction : List Char} (someDigit : whole ≠ [] ∨ fraction ≠ []) :
      StandsFor ⟨negative, .decimal whole (some fraction)⟩
        (.floatImmediate (.ofDecimal negative
          (Nat.ofDigits 10 ((whole ++ fraction).reverse.map Text.digitValue)) fraction.length))

theorem kind?_eq_some_iff {numeral : Numeral} {kind : TokenKind} :
    numeral.kind? = some kind ↔ numeral.StandsFor kind := by
  obtain ⟨negative, magnitude⟩ := numeral
  match magnitude with
  | .hexadecimal capitalMark digits =>
      simp only [kind?, Text.digitsValue_eq_ofDigits, inRange_iff]
      constructor
      · intro known
        split at known
        · rename_i accepted
          obtain rfl := Option.some.inj known
          exact .hexadecimal accepted.1 rfl (by omega)
        · cases known
      · intro stands
        cases stands with
        | hexadecimal someDigit value small =>
            subst value
            exact if_pos ⟨someDigit, by omega, by omega⟩
  | .decimal whole none =>
      simp only [kind?, Text.digitsValue_eq_ofDigits, inRange_iff]
      constructor
      · intro known
        split at known
        · rename_i accepted
          obtain rfl := Option.some.inj known
          exact .integer accepted.1 rfl rfl accepted.2.1 (by omega)
        · cases known
      · intro stands
        cases stands with
        | integer someDigit unsigned signed lower upper =>
            subst unsigned signed
            exact if_pos ⟨someDigit, lower, Int.lt_of_le_sub_one upper⟩
  | .decimal whole (some fraction) =>
      have someDigit_iff : whole ++ fraction ≠ [] ↔ whole ≠ [] ∨ fraction ≠ [] := by
        rw [ne_eq, List.append_eq_nil_iff, not_and_or]
      simp only [kind?, Text.digitsValue_eq_ofDigits, someDigit_iff]
      constructor
      · intro known
        split at known
        · rename_i someDigit
          obtain rfl := Option.some.inj known
          exact .float someDigit
        · cases known
      · intro stands
        cases stands with
        | float someDigit => exact if_pos someDigit

end Numeral

namespace Cursor

/-- Where the next character that is neither blank nor in a comment is a digit or a minus sign, a
step takes off the longest number that starts there. A number that stands for an immediate becomes
the token of that kind; any other is reported by its spelling, on the line of its first character,
and has been read then. -/
theorem next_number {cursor : Cursor} {text : List Char} {line : Nat}
    (here : cursor.skipTrivia = ⟨text, line⟩)
    (starts : ∃ character ∈ text.head?, character.isDigit ∨ character = '-') :
    (∃ skipped, skipped ++ text = cursor.rest ∧ line = cursor.line + skipped.count '\n') ∧
      ∃ numeral after,
        (∀ other rest, Numeral.IsLongest other text rest ↔ other = numeral ∧ rest = after) ∧
        (∀ kind, cursor.next = .token ⟨kind, String.ofList numeral.spelling, line⟩ ⟨after, line⟩ ↔
          numeral.StandsFor kind) ∧
        ((∀ kind, ¬ numeral.StandsFor kind) →
          ∃ fault, cursor.next = .fault fault ⟨after, line⟩ ∧
            fault.diagnostic = ⟨line, "invalid number: " ++ String.ofList numeral.spelling⟩) := by
  have skipped := cursor.exists_skipped
  rw [here] at skipped
  obtain ⟨character, first, starts⟩ := starts
  obtain ⟨rest, rfl⟩ := List.head?_eq_some_iff.mp first
  have isStart : Numeral.startsWith character := by simpa [Numeral.startsWith] using starts
  have step := tokenHere_number isStart rest line
  generalize read : Numeral.read (character :: rest) = found at step
  obtain ⟨numeral, after⟩ := found
  rw [next, here]
  refine ⟨skipped, numeral, after, fun other rest => ?_, fun kind => ?_, fun nothing => ?_⟩
  · rw [← Numeral.read_eq_iff, read, Prod.mk.injEq, eq_comm, @eq_comm _ after]
  · rw [step, classify_eq_token_iff, Numeral.kind?_eq_some_iff]
  · have unknown : ∀ kind, numeral.kind? ≠ some kind :=
      fun kind known => nothing kind (Numeral.kind?_eq_some_iff.mp known)
    rw [step, classify_of_forall_ne unknown]
    exact ⟨_, rfl, rfl⟩

/-- A negative number with a capital mark, behind a comment and a line break. The letter that
follows is no hexadecimal digit. -/
theorem next_number_marked :
    (Cursor.mk " # 7\n-0X1fg".toList 4).skipTrivia = ⟨['-', '0', 'X', '1', 'f', 'g'], 5⟩ ∧
      (∃ character ∈ ['-', '0', 'X', '1', 'f', 'g'].head?, character.isDigit ∨ character = '-') ∧
      (Cursor.mk " # 7\n-0X1fg".toList 4).next =
        .token ⟨.immediate (-31), "-0X1f", 5⟩ ⟨['g'], 5⟩ := by
  have here : (Cursor.mk " # 7\n-0X1fg".toList 4).skipTrivia =
      ⟨['-', '0', 'X', '1', 'f', 'g'], 5⟩ := by
    decide +kernel
  have starts : ∃ character ∈ ['-', '0', 'X', '1', 'f', 'g'].head?,
      character.isDigit ∨ character = '-' :=
    ⟨'-', rfl, .inr rfl⟩
  have longest : Numeral.IsLongest ⟨true, .hexadecimal true ['1', 'f']⟩
      ['-', '0', 'X', '1', 'f', 'g'] ['g'] := by
    refine ⟨rfl, fun _ => rfl, List.all_eq_true.mp rfl, ?_⟩
    rintro character ⟨⟩
    rfl
  obtain ⟨_, numeral, after, only, kinds, _⟩ := next_number here starts
  obtain ⟨rfl, rfl⟩ := (only _ _).mp longest
  refine ⟨here, starts, (kinds _).mpr ?_⟩
  exact .hexadecimal (by decide) (by decide) (by decide : 31 ≤ 2 ^ 63 - 1)

end Cursor

end RiscAssembler
