import RiscAssembler.Proofs.Assembly.Stages
import RiscAssembler.Proofs.Token.Radix

/-!
Contract: output lines do not depend on how integers are written.

Owns:
- an integer in decimal and in hexadecimal digits, one put in place of the other;
- where the two are not the same: the least integer, and a number that a word follows without a
  blank.

Main statement: `assemble_radix`.
-/

namespace RiscAssembler

/-- Integers of 64 bits can be written in decimal digits, and all but the least one also in
hexadecimal digits, behind any number of zeros and in any letter case. Alone in a text, each way to
write an integer is that integer and nothing else, without a diagnostic. One of them put in place of
another, where this is a token of a text and the text behind it does not go on with the one put
there, leaves the output lines as they are. -/
theorem assemble_radix {value : Int} (lower : -2 ^ 63 ≤ value) (upper : value ≤ 2 ^ 63 - 1) :
    (∀ numeral, Numeral.Writes value numeral →
      tokenize (String.ofList numeral.spelling) =
        ⟨[⟨.immediate value, String.ofList numeral.spelling, 1⟩], []⟩) ∧
    ∀ left right, Numeral.Writes value left → Numeral.Writes value right →
      ∀ before after line,
        Token.StandsBetween before after ⟨.immediate value, String.ofList left.spelling, line⟩ →
        right.magnitude.EndsBefore after →
          (assemble (String.ofList (before ++ (left.spelling ++ after)))).lines =
            (assemble (String.ofList (before ++ (right.spelling ++ after)))).lines := by
  refine ⟨fun numeral writes => writes.tokenize_spelling lower upper, ?_⟩
  intro left right writesLeft writesRight before after line stands ends
  obtain ⟨items, scannedLeft, scannedRight⟩ :=
    writesLeft.scan_replace lower upper writesRight stands ends
  apply lines_eq_of_relabel_eq fun _ => ""
  simp only [tokenize, Cursor.tokenize, Scan.reported, Cursor.start, String.toList_ofList,
    scannedLeft, scannedRight, Scan.tokens, List.filterMap_append, List.map_append]
  rfl

/-- A negative integer in hexadecimal digits, with a capital mark and a zero in front. -/
theorem assemble_radix_negative :
    (-2 ^ 63 ≤ (-31 : Int) ∧ (-31 : Int) ≤ 2 ^ 63 - 1) ∧
      Numeral.Writes (-31) (signedNumeral (-31)) ∧
      Numeral.Writes (-31) ⟨true, .hexadecimal true ['0', '1', 'f']⟩ ∧
      Token.StandsBetween "LUI X1,".toList ['\n'] ⟨.immediate (-31), "-31", 1⟩ ∧
      (Numeral.Magnitude.hexadecimal true ['0', '1', 'f']).EndsBefore ['\n'] ∧
      tokenize "-0X01f" = ⟨[⟨.immediate (-31), "-0X01f", 1⟩], []⟩ ∧
      (assemble "LUI X1,-31\n").lines = (assemble "LUI X1,-0X01f\n").lines := by
  have range : -2 ^ 63 ≤ (-31 : Int) ∧ (-31 : Int) ≤ 2 ^ 63 - 1 := by decide
  have inDecimal : Numeral.Writes (-31) (signedNumeral (-31)) := .decimal
  have inHexadecimal : Numeral.Writes (-31) ⟨true, .hexadecimal true ['0', '1', 'f']⟩ :=
    .hexadecimal 1 (by decide : (-31 : Int) ≠ -2 ^ 63)
      (by decide : ['1', 'f'].map Char.toUpper = (Nat.toDigits 16 31).map Char.toUpper)
  have comes : Cursor.ComesTo ⟨"-31\n".toList, 1⟩ ⟨"LUI X1,-31\n".toList, 1⟩
      [.token ⟨.opcode .lui, "LUI", 1⟩, .token ⟨.register 1, "X1", 1⟩,
        .token ⟨.comma, ",", 1⟩] := by
    apply Cursor.ComesTo.token (by decide +kernel : _ = Step.token _ ⟨" X1,-31\n".toList, 1⟩)
    apply Cursor.ComesTo.token (by decide +kernel : _ = Step.token _ ⟨",-31\n".toList, 1⟩)
    apply Cursor.ComesTo.token (by decide +kernel : _ = Step.token _ ⟨"-31\n".toList, 1⟩)
    exact .here (by decide +kernel)
  have stands : Token.StandsBetween "LUI X1,".toList ['\n'] ⟨.immediate (-31), "-31", 1⟩ :=
    ⟨⟨_, comes⟩, by decide +kernel⟩
  have ends : (Numeral.Magnitude.hexadecimal true ['0', '1', 'f']).EndsBefore ['\n'] := by
    rintro character ⟨⟩
    rfl
  have spelled : String.ofList (signedNumeral (-31)).spelling = "-31" := by decide +kernel
  have respelled : String.ofList (Numeral.mk true (.hexadecimal true ['0', '1', 'f'])).spelling =
      "-0X01f" := by
    decide +kernel
  obtain ⟨alone, replaced⟩ := assemble_radix range.1 range.2
  have tokens := alone _ inHexadecimal
  have lines := replaced _ _ inDecimal inHexadecimal "LUI X1,".toList ['\n'] 1
    (spelled.symm ▸ stands) ends
  rw [respelled] at tokens
  exact ⟨range, inDecimal, inHexadecimal, stands, ends, tokens, lines⟩

/-- The least integer cannot be written in hexadecimal digits. Where a word follows a number without
a blank, a hexadecimal number goes on with the word and a decimal one does not. -/
theorem assemble_radix_limits :
    tokenize "-9223372036854775808" =
        ⟨[⟨.immediate (-2 ^ 63), "-9223372036854775808", 1⟩], []⟩ ∧
      String.ofList (Nat.toDigits 16 (-2 ^ 63 : Int).natAbs) = "8000000000000000" ∧
      tokenize "-0x8000000000000000" = ⟨[], [⟨1, "invalid number: -0x8000000000000000"⟩]⟩ ∧
      tokenize "5" = ⟨[⟨.immediate 5, "5", 1⟩], []⟩ ∧
      tokenize "0x5" = ⟨[⟨.immediate 5, "0x5", 1⟩], []⟩ ∧
      ⟨.immediate 5, "5", 1⟩ ∈ (tokenize "LUI X1,5ADD X1,X2,X3").value ∧
      (assemble "LUI X1,5ADD X1,X2,X3").lines =
        ["00000000000000000101000010110111", "00000000001100010000000010110011"] ∧
      (assemble "LUI X1,0x5ADD X1,X2,X3").lines = ["ERROR"] := by
  refine ⟨?_, ?_, ?_, ?_, ?_, ?_, ?_, ?_⟩
  all_goals decide +kernel

end RiscAssembler
