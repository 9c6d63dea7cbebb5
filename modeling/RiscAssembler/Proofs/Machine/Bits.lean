import Mathlib.Data.List.Basic
import RiscAssembler.Machine.Format
import RiscAssembler.Text

/-!
Contract: words and their thirty-two digits tell the same.

Owns:
- the bits of the word that digits spell, place by place;
- both directions between a word and its digits;
- the number that the digits of a word spell in base two.

Main statements: `ofBits?_bits`, `bits_of_ofBits?` and `digitsValue_bits`.
-/

namespace RiscAssembler.Word

/-- A bit of the number that binary digits spell, the least significant digit first. -/
theorem testBit_foldr (digits : List Char) (place : Nat) :
    (digits.foldr (fun digit value => 2 * value + if digit = '1' then 1 else 0) 0).testBit place =
      decide (digits[place]? = some '1') := by
  induction digits generalizing place with
  | nil => simp
  | cons digit digits inductionHypothesis =>
      rw [List.foldr_cons]
      cases place with
      | zero =>
          by_cases one : digit = '1'
          · simp [Nat.testBit_zero, one]
          · simp [Nat.testBit_zero, one]
      | succ place =>
          have half (value : Nat) : (2 * value + if digit = '1' then 1 else 0) / 2 = value := by
            split <;> omega
          rw [Nat.testBit_succ, half, List.getElem?_cons_succ, inductionHypothesis]

/-- A bit of the word that thirty-two binary digits spell, the most significant digit first. -/
theorem getMsbD_ofDigits {digits : List Char} (width : digits.length = 32) {place : Nat}
    (inside : place < 32) :
    (BitVec.ofNat 32 (digits.foldl
      (fun value digit => 2 * value + if digit = '1' then 1 else 0) 0)).getMsbD place =
      decide (digits[place]? = some '1') := by
  -- a fold from the left over the digits is a fold from the right over their reversal
  have mirrored : digits.reverse[31 - place]? = digits[place]? := by
    rw [List.getElem?_reverse (by omega), width]
    congr 1
    omega
  have reversed := testBit_foldr digits.reverse (31 - place)
  rw [List.foldr_reverse, mirrored] at reversed
  have lower : 31 - place < 32 := by omega
  rw [BitVec.getMsbD_eq_getLsbD, BitVec.getLsbD_ofNat, ← reversed]
  simp only [inside, lower, decide_true, Bool.true_and, Nat.reduceSub]

theorem toList_bits (word : Word) :
    word.bits.toList =
      (List.range 32).map fun place => if word.getMsbD place then '1' else '0' :=
  String.toList_ofList

theorem getElem?_bits (word : Word) {place : Nat} (inside : place < 32) :
    word.bits.toList[place]? = some (if word.getMsbD place then '1' else '0') := by
  rw [toList_bits, List.getElem?_map, List.getElem?_range inside]
  rfl

theorem length_bits (word : Word) : word.bits.toList.length = 32 := by
  simp [toList_bits]

theorem binary_bits (word : Word) : ∀ digit ∈ word.bits.toList, digit = '0' ∨ digit = '1' := by
  intro digit member
  rw [toList_bits] at member
  obtain ⟨place, _, rfl⟩ := List.mem_map.mp member
  cases word.getMsbD place
  · exact .inl rfl
  · exact .inr rfl

theorem ofBits?_bits (word : Word) : ofBits? word.bits = some word := by
  have digits : word.bits.toList.all (fun digit => digit = '0' || digit = '1') = true := by
    simpa using binary_bits word
  unfold ofBits?
  rw [if_pos ⟨length_bits word, digits⟩, Option.some.injEq]
  apply BitVec.eq_of_getMsbD_eq
  intro place inside
  rw [getMsbD_ofDigits (length_bits word) inside, getElem?_bits word inside]
  cases word.getMsbD place <;> rfl

/-- The digits of a word, read in base two, are the word as a number. -/
theorem digitsValue_bits (word : Word) : Text.digitsValue 2 word.bits.toList = word.toNat := by
  have value : Text.digitsValue 2 word.bits.toList =
      word.bits.toList.reverse.foldr
        (fun digit value => 2 * value + if digit = '1' then 1 else 0) 0 := by
    rw [List.foldr_reverse]
    apply List.foldl_ext
    intro total digit member
    rcases word.binary_bits digit member with rfl | rfl
    · rfl
    · rfl
  rw [value]
  apply Nat.eq_of_testBit_eq
  intro place
  rw [testBit_foldr, BitVec.testBit_toNat]
  by_cases inside : place < 32
  · have mirrored : word.getMsbD (31 - place) = word.getLsbD place := by
      rw [BitVec.getMsbD_eq_getLsbD, decide_eq_true (by omega), Bool.true_and]
      congr 1
      omega
    rw [List.getElem?_reverse (by rw [length_bits]; exact inside), length_bits,
      getElem?_bits word (by omega), Nat.add_one_sub_one, mirrored]
    cases word.getLsbD place <;> rfl
  · rw [List.getElem?_eq_none (by simpa [length_bits] using inside),
      BitVec.getLsbD_of_ge word place (by omega)]
    rfl

theorem exists_ofBits? {text : String} (width : text.toList.length = 32)
    (binary : ∀ digit ∈ text.toList, digit = '0' ∨ digit = '1') :
    ∃ word, ofBits? text = some word := by
  have digits : text.toList.all (fun digit => digit = '0' || digit = '1') = true := by
    simpa using binary
  unfold ofBits?
  rw [if_pos ⟨width, digits⟩]
  exact ⟨_, rfl⟩

theorem bits_of_ofBits? {text : String} {word : Word} (spelled : ofBits? text = some word) :
    word.bits = text := by
  unfold ofBits? at spelled
  dsimp only at spelled
  split at spelled
  · rename_i accepted
    obtain ⟨width, binary⟩ := accepted
    cases spelled
    apply String.toList_injective
    apply List.ext_getElem?
    intro place
    by_cases inside : place < 32
    · have present : place < text.toList.length := by omega
      have digit := List.all_eq_true.mp binary _ (List.getElem_mem present)
      rw [getElem?_bits _ inside, getMsbD_ofDigits width inside, List.getElem?_eq_getElem present]
      simp only [Bool.or_eq_true, decide_eq_true_eq] at digit
      rcases digit with zero | one
      · simp [zero]
      · simp [one]
    · rw [List.getElem?_eq_none (by simp [toList_bits]; omega),
        List.getElem?_eq_none (by omega)]
  · cases spelled

end RiscAssembler.Word
