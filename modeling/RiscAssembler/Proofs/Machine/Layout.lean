import Mathlib.Algebra.Group.Int.Defs
import Mathlib.Algebra.Group.Nat.Defs
import RiscAssembler.Machine.Decoding

/-!
Contract: what fills a machine word can be taken out of it again.

Owns:
- the fields that the operands of a format fill;
- the operands that a word holds;
- the fixed bits that tell the mnemonics apart.

A word is put together from pieces, so a field is the piece or the pieces at its place. Branch and
jump offsets lose their lowest bit to the layout and get it back as zero.

Main statements: `Pattern.fields_word`, `Pattern.word_values`, `decode_word` and `decode_injective`.
-/

namespace RiscAssembler

/-! ### Immediates -/

private theorem natCast_two_pow_succ (width : Nat) :
    ((2 ^ (width + 1) : Nat) : Int) = 2 * 2 ^ width := by
  rw [Int.natCast_pow, Int.pow_succ, Int.mul_comm]
  rfl

theorem signedField_of_bounds {width : Nat} {value : Int} (lower : -2 ^ width ≤ value)
    (upper : value < 2 ^ width) : signedField (width + 1) value = value := by
  rw [signedField, Nat.pow_eq]
  apply Int.bmod_eq_of_le_mul_two
  · rw [natCast_two_pow_succ]
    omega
  · rw [natCast_two_pow_succ]
    omega

theorem evenField_of_bounds {width : Nat} {value : Int} (lower : -2 ^ width ≤ value)
    (upper : value < 2 ^ width) (even : value % 2 = 0) : evenField (width + 1) value = value := by
  have same : 2 * (value / 2) = value := by omega
  unfold evenField
  rw [same]
  exact signedField_of_bounds lower upper

theorem toNat_ofInt_upper (value : Int) :
    ((BitVec.ofInt 20 value).toNat : Int) = value % 2 ^ 20 := by
  rw [BitVec.toNat_ofInt]
  exact Int.toNat_of_nonneg (Int.emod_nonneg value (by decide))

private theorem ediv_two_emod (value bound : Int) (positive : 0 < bound) :
    value / 2 % bound = value % (2 * bound) / 2 := by
  have whole := Int.mul_ediv_add_emod value (2 * bound)
  have lower := Int.emod_nonneg value (show 2 * bound ≠ 0 by omega)
  have upper := Int.emod_lt_of_pos value (show 0 < 2 * bound by omega)
  rw [Int.mul_assoc] at whole
  -- halving commutes with the division by an even bound
  have half : value / 2 =
      value % (2 * bound) / 2 + bound * (value / (2 * bound)) := by omega
  rw [half, Int.add_mul_emod_self_left]
  exact Int.emod_eq_of_lt (by omega) (by omega)

/-- The upper bits of a field with a zero below them spell its integer with the lowest bit
cleared. -/
theorem cleared_ofInt (width : Nat) (value : Int) :
    (BitVec.ofInt (width + 1) value).extractLsb' 1 width ++ 0#1 =
      BitVec.ofInt (width + 1) (2 * (value / 2)) := by
  have positive : (0 : Int) < 2 ^ width := Int.pow_pos (by decide)
  have cast : ((2 ^ width : Nat) : Int) = 2 ^ width := Int.natCast_pow 2 width
  have half := ediv_two_emod value (2 ^ width) positive
  have lower := Int.emod_nonneg value (show 2 * (2 : Int) ^ width ≠ 0 by omega)
  have upper := Int.emod_lt_of_pos value (show 0 < 2 * (2 : Int) ^ width by omega)
  have bound : (value % (2 * 2 ^ width)).toNat / 2 < 2 ^ width := by omega
  apply BitVec.eq_of_toNat_eq
  rw [BitVec.toNat_append, BitVec.extractLsb'_toNat, BitVec.toNat_ofInt, BitVec.toNat_ofInt,
    natCast_two_pow_succ, Int.mul_emod_mul_of_pos _ _ (by decide), half,
    Nat.shiftRight_eq_div_pow, Nat.pow_one, Nat.mod_eq_of_lt bound, Nat.shiftLeft_eq]
  simp only [Nat.pow_one, BitVec.toNat_zero, Nat.or_zero]
  omega

theorem toInt_cleared (width : Nat) (value : Int) :
    ((BitVec.ofInt (width + 1) value).extractLsb' 1 width ++ 0#1).toInt =
      evenField (width + 1) value := by
  rw [cleared_ofInt, BitVec.toInt_ofInt]
  rfl

/-! ### Pieces -/

theorem storePieces (field : BitVec 12) :
    field.extractLsb' 5 7 ++ field.extractLsb' 0 5 = field := by
  simp only [BitVec.extractLsb'_append_extractLsb'_eq_extractLsb']
  exact BitVec.extractLsb'_eq_self

theorem branchPieces (field : BitVec 13) :
    field.extractLsb' 12 1 ++ field.extractLsb' 11 1 ++ field.extractLsb' 5 6 ++
      field.extractLsb' 1 4 = field.extractLsb' 1 12 := by
  simp only [BitVec.extractLsb'_append_extractLsb'_eq_extractLsb']

theorem jumpPieces (field : BitVec 21) :
    field.extractLsb' 20 1 ++ field.extractLsb' 12 8 ++ field.extractLsb' 11 1 ++
      field.extractLsb' 1 10 = field.extractLsb' 1 20 := by
  simp only [BitVec.extractLsb'_append_extractLsb'_eq_extractLsb']

/-! ### Fields -/

namespace Format

/-- The fields that the operands of a format fill. -/
def fill : (format : Format) → OperandValues format.operands → Fields
  | r, (rd, rs1, rs2, ()) => .r rd rs1 rs2
  | i, (rd, rs1, value, ()) => .i rd rs1 (signedField 12 value)
  | s, (value, rs2, rs1, ()) => .s rs1 rs2 (signedField 12 value)
  | b, (offset, rs2, rs1, ()) => .b rs1 rs2 (evenField 13 offset)
  | u, (rd, field, ()) => .u rd field.toNat
  | j, (rd, offset, ()) => .j rd (evenField 21 offset)
  | f, (rd, rs1, rs2, ()) => .f rd rs1 rs2

/-- The operands that a word holds in a format. -/
def values (word : Word) : (format : Format) → OperandValues format.operands
  | r => (word.rd, word.rs1, word.rs2, ())
  | i => (word.rd, word.rs1, word.immediate.toInt, ())
  | s => (word.storeOffset.toInt, word.rs2, word.rs1, ())
  | b => (word.branchOffset.toInt, word.rs2, word.rs1, ())
  | u => (word.rd, word.upperImmediate, ())
  | j => (word.rd, word.jumpOffset.toInt, ())
  | f => (word.rd, word.rs1, word.rs2, ())

theorem values_eq_of_fields_eq {format : Format} {left right : Word}
    (equal : format.fields left = format.fields right) :
    values left format = values right format := by
  cases format <;>
    simp only [fields, Fields.r.injEq, Fields.i.injEq, Fields.s.injEq, Fields.b.injEq,
      Fields.u.injEq, Fields.j.injEq, Fields.f.injEq, BitVec.toInt_inj, Int.natCast_inj,
      BitVec.toNat_inj] at equal <;>
    simp only [values, equal]

end Format

namespace Pattern

/-- The lowest seven bits that a pattern fixes. -/
def opcode : Pattern → BitVec 7
  | r .. => 0b0110011#7
  | i opcode _ => opcode
  | s _ => 0b0100011#7
  | b _ => 0b1100011#7
  | u => 0b0110111#7
  | j => 0b1101111#7
  | f .. => 0b1010011#7

/-- The bits 14 to 12 that a pattern fixes, if it does. -/
def funct3? : Pattern → Option (BitVec 3)
  | r _ funct3 => some funct3
  | i _ funct3 => some funct3
  | s funct3 => some funct3
  | b funct3 => some funct3
  | f _ rounding => some rounding
  | u | j => none

/-- The highest seven bits that a pattern fixes, if it does. -/
def funct7? : Pattern → Option (BitVec 7)
  | r funct7 _ => some funct7
  | f funct5 _ => some (funct5 ++ 0b00#2)
  | _ => none

theorem matchesWord_iff {pattern : Pattern} {word : Word} :
    pattern.matchesWord word ↔
      word.opcode = pattern.opcode ∧ (∀ bits ∈ pattern.funct3?, word.funct3 = bits) ∧
        ∀ bits ∈ pattern.funct7?, word.funct7 = bits := by
  cases pattern <;> simp [matchesWord, opcode, funct3?, funct7?, and_assoc]

theorem matchesWord_word (pattern : Pattern) (values : OperandValues pattern.format.operands) :
    pattern.matchesWord (pattern.word values) = true := by
  cases pattern <;>
    simp (disch := omega) only [matchesWord, word, Word.opcode, Word.funct3, Word.funct7,
      BitVec.extractLsb'_append_eq_of_add_le, BitVec.extractLsb'_append_eq_of_le] <;>
    simp

theorem fields_word (pattern : Pattern) (values : OperandValues pattern.format.operands) :
    pattern.format.fields (pattern.word values) = pattern.format.fill values := by
  cases pattern <;>
    simp (disch := omega) only [Format.fields, Format.fill, word, Word.rd, Word.rs1, Word.rs2,
      Word.immediate, Word.storeOffset, Word.branchOffset, Word.upperImmediate, Word.jumpOffset,
      BitVec.extractLsb'_append_eq_of_add_le, BitVec.extractLsb'_append_eq_of_le,
      Nat.reduceSub, BitVec.extractLsb'_eq_self, storePieces, branchPieces, jumpPieces,
      toInt_cleared, BitVec.toInt_ofInt, signedField]

/-- A word that carries the fixed bits of a pattern is the word of the operands that it holds. -/
theorem word_values {pattern : Pattern} {word : Word} (carries : pattern.matchesWord word) :
    pattern.word (pattern.format.values word) = word := by
  have opcode : word.opcode = pattern.opcode := (matchesWord_iff.mp carries).1
  cases pattern <;>
    simp only [matchesWord, Bool.and_eq_true, decide_eq_true_eq] at carries <;>
    simp only [Pattern.opcode] at opcode <;>
    -- the fixed bits and the operands, as pieces of the word
    simp (disch := omega) only [Pattern.word, Format.values, BitVec.ofInt_toInt, ← carries,
      ← opcode, Word.storeOffset, Word.branchOffset, Word.jumpOffset,
      BitVec.extractLsb'_append_eq_of_add_le, BitVec.extractLsb'_append_eq_of_le,
      Nat.reduceSub, BitVec.extractLsb'_eq_self] <;>
    simp only [Word.opcode, Word.funct3, Word.funct7, Word.rd, Word.rs1, Word.rs2, Word.immediate,
      Word.upperImmediate, BitVec.extractLsb'_append_extractLsb'_eq_extractLsb'] <;>
    exact BitVec.extractLsb'_eq_self

end Pattern

/-! ### Mnemonics -/

namespace Pattern

/-- Whether two patterns ask for nothing that excludes the other. -/
def compatible (left right : Pattern) : Bool :=
  left.opcode = right.opcode && agree left.funct3? right.funct3? &&
    agree left.funct7? right.funct7?
where
  agree {width : Nat} : Option (BitVec width) → Option (BitVec width) → Bool
    | some left, some right => left = right
    | _, _ => true

theorem compatible_of_matchesWord {left right : Pattern} {word : Word}
    (carriesLeft : left.matchesWord word) (carriesRight : right.matchesWord word) :
    left.compatible right = true := by
  have agreed {width : Nat} {first second : Option (BitVec width)} {bits : BitVec width}
      (isFirst : ∀ wanted ∈ first, bits = wanted) (isSecond : ∀ wanted ∈ second, bits = wanted) :
      compatible.agree first second = true := by
    cases first with
    | none => rfl
    | some wanted =>
        cases second with
        | none => rfl
        | some other =>
            have same := (isFirst wanted rfl).symm.trans (isSecond other rfl)
            simpa [compatible.agree] using same
  obtain ⟨opcodeLeft, funct3Left, funct7Left⟩ := matchesWord_iff.mp carriesLeft
  obtain ⟨opcodeRight, funct3Right, funct7Right⟩ := matchesWord_iff.mp carriesRight
  simp only [compatible, Bool.and_eq_true, decide_eq_true_eq]
  exact ⟨⟨opcodeLeft.symm.trans opcodeRight, agreed funct3Left funct3Right⟩,
    agreed funct7Left funct7Right⟩

end Pattern

namespace Mnemonic

/-- The fixed bits of two mnemonics exclude each other. -/
theorem eq_of_compatible {left right : Mnemonic} {pattern other : Pattern}
    (isLeft : left.pattern? = some pattern) (isRight : right.pattern? = some other)
    (compatible : pattern.compatible other) : left = right := by
  -- the twenty-seven mnemonics are few enough to compare each with each
  have checked : ∀ left ∈ all, ∀ right ∈ all, ∀ pattern ∈ left.pattern?,
      ∀ other ∈ right.pattern?, pattern.compatible other → left = right := by decide +kernel
  exact checked left (mem_all left) right (mem_all right) pattern isLeft other isRight compatible

theorem matchesWord_iff {mnemonic : Mnemonic} {word : Word} :
    mnemonic.matchesWord word ↔
      ∃ pattern, mnemonic.pattern? = some pattern ∧ pattern.matchesWord word := by
  simp [matchesWord, Option.any_eq_true]

theorem eq_of_matchesWord {left right : Mnemonic} {word : Word}
    (carriesLeft : left.matchesWord word) (carriesRight : right.matchesWord word) :
    left = right := by
  obtain ⟨pattern, isPattern, carries⟩ := matchesWord_iff.mp carriesLeft
  obtain ⟨other, isOther, carriesOther⟩ := matchesWord_iff.mp carriesRight
  exact eq_of_compatible isPattern isOther
    (Pattern.compatible_of_matchesWord carries carriesOther)

theorem ofWord?_eq_some_iff {word : Word} {mnemonic : Mnemonic} :
    ofWord? word = some mnemonic ↔ mnemonic.matchesWord word := by
  have carried {found : Mnemonic} (isFound : ofWord? word = some found) :
      found.matchesWord word := by
    unfold ofWord? at isFound
    have carries := List.find?_some isFound
    exact carries
  constructor
  · exact carried
  · intro carries
    cases found : ofWord? word with
    | none =>
        have missing := List.find?_eq_none.mp found mnemonic (mem_all mnemonic)
        exact absurd carries missing
    | some other => rw [eq_of_matchesWord (carried found) carries]

end Mnemonic

/-! ### Decoding -/

/-- A word is decoded by the pattern whose fixed bits it carries. -/
theorem decode_eq_some_iff {word : Word} {decoded : Decoded} :
    decode word = some decoded ↔
      ∃ pattern, decoded.mnemonic.pattern? = some pattern ∧ pattern.matchesWord word ∧
        decoded.fields = pattern.format.fields word := by
  constructor
  · intro found
    simp only [decode, Option.bind_eq_bind, Option.bind_eq_some_iff, Option.some.injEq] at found
    obtain ⟨mnemonic, isMnemonic, format, isFormat, rfl⟩ := found
    obtain ⟨pattern, isPattern, carries⟩ :=
      Mnemonic.matchesWord_iff.mp (Mnemonic.ofWord?_eq_some_iff.mp isMnemonic)
    simp only [Mnemonic.format?, isPattern, Option.map_some, Option.some.injEq] at isFormat
    exact ⟨pattern, isPattern, carries, by rw [isFormat]⟩
  · rintro ⟨pattern, isPattern, carries, isFields⟩
    have isMnemonic : Mnemonic.ofWord? word = some decoded.mnemonic :=
      Mnemonic.ofWord?_eq_some_iff.mpr (Mnemonic.matchesWord_iff.mpr ⟨pattern, isPattern, carries⟩)
    have isFormat : decoded.mnemonic.format? = some pattern.format := by
      rw [Mnemonic.format?, isPattern]
      rfl
    simp [decode, isMnemonic, isFormat, ← isFields]

theorem decode_word {mnemonic : Mnemonic} {pattern : Pattern}
    (isPattern : mnemonic.pattern? = some pattern)
    (values : OperandValues pattern.format.operands) :
    decode (pattern.word values) = some ⟨mnemonic, pattern.format.fill values⟩ :=
  decode_eq_some_iff.mpr
    ⟨pattern, isPattern, pattern.matchesWord_word values, (pattern.fields_word values).symm⟩

/-- No two words stand for the same instruction. -/
theorem decode_injective {left right : Word} {decoded : Decoded}
    (isLeft : decode left = some decoded) (isRight : decode right = some decoded) :
    left = right := by
  obtain ⟨pattern, isPattern, carriesLeft, fieldsLeft⟩ := decode_eq_some_iff.mp isLeft
  obtain ⟨other, isOther, carriesRight, fieldsRight⟩ := decode_eq_some_iff.mp isRight
  obtain rfl : pattern = other := Option.some.inj (isPattern.symm.trans isOther)
  rw [← Pattern.word_values carriesLeft, ← Pattern.word_values carriesRight,
    Format.values_eq_of_fields_eq (fieldsLeft.symm.trans fieldsRight)]

end RiscAssembler
