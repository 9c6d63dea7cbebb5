import RiscAssembler.Machine.Decoding
import RiscAssembler.Proofs.Assembly.Separate
import RiscAssembler.Proofs.Machine.Bits
import RiscAssembler.Proofs.Machine.RoundTrip
import RiscAssembler.Proofs.Token.Spelling

/-!
Contract: the words that can be assembled are the words that can be disassembled.

Owns:
- the words that some program text is assembled into, described by their bits alone;
- the tokens that the text of a decoded word is read as;
- the assembly of that text.

Main statement: `mem_lines_iff_encodable`.
-/

namespace RiscAssembler

/-! ### Words -/

/-- The words that carry the fixed bits of an instruction. All other bits are free. -/
def Word.Encodable (word : Word) : Prop :=
  (word.opcode = 0b0110011 ∧
    (word.funct7, word.funct3) ∈
      [(0b0000000, 0b000), (0b0100000, 0b000), (0b0000000, 0b100), (0b0000000, 0b110),
        (0b0000000, 0b111)]) ∨
  (word.opcode = 0b0010011 ∧ word.funct3 ∈ [0b000, 0b100, 0b110, 0b111]) ∨
  (word.opcode = 0b0000011 ∧ word.funct3 ∈ [0b000, 0b001, 0b010]) ∨
  (word.opcode = 0b0100011 ∧ word.funct3 ∈ [0b000, 0b001, 0b010]) ∨
  (word.opcode = 0b1100011 ∧ word.funct3 ∈ [0b000, 0b001]) ∨
  word.opcode = 0b0110111 ∨
  word.opcode = 0b1101111 ∨
  (word.opcode = 0b1010011 ∧ word.extractLsb' 25 2 = 0b00#2 ∧
    (word.extractLsb' 27 5, word.funct3) ∈
      [(0b00000, 0b000), (0b00001, 0b000), (0b00010, 0b000), (0b00011, 0b000), (0b00100, 0b001),
        (0b00101, 0b010), (0b00110, 0b000)])

theorem Word.funct7_eq_append_iff {word : Word} {high : BitVec 5} {low : BitVec 2} :
    word.funct7 = high ++ low ↔ word.extractLsb' 25 2 = low ∧ word.extractLsb' 27 5 = high := by
  have pieces : word.funct7 = word.extractLsb' 27 5 ++ word.extractLsb' 25 2 := by
    simp only [BitVec.extractLsb'_append_extractLsb'_eq_extractLsb']
    rfl
  rw [pieces]
  constructor
  · intro equal
    have upper := congrArg (BitVec.extractLsb' 2 5) equal
    have lower := congrArg (BitVec.extractLsb' 0 2) equal
    rw [BitVec.extractLsb'_append_eq_left, BitVec.extractLsb'_append_eq_left] at upper
    rw [BitVec.extractLsb'_append_eq_right, BitVec.extractLsb'_append_eq_right] at lower
    exact ⟨lower, upper⟩
  · rintro ⟨rfl, rfl⟩
    rfl

theorem Word.encodable_iff {word : Word} :
    word.Encodable ↔ ∃ mnemonic : Mnemonic, mnemonic.matchesWord word := by
  have listed : (∃ mnemonic : Mnemonic, mnemonic.matchesWord word) ↔
      ∃ mnemonic ∈ Mnemonic.all, mnemonic.matchesWord word :=
    ⟨fun ⟨mnemonic, carries⟩ => ⟨mnemonic, Mnemonic.mem_all mnemonic, carries⟩,
      fun ⟨mnemonic, _, carries⟩ => ⟨mnemonic, carries⟩⟩
  rw [listed]
  simp only [Word.Encodable, Mnemonic.all, List.mem_cons, List.not_mem_nil, or_false,
    exists_eq_or_imp, exists_eq_left, Mnemonic.matchesWord, Mnemonic.pattern?, Option.any_some,
    Option.any_none, Pattern.matchesWord, Bool.and_eq_true, decide_eq_true_eq, Prod.mk.injEq,
    Word.funct7_eq_append_iff]
  simp only [and_or_left, and_assoc, Bool.false_eq_true, false_or]
  -- what is left differs in the order of its parts only
  apply Iff.of_eq
  ac_rfl

theorem Instruction.encodable_of_encode {instruction : Instruction} {word : Word}
    (accepted : instruction.encode = .ok word) : word.Encodable := by
  obtain ⟨pattern, values, isPattern, _, rfl⟩ := Instruction.encode_eq_ok_iff.mp accepted
  exact Word.encodable_iff.mpr ⟨instruction.mnemonic,
    Mnemonic.matchesWord_iff.mpr ⟨pattern, isPattern, pattern.matchesWord_word values⟩⟩

/-- An output line of thirty-two digits is the word of an instruction. -/
theorem encodable_of_mem_lines {source text : String} {word : Word}
    (spelled : Word.ofBits? text = some word) (member : text ∈ (assemble source).lines) :
    word.Encodable := by
  have notError : text ≠ Instruction.errorLine := by
    rintro rfl
    cases spelled
  cases empty : source.isEmpty with
  | true =>
      simp [assemble, empty] at member
  | false =>
      rw [assemble_of_nonempty empty] at member
      obtain ⟨instruction, _, rfl⟩ := List.mem_map.mp member
      unfold Instruction.encodeLine at notError spelled
      split at notError
      · rename_i found accepted
        rw [accepted] at spelled
        obtain rfl : found = word := Option.some.inj ((Word.ofBits?_bits found).symm.trans spelled)
        exact Instruction.encodable_of_encode accepted
      · exact absurd rfl notError

/-! ### Tokens -/

/-- The number by which a register field is written; field zero is register thirty-two. -/
def registerNumber (field : BitVec 5) : Nat :=
  if field = 0 then 32 else field.toNat

def registerToken (field : BitVec 5) : Token :=
  ⟨.register (registerNumber field), String.ofList (registerName field), 1⟩

def integerToken (value : Int) : Token :=
  ⟨.immediate value, String.ofList (Text.signedDecimal value), 1⟩

/-- The tokens that the written operands of a decoded word are read as. -/
def Fields.tokens : Fields → List Token
  | r rd rs1 rs2 => [registerToken rd, registerToken rs1, registerToken rs2]
  | i rd rs1 immediate => [registerToken rd, registerToken rs1, integerToken immediate]
  | s rs1 rs2 immediate => [integerToken immediate, registerToken rs2, registerToken rs1]
  | b rs1 rs2 offset => [integerToken offset, registerToken rs2, registerToken rs1]
  | u rd immediate => [registerToken rd, integerToken immediate]
  | j rd offset => [registerToken rd, integerToken offset]
  | f rd rs1 rs2 => [registerToken rd, registerToken rs1, registerToken rs2]

/-- Fields whose immediate, if they have one, can be written. -/
def Fields.InRange (fields : Fields) : Prop :=
  ∀ value ∈ fields.immediate?, Numeral.inRange value

theorem inRange_toInt {width : Nat} (narrow : width ≤ 64) (field : BitVec width) :
    Numeral.inRange field.toInt := by
  have wide : (2 : Int) ^ (width - 1) ≤ 2 ^ 63 := by
    exact_mod_cast Nat.pow_le_pow_right (by decide : 0 < 2) (by omega : width - 1 ≤ 63)
  have lower := BitVec.le_toInt field
  have upper : field.toInt < 2 ^ (width - 1) := BitVec.toInt_lt
  rw [Numeral.inRange_iff]
  omega

theorem Fields.inRange_fields (format : Format) (word : Word) : (format.fields word).InRange := by
  intro value isImmediate
  cases format with
  | r | f => cases isImmediate
  | u =>
      obtain rfl := Option.some.inj isImmediate
      have upper := word.upperImmediate.isLt
      rw [Numeral.inRange_iff]
      omega
  | i | s | b | j =>
      obtain rfl := Option.some.inj isImmediate
      exact inRange_toInt (by decide) _

theorem Fields.operands_eq (fields : Fields) :
    fields.operands = fields.tokens.map (·.lexeme.toList) := by
  cases fields <;>
    simp only [operands, tokens, registerToken, integerToken, List.map_cons, List.map_nil,
      String.toList_ofList]

theorem spells_registerName (field : BitVec 5) :
    Spells (registerName field) (.register (registerNumber field)) := by
  -- thirty-two names on the first line stand for themselves on every line
  have checked : ∀ field : BitVec 5, Cursor.tokenHere (registerName field) 0 =
      .token ⟨.register (registerNumber field), String.ofList (registerName field), 0⟩ ⟨[], 0⟩ := by
    decide +kernel
  exact spells_of_here (checked field)

/-- A token as it stands on a line of its own among operands: by its spelling alone. -/
structure Token.Written (token : Token) : Prop where
  spells : Spells token.lexeme.toList token.kind
  line_eq : token.line = 1
  not_comma : token.kind ≠ .comma
  not_opcode : token.isOpcode = false

theorem registerToken_written (field : BitVec 5) : (registerToken field).Written where
  spells := by
    rw [registerToken, String.toList_ofList]
    exact spells_registerName field
  line_eq := rfl
  not_comma := nofun
  not_opcode := rfl

theorem integerToken_written {value : Int} (bounded : Numeral.inRange value) :
    (integerToken value).Written where
  spells := by
    rw [integerToken, String.toList_ofList]
    exact spells_signedDecimal bounded
  line_eq := rfl
  not_comma := nofun
  not_opcode := rfl

theorem Fields.tokens_written {fields : Fields} (inRange : fields.InRange) :
    ∀ token ∈ fields.tokens, token.Written := by
  cases fields with
  | r | f => simp [tokens, registerToken_written]
  | i | s | b | u | j =>
      simp [tokens, registerToken_written, integerToken_written (inRange _ rfl)]

/-! ### Assembly -/

theorem scan_text {decoded : Decoded} (inRange : decoded.fields.InRange) :
    (Cursor.start decoded.text).scan =
      (⟨.opcode decoded.mnemonic, decoded.mnemonic.name, 1⟩ ::
        decoded.fields.tokens.intersperse (commaOn 1)).map ScanItem.token := by
  have written := Fields.tokens_written inRange
  have scanned := scan_instruction (List.forall_mem_nil _) decoded.mnemonic
    (fun token member => ⟨(written token member).spells, (written token member).line_eq⟩)
    separated_nil
  rw [Cursor.scan_nil, List.append_nil, List.append_nil] at scanned
  rw [Cursor.start, Decoded.text, String.toList_ofList, Fields.operands_eq]
  exact scanned

theorem tokenize_text {decoded : Decoded} (inRange : decoded.fields.InRange) :
    (tokenize decoded.text).value =
        ⟨.opcode decoded.mnemonic, decoded.mnemonic.name, 1⟩ ::
          decoded.fields.tokens.intersperse (commaOn 1) ∧
      lexicalFaults decoded.text = [] := by
  have scanned := scan_text inRange
  exact ⟨(congrArg Scan.tokens scanned).trans (Scan.tokens_map_token _),
    (congrArg Scan.faults scanned).trans (Scan.faults_map_token _)⟩

/-- The text of a decoded word is parsed into one instruction. -/
theorem parse_text {decoded : Decoded} (inRange : decoded.fields.InRange) :
    (parse decoded.text).value = [⟨decoded.mnemonic, decoded.fields.tokens, 1⟩] := by
  have isComma : (commaOn 1).kind = .comma := rfl
  have plain : ∀ token ∈ decoded.fields.tokens, token.kind ≠ .comma ∧ token.isOpcode = false := by
    intro token member
    have written := Fields.tokens_written inRange token member
    exact ⟨written.not_comma, written.not_opcode⟩
  have divided : (parse decoded.text).value = (segments (tokenize decoded.text).value).2 := rfl
  rw [divided, (tokenize_text inRange).1, segments_separated isComma plain]

/-- The text of a decoded word is assembled without complaint into the word of its instruction. -/
theorem assemble_text {decoded : Decoded} (inRange : decoded.fields.InRange) {word : Word}
    (accepted : (Instruction.mk decoded.mnemonic decoded.fields.tokens 1).encode = .ok word) :
    (assemble decoded.text).lines = [word.bits] ∧ (assemble decoded.text).diagnostics = [] := by
  obtain ⟨tokens, noFault⟩ := tokenize_text inRange
  have found : (tokenize decoded.text).value ≠ [] ∨ lexicalFaults decoded.text ≠ [] := by
    rw [tokens]
    exact .inl (List.cons_ne_nil _ _)
  have opens : (tokenize decoded.text).value.head?.any Token.isOpcode := by
    rw [tokens]
    rfl
  have encoded : Instruction.encodeLine ⟨decoded.mnemonic, decoded.fields.tokens, 1⟩ =
      ⟨word.bits, []⟩ := by
    rw [Instruction.encodeLine, accepted]
  have raised : raisedDiagnostics decoded.text = [] := by
    rw [raisedDiagnostics, tokenize_diagnostics_of_found found, noFault,
      strayDiagnostics_of_opens opens, encodingDiagnostics, parse_text inRange,
      List.flatMap_singleton, encoded]
    rfl
  rw [assemble_of_nonempty (isEmpty_of_found found), parse_text inRange, raised]
  exact ⟨by rw [List.map_singleton, encoded], List.mergeSort_nil⟩

/-! ### Disassembly -/

theorem ofNat_registerNumber (field : BitVec 5) :
    BitVec.ofNat 5 (registerNumber field) = field := by
  unfold registerNumber
  split
  · rename_i zero
    rw [zero]
    rfl
  · exact BitVec.ofNat_toNat 5 field

theorem readAs_tokens (format : Format) (word : Word) :
    ReadAs format.operands (format.fields word).tokens (format.values word) := by
  cases format <;>
    simp [ReadAs, Format.fields, Fields.tokens, Format.values, registerToken, integerToken,
      OperandKind.read, ofNat_registerNumber]

theorem encode_tokens {mnemonic : Mnemonic} {pattern : Pattern}
    (isPattern : mnemonic.pattern? = some pattern) {word : Word}
    (carries : pattern.matchesWord word) :
    (Instruction.mk mnemonic (pattern.format.fields word).tokens 1).encode = .ok word :=
  Instruction.encode_eq_ok_iff.mpr ⟨pattern, pattern.format.values word, isPattern,
    readAs_tokens pattern.format word, Pattern.word_values carries⟩

/-- What is disassembled is assembled back, alone and without complaint. -/
theorem assemble_disassemble {word : Word} (encodable : word.Encodable) :
    ∃ program, disassemble word = some program ∧ (assemble program).lines = [word.bits] ∧
      (assemble program).diagnostics = [] := by
  obtain ⟨mnemonic, carriesMnemonic⟩ := Word.encodable_iff.mp encodable
  obtain ⟨pattern, isPattern, carries⟩ := Mnemonic.matchesWord_iff.mp carriesMnemonic
  have decoded : decode word = some ⟨mnemonic, pattern.format.fields word⟩ :=
    decode_eq_some_iff.mpr ⟨pattern, isPattern, carries, rfl⟩
  have inRange : (Decoded.mk mnemonic (pattern.format.fields word)).fields.InRange :=
    Fields.inRange_fields pattern.format word
  exact ⟨_, by rw [disassemble, decoded, Option.map_some],
    assemble_text inRange (encode_tokens isPattern carries)⟩

/-- Thirty-two binary digits occur among the output lines of some program text if and only if they
carry the fixed bits of an instruction, whatever their other digits. The disassembly of such digits
is assembled into them, alone and without complaint. -/
theorem mem_lines_iff_encodable {text : String} (width : text.toList.length = 32)
    (binary : ∀ digit ∈ text.toList, digit = '0' ∨ digit = '1') :
    ∃ word, Word.ofBits? text = some word ∧
      ((∃ source, text ∈ (assemble source).lines) ↔ word.Encodable) ∧
      (word.Encodable →
        ∃ program, disassemble word = some program ∧ (assemble program).lines = [text] ∧
          (assemble program).diagnostics = []) := by
  obtain ⟨word, spelled⟩ := Word.exists_ofBits? width binary
  obtain rfl : word.bits = text := Word.bits_of_ofBits? spelled
  refine ⟨word, spelled, ⟨?_, fun encodable => ?_⟩, assemble_disassemble⟩
  · rintro ⟨source, member⟩
    exact encodable_of_mem_lines spelled member
  · obtain ⟨program, _, lines, _⟩ := assemble_disassemble encodable
    exact ⟨program, by rw [lines]; exact List.mem_singleton_self _⟩

/-- A subtraction into the register that the field zero stands for. -/
theorem mem_lines_of_register_zero :
    Word.bits 0x40310033#32 = "01000000001100010000000000110011" ∧
      ∃ program, disassemble 0x40310033#32 = some program ∧
        (assemble program).lines = ["01000000001100010000000000110011"] ∧
        (assemble program).diagnostics = [] := by
  have digits : Word.bits 0x40310033#32 = "01000000001100010000000000110011" := by decide +kernel
  obtain ⟨word, spelled, _, assembled⟩ := mem_lines_iff_encodable
    (Word.length_bits 0x40310033#32) (Word.binary_bits 0x40310033#32)
  obtain rfl : 0x40310033#32 = word := Option.some.inj ((Word.ofBits?_bits _).symm.trans spelled)
  rw [digits] at assembled
  exact ⟨digits, assembled (.inl (by decide))⟩

end RiscAssembler
