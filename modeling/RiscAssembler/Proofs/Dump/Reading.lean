import RiscAssembler.Dump.Reader
import RiscAssembler.Proofs.Diagnostic.Reading
import RiscAssembler.Proofs.Json.Reading

/-!
Contract: dumps of diagnostics, tokens and instructions are read back, as values and as texts.

Owns:
- diagnostics, tokens and instructions out of the JSON values that are made of them;
- lists of them out of a JSON array;
- the lists whose values print without floating-point numbers, out of compact and indented text,
  also with a line feed at the end.

Does not own: floating-point immediates in text, which print as numbers that the reader leaves out.

Main statement: `dumps_read_back`.
-/

namespace RiscAssembler

/-! ### Values -/

@[simp] theorem lineOfJson?_integer (line : Nat) : lineOfJson? (.integer line) = some line := by
  rw [lineOfJson?, if_pos (Int.natCast_nonneg line), Int.toNat_natCast]

@[simp] theorem TokenKind.ofJson?_toJson (kind : TokenKind) : ofJson? kind.toJson = some kind := by
  cases kind with
  | opcode mnemonic => rw [toJson, ofJson?, Mnemonic.ofName?_name, Option.map_some]
  | register number =>
      rw [toJson, ofJson?, if_pos (Int.natCast_nonneg number), Int.toNat_natCast]
  | immediate | floatImmediate | leftParenthesis | rightParenthesis | comma => rfl

@[simp] theorem Token.ofJson?_toJson (token : Token) : ofJson? token.toJson = some token := by
  simp [toJson, ofJson?]

@[simp] theorem Diagnostic.ofJson?_toJson (diagnostic : Diagnostic) :
    ofJson? diagnostic.toJson = some diagnostic := by
  simp [toJson, ofJson?]

section Lists

variable {Item : Type} {read : Json.Value → Option Item} {print : Item → Json.Value}
  (inverse : ∀ item, read (print item) = some item) (items : List Item)
include inverse

theorem mapM_map_of_inverse : (items.map print).mapM read = some items := by
  apply mapM_eq_some_of_map_eq
  rw [List.map_map]
  exact List.map_congr_left fun item _ => inverse item

theorem Dump.items?_array : items? read (.array (items.map print)) = some items :=
  mapM_map_of_inverse inverse items

/-- A list is read back from any text out of which the array of its items is read. -/
theorem Dump.list?_of_ofText? {text : String}
    (found : Json.Value.ofText? text = some (.array (items.map print))) :
    list? read text = some items := by
  rw [list?, found]
  exact items?_array inverse items

end Lists

@[simp] theorem Instruction.ofJson?_toJson (instruction : Instruction) :
    ofJson? instruction.toJson = some instruction := by
  have operands := mapM_map_of_inverse Token.ofJson?_toJson instruction.operands
  simp [toJson, ofJson?, Mnemonic.ofName?_name, operands]

/-! ### Values without floating-point numbers -/

/-- A token that is no floating-point immediate. -/
def Token.FloatFree (token : Token) : Prop :=
  ∀ value, token.kind ≠ .floatImmediate value

/-- An instruction without floating-point immediates among its operands. -/
def Instruction.FloatFree (instruction : Instruction) : Prop :=
  ∀ operand ∈ instruction.operands, operand.FloatFree

theorem Json.Value.floatFree_array_map {print : Item → Json.Value} {items : List Item}
    (each : ∀ item ∈ items, (print item).FloatFree) :
    (Json.Value.array (items.map print)).FloatFree :=
  .array (List.forall_mem_map.mpr each)

theorem TokenKind.floatFree_toJson {kind : TokenKind}
    (floatFree : ∀ value, kind ≠ .floatImmediate value) : kind.toJson.FloatFree := by
  cases kind with
  | floatImmediate value => exact absurd rfl (floatFree value)
  | opcode | register | immediate => exact .object (by simp)
  | leftParenthesis | rightParenthesis | comma => exact .string _

theorem Token.floatFree_toJson {token : Token} (floatFree : token.FloatFree) :
    token.toJson.FloatFree :=
  .object (by simp [TokenKind.floatFree_toJson floatFree])

theorem Diagnostic.floatFree_toJson (diagnostic : Diagnostic) : diagnostic.toJson.FloatFree :=
  .object (by simp)

theorem Instruction.floatFree_toJson {instruction : Instruction}
    (floatFree : instruction.FloatFree) : instruction.toJson.FloatFree := by
  have operands := Json.Value.floatFree_array_map fun operand member =>
    Token.floatFree_toJson (floatFree operand member)
  exact .object (by simp [operands])

/-! ### Dumps -/

namespace Dump

theorem diagnostics_floatFree (list : List Diagnostic) : (diagnostics list).FloatFree :=
  Json.Value.floatFree_array_map fun diagnostic _ => diagnostic.floatFree_toJson

theorem diagnostics?_compact (list : List Diagnostic) :
    diagnostics? (diagnostics list).compact = some list :=
  list?_of_ofText? Diagnostic.ofJson?_toJson list
    (Json.Value.ofText?_compact (diagnostics_floatFree list))

theorem diagnostics?_compact_line (list : List Diagnostic) :
    diagnostics? ((diagnostics list).compact ++ "\n") = some list :=
  list?_of_ofText? Diagnostic.ofJson?_toJson list
    (Json.Value.ofText?_compact_line (diagnostics_floatFree list))

section Tokens

variable {list : List Token} (floatFree : ∀ token ∈ list, token.FloatFree)
include floatFree

theorem tokens_floatFree : (tokens list).FloatFree :=
  Json.Value.floatFree_array_map fun token member => Token.floatFree_toJson (floatFree token member)

theorem tokens?_compact : tokens? (tokens list).compact = some list :=
  list?_of_ofText? Token.ofJson?_toJson list
    (Json.Value.ofText?_compact (tokens_floatFree floatFree))

theorem tokens?_indented : tokens? (tokens list).indented = some list :=
  list?_of_ofText? Token.ofJson?_toJson list
    (Json.Value.ofText?_indented (tokens_floatFree floatFree))

theorem tokens?_indented_line : tokens? ((tokens list).indented ++ "\n") = some list :=
  list?_of_ofText? Token.ofJson?_toJson list
    (Json.Value.ofText?_indented_line (tokens_floatFree floatFree))

end Tokens

section Instructions

variable {list : List Instruction} (floatFree : ∀ instruction ∈ list, instruction.FloatFree)
include floatFree

theorem instructions_floatFree : (instructions list).FloatFree :=
  Json.Value.floatFree_array_map fun instruction member =>
    Instruction.floatFree_toJson (floatFree instruction member)

theorem instructions?_compact : instructions? (instructions list).compact = some list :=
  list?_of_ofText? Instruction.ofJson?_toJson list
    (Json.Value.ofText?_compact (instructions_floatFree floatFree))

theorem instructions?_indented : instructions? (instructions list).indented = some list :=
  list?_of_ofText? Instruction.ofJson?_toJson list
    (Json.Value.ofText?_indented (instructions_floatFree floatFree))

theorem instructions?_indented_line :
    instructions? ((instructions list).indented ++ "\n") = some list :=
  list?_of_ofText? Instruction.ofJson?_toJson list
    (Json.Value.ofText?_indented_line (instructions_floatFree floatFree))

end Instructions

/-- Lists that are read back from one text are one list. -/
theorem eq_of_read {Item : Type} {read : String → Option (List Item)} {first second : List Item}
    {firstText secondText : String} (readFirst : read firstText = some first)
    (readSecond : read secondText = some second) (sameText : firstText = secondText) :
    first = second := by
  rw [sameText, readSecond] at readFirst
  exact (Option.some.inj readFirst).symm

end Dump

/-- Dumps are read back. Every list of diagnostics is read back from its compact text, and every
list of tokens or instructions without floating-point immediates from its compact and from its
indented text, whatever the messages and spellings hold and whatever the numbers are. So distinct
lists never print as the same text. -/
theorem dumps_read_back :
    (∀ list : List Diagnostic, Dump.diagnostics? (Dump.diagnostics list).compact = some list) ∧
      (∀ list : List Token, (∀ token ∈ list, token.FloatFree) →
        Dump.tokens? (Dump.tokens list).compact = some list ∧
          Dump.tokens? (Dump.tokens list).indented = some list) ∧
      (∀ list : List Instruction, (∀ instruction ∈ list, instruction.FloatFree) →
        Dump.instructions? (Dump.instructions list).compact = some list ∧
          Dump.instructions? (Dump.instructions list).indented = some list) ∧
      (∀ first second : List Diagnostic,
        (Dump.diagnostics first).compact = (Dump.diagnostics second).compact → first = second) ∧
      (∀ first second : List Token, (∀ token ∈ first, token.FloatFree) →
        (∀ token ∈ second, token.FloatFree) →
        ((Dump.tokens first).compact = (Dump.tokens second).compact ∨
          (Dump.tokens first).indented = (Dump.tokens second).indented) → first = second) ∧
      ∀ first second : List Instruction, (∀ instruction ∈ first, instruction.FloatFree) →
        (∀ instruction ∈ second, instruction.FloatFree) →
        ((Dump.instructions first).compact = (Dump.instructions second).compact ∨
          (Dump.instructions first).indented = (Dump.instructions second).indented) →
        first = second := by
  refine ⟨Dump.diagnostics?_compact,
    fun list floatFree => ⟨Dump.tokens?_compact floatFree, Dump.tokens?_indented floatFree⟩,
    fun list floatFree =>
      ⟨Dump.instructions?_compact floatFree, Dump.instructions?_indented floatFree⟩, ?_, ?_, ?_⟩
  · intro first second sameText
    exact Dump.eq_of_read (Dump.diagnostics?_compact first) (Dump.diagnostics?_compact second)
      sameText
  · intro first second firstFree secondFree sameText
    rcases sameText with compact | indented
    · exact Dump.eq_of_read (Dump.tokens?_compact firstFree) (Dump.tokens?_compact secondFree)
        compact
    · exact Dump.eq_of_read (Dump.tokens?_indented firstFree) (Dump.tokens?_indented secondFree)
        indented
  · intro first second firstFree secondFree sameText
    rcases sameText with compact | indented
    · exact Dump.eq_of_read (Dump.instructions?_compact firstFree)
        (Dump.instructions?_compact secondFree) compact
    · exact Dump.eq_of_read (Dump.instructions?_indented firstFree)
        (Dump.instructions?_indented secondFree) indented

/-- The least immediate, and a spelling with a quote, a backslash and control characters. -/
theorem dumps_read_back_escapes :
    (⟨.immediate (-9223372036854775808), "\"\\\n\x01\u2028", 0⟩ : Token).FloatFree ∧
      Dump.tokens? (Dump.tokens
        [⟨.immediate (-9223372036854775808), "\"\\\n\x01\u2028", 0⟩]).indented =
          some [⟨.immediate (-9223372036854775808), "\"\\\n\x01\u2028", 0⟩] := by
  have floatFree :
      (⟨.immediate (-9223372036854775808), "\"\\\n\x01\u2028", 0⟩ : Token).FloatFree := by
    simp [Token.FloatFree]
  have everyFree := List.forall_mem_singleton.mpr floatFree
  exact ⟨floatFree, (dumps_read_back.2.1 _ everyFree).2⟩

end RiscAssembler
