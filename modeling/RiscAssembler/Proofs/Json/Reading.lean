import RiscAssembler.Json.Value
import RiscAssembler.Proofs.Json.Symbols

/-!
Contract: a JSON value without floating-point numbers is read back from its text.

Owns:
- the symbols of a value, which its compact and its indented text both spell;
- the value that its symbols come to, within any open containers.

The two texts differ in their blanks alone, so they have one list of symbols between them. A
floating-point number has none: what is printed for it, such as an exponent, is no integer.

Main statements: `Value.ofText?_compact` and `Value.ofText?_indented`, each also with a line feed at
the end of the text.
-/

namespace RiscAssembler.Json

/-- A value in which no number is a floating-point number. -/
inductive Value.FloatFree : Value → Prop where
  | null : FloatFree .null
  | integer (value : Int) : FloatFree (.integer value)
  | string (text : String) : FloatFree (.string text)
  | array {items : List Value} (each : ∀ item ∈ items, FloatFree item) : FloatFree (.array items)
  | object {fields : List (String × Value)} (each : ∀ field ∈ fields, FloatFree field.2) :
      FloatFree (.object fields)

attribute [simp] Value.FloatFree.null Value.FloatFree.integer Value.FloatFree.string

/-! ### Symbols -/

mutual

def Value.symbols : Value → List Symbol
  | .array items => .openBracket :: [.comma].intercalate (itemSymbols items) ++ [.closeBracket]
  | .object fields => .openBrace :: [.comma].intercalate (fieldSymbols fields) ++ [.closeBrace]
  | scalar => [.scalar scalar]

def itemSymbols : List Value → List (List Symbol)
  | [] => []
  | item :: rest => item.symbols :: itemSymbols rest

def fieldSymbols : List (String × Value) → List (List Symbol)
  | [] => []
  | (key, value) :: rest => (.scalar (.string key) :: .colon :: value.symbols) :: fieldSymbols rest

end

/-! ### What the texts spell -/

section Texts

variable {items : List Value} {fields : List (String × Value)}

theorem spells_compactItems (each : ∀ item ∈ items, Spells (compactText item) item.symbols) :
    List.Forall₂ Spells (compactItems items) (itemSymbols items) := by
  induction items with
  | nil => exact .nil
  | cons item items inductionHypothesis =>
      rw [List.forall_mem_cons] at each
      exact .cons each.1 (inductionHypothesis each.2)

theorem spells_compactFields
    (each : ∀ field ∈ fields, Spells (compactText field.2) field.2.symbols) :
    List.Forall₂ Spells (compactFields fields) (fieldSymbols fields) := by
  induction fields with
  | nil => exact .nil
  | cons field fields inductionHypothesis =>
      rw [List.forall_mem_cons] at each
      exact .cons (.quoted_append field.1 (.punctuation_cons rfl each.1))
        (inductionHypothesis each.2)

theorem spells_indentedItems {level : Nat}
    (each : ∀ item ∈ items, Spells (indentedText level item) item.symbols) :
    List.Forall₂ Spells (indentedItems level items) (itemSymbols items) := by
  induction items with
  | nil => exact .nil
  | cons item items inductionHypothesis =>
      rw [List.forall_mem_cons] at each
      exact .cons each.1 (inductionHypothesis each.2)

theorem spells_indentedFields {level : Nat}
    (each : ∀ field ∈ fields, Spells (indentedText level field.2) field.2.symbols) :
    List.Forall₂ Spells (indentedFields level fields) (fieldSymbols fields) := by
  induction fields with
  | nil => exact .nil
  | cons field fields inductionHypothesis =>
      rw [List.forall_mem_cons] at each
      exact .cons (.quoted_append field.1 (.punctuation_cons rfl (.blank_cons rfl each.1)))
        (inductionHypothesis each.2)

end Texts

section Containers

variable {opening closing : Char} {openSymbol closeSymbol : Symbol} {parts : List (List Char)}
  {partSymbols : List (List Symbol)}
  (opens : punctuation? opening = some openSymbol)
  (closes : punctuation? closing = some closeSymbol)
  (each : List.Forall₂ Spells parts partSymbols)
include opens closes each

/-- A container without blanks. -/
theorem spells_listed :
    Spells (opening :: [','].intercalate parts ++ [closing])
      (openSymbol :: [.comma].intercalate partSymbols ++ [closeSymbol]) := by
  have noBlanks : ∀ character ∈ [], isBlank character := by simp
  simpa using Spells.container noBlanks noBlanks closes opens each

/-- A container with its parts on lines of their own. -/
theorem spells_enclosed (level : Nat) :
    Spells (enclosed level opening closing parts)
      (openSymbol :: [.comma].intercalate partSymbols ++ [closeSymbol]) := by
  unfold enclosed
  split
  case isTrue empty =>
    rw [List.isEmpty_iff] at empty
    subst empty
    exact spells_listed opens closes each
  case isFalse =>
    have blank (level : Nat) : ∀ character ∈ lineBreak level, isBlank character := by
      intro character member
      rcases List.mem_cons.mp member with rfl | space
      · rfl
      · rw [List.eq_of_mem_replicate space]
        rfl
    exact Spells.container (blank (level + 1)) (blank level) closes opens each

end Containers

theorem spells_compactText {value : Value} (floatFree : value.FloatFree) :
    Spells (compactText value) value.symbols := by
  induction floatFree with
  | null => exact .null
  | integer value => exact .integer value
  | string text => exact .string text
  | array each inductionHypothesis =>
      exact spells_listed rfl rfl (spells_compactItems inductionHypothesis)
  | object each inductionHypothesis =>
      exact spells_listed rfl rfl (spells_compactFields inductionHypothesis)

theorem spells_indentedText {value : Value} (floatFree : value.FloatFree) (level : Nat) :
    Spells (indentedText level value) value.symbols := by
  induction floatFree generalizing level with
  | null => exact .null
  | integer value => exact .integer value
  | string text => exact .string text
  | array each inductionHypothesis =>
      have items := spells_indentedItems fun item member =>
        inductionHypothesis item member (level + 1)
      exact spells_enclosed rfl rfl items level
  | object each inductionHypothesis =>
      have fields := spells_indentedFields fun field member =>
        inductionHypothesis field member (level + 1)
      exact spells_enclosed rfl rfl fields level

/-! ### What the symbols come to -/

/-- A value that may be read back: wherever a value may start, its symbols are read as it. -/
def Value.IsRead (value : Value) : Prop :=
  ∀ frames rest, beforeValue frames (value.symbols ++ rest) = afterValue value frames rest

theorem Value.symbols_head (value : Value) :
    value.symbols = [.scalar value] ∨ (∃ rest, value.symbols = .openBracket :: rest) ∨
      ∃ rest, value.symbols = .openBrace :: rest := by
  cases value with
  | array items => exact .inr (.inl ⟨_, rfl⟩)
  | object fields => exact .inr (.inr ⟨_, rfl⟩)
  | null | integer | float | string => exact .inl rfl

/-- The symbols of a value do not close the array that they stand in. -/
theorem Value.symbols_append_ne_closeBracket (value : Value) (tail rest : List Symbol) :
    value.symbols ++ tail ≠ .closeBracket :: rest := by
  rcases value.symbols_head with scalar | ⟨_, bracket⟩ | ⟨_, brace⟩
  · simp [scalar]
  · simp [bracket]
  · simp [brace]

/-- The symbols of an item are not taken for the key of a field, as no colon stands behind them. -/
theorem Value.symbols_append_ne_key (value : Value) {tail : List Symbol}
    (notColon : ∀ rest, tail ≠ .colon :: rest) (key : String) (rest : List Symbol) :
    value.symbols ++ tail ≠ .scalar (.string key) :: .colon :: rest := by
  rcases value.symbols_head with scalar | ⟨_, bracket⟩ | ⟨_, brace⟩
  · simp [scalar, notColon]
  · simp [bracket]
  · simp [brace]

/-- Behind an item of an open array: the other items, each with a comma before it, and the end. -/
theorem afterValue_items {item : Value} {items earlier : List Value} {frames : List Frame}
    {rest : List Symbol} (each : ∀ other ∈ items, other.IsRead) :
    afterValue item (.array earlier :: frames)
        ((itemSymbols items).flatMap (.comma :: ·) ++ .closeBracket :: rest) =
      afterValue (.array ((item :: earlier).reverse ++ items)) frames rest := by
  induction items generalizing item earlier with
  | nil => rw [itemSymbols, List.flatMap_nil, List.nil_append, afterValue, List.append_nil]
  | cons next items inductionHypothesis =>
      rw [List.forall_mem_cons] at each
      have isRead := each.1
      -- behind an item there is a comma or the end, so a string among the items is not a key
      have notColon : ∀ more,
          (itemSymbols items).flatMap (.comma :: ·) ++ .closeBracket :: rest ≠ .colon :: more := by
        cases items with
        | nil => simp [itemSymbols]
        | cons => simp [itemSymbols]
      simp only [itemSymbols, List.flatMap_cons, List.cons_append, List.append_assoc]
      rw [afterValue, isRead, inductionHypothesis each.2, List.reverse_cons, List.append_assoc]
      · rfl
      · exact next.symbols_append_ne_key notColon

/-- Behind a field of an open object: the other fields, each with a comma before it, and the end. -/
theorem afterValue_fields {key : String} {value : Value} {fields earlier : List (String × Value)}
    {frames : List Frame} {rest : List Symbol} (each : ∀ field ∈ fields, field.2.IsRead) :
    afterValue value (.object earlier key :: frames)
        ((fieldSymbols fields).flatMap (.comma :: ·) ++ .closeBrace :: rest) =
      afterValue (.object (((key, value) :: earlier).reverse ++ fields)) frames rest := by
  induction fields generalizing key value earlier with
  | nil => rw [fieldSymbols, List.flatMap_nil, List.nil_append, afterValue, List.append_nil]
  | cons field fields inductionHypothesis =>
      rw [List.forall_mem_cons] at each
      have isRead := each.1
      simp only [fieldSymbols, List.flatMap_cons, List.cons_append, List.append_assoc]
      rw [afterValue, isRead, inductionHypothesis each.2, List.reverse_cons, List.append_assoc]
      rfl

theorem intercalate_cons {Item : Type} (separator first : List Item) (parts : List (List Item)) :
    separator.intercalate (first :: parts) = first ++ parts.flatMap (separator ++ ·) := by
  induction parts generalizing first with
  | nil => simp
  | cons part parts inductionHypothesis =>
      rw [List.intercalate_cons_cons, inductionHypothesis, List.flatMap_cons, List.append_assoc,
        List.append_assoc]

theorem isRead_array {items : List Value} (each : ∀ item ∈ items, item.IsRead) :
    (Value.array items).IsRead := by
  intro frames rest
  cases items with
  | nil => rfl
  | cons item items =>
      rw [List.forall_mem_cons] at each
      have isRead := each.1
      simp only [Value.symbols, itemSymbols, intercalate_cons, List.cons_append, List.append_assoc,
        List.nil_append]
      rw [beforeValue, isRead, afterValue_items each.2]
      · rfl
      · exact item.symbols_append_ne_closeBracket _

theorem isRead_object {fields : List (String × Value)} (each : ∀ field ∈ fields, field.2.IsRead) :
    (Value.object fields).IsRead := by
  intro frames rest
  cases fields with
  | nil => rfl
  | cons field fields =>
      rw [List.forall_mem_cons] at each
      have isRead := each.1
      simp only [Value.symbols, fieldSymbols, intercalate_cons, List.cons_append, List.append_assoc,
        List.nil_append]
      rw [beforeValue, isRead, afterValue_fields each.2]
      rfl

theorem Value.FloatFree.isRead {value : Value} (floatFree : value.FloatFree) : value.IsRead := by
  induction floatFree with
  | null | integer | string => exact fun _ _ => rfl
  | array each inductionHypothesis => exact isRead_array inductionHypothesis
  | object each inductionHypothesis => exact isRead_object inductionHypothesis

namespace Value

theorem FloatFree.ofText?_of_spells {value : Value} {text : List Char}
    (floatFree : value.FloatFree) (spells : Spells text value.symbols) :
    ofText? (String.ofList text) = some value := by
  have alone : beforeValue [] value.symbols = some value := by
    have isRead := floatFree.isRead [] []
    rw [List.append_nil] at isRead
    exact isRead
  rw [ofText?, String.toList_ofList, spells.symbols?_eq]
  exact alone

/-- A line feed at the end of a text is no part of the value. -/
theorem FloatFree.ofText?_line_of_spells {value : Value} {text : List Char}
    (floatFree : value.FloatFree) (spells : Spells text value.symbols) :
    ofText? (String.ofList text ++ "\n") = some value := by
  have blank : ∀ character ∈ ['\n'], isBlank character := by simp [isBlank]
  rw [show "\n" = String.ofList ['\n'] from rfl, ← String.ofList_append]
  exact floatFree.ofText?_of_spells (spells.append_blanks blank)

/-- A value without floating-point numbers is read back from its compact text. -/
theorem ofText?_compact {value : Value} (floatFree : value.FloatFree) :
    ofText? value.compact = some value :=
  floatFree.ofText?_of_spells (spells_compactText floatFree)

/-- A value without floating-point numbers is read back from its indented text. -/
theorem ofText?_indented {value : Value} (floatFree : value.FloatFree) :
    ofText? value.indented = some value :=
  floatFree.ofText?_of_spells (spells_indentedText floatFree 0)

theorem ofText?_compact_line {value : Value} (floatFree : value.FloatFree) :
    ofText? (value.compact ++ "\n") = some value :=
  floatFree.ofText?_line_of_spells (spells_compactText floatFree)

theorem ofText?_indented_line {value : Value} (floatFree : value.FloatFree) :
    ofText? (value.indented ++ "\n") = some value :=
  floatFree.ofText?_line_of_spells (spells_indentedText floatFree 0)

end Value

end RiscAssembler.Json
