import RiscAssembler.Excerpt
import RiscAssembler.Proofs.Terminal.Style
import RiscAssembler.Proofs.Text.Digits
import RiscAssembler.Proofs.Token.Separation

/-!
Contract: the rows of an excerpt are aligned.

Owns:
- the white space at the ends of a text and what lies between, as a relation;
- the place at which the bytes of a text are cut behind its indent;
- the rows of an excerpt, with gutters of one width and carets below the text;
- the rendering with colours, compared with the one without.

Does not own: how wide a terminal shows a character. Widths are numbers of characters.

Main statement: `render_aligned`.
-/

namespace RiscAssembler

/-! ### White space at the ends -/

namespace Text

/-- A text is the white space in front, what lies between, and the white space behind. A text of
white space alone is all in front. -/
structure Trims (text lead core tail : List Char) : Prop where
  whole : text = lead ++ core ++ tail
  lead_blank : ∀ character ∈ lead, isWhiteSpace character
  tail_blank : ∀ character ∈ tail, isWhiteSpace character
  first_visible : ∀ character ∈ (core ++ tail).head?, isWhiteSpace character = false
  last_visible : ∀ character ∈ core.getLast?, isWhiteSpace character = false

theorem Trims.core_ne_nil {text lead core tail : List Char} (trims : Trims text lead core tail)
    (visible : ∃ character ∈ text, isWhiteSpace character = false) : core ≠ [] := by
  intro nothing
  obtain ⟨character, member, isVisible⟩ := visible
  rw [trims.whole, nothing, List.append_nil, List.mem_append] at member
  have blank : isWhiteSpace character = true :=
    member.elim (trims.lead_blank character) (trims.tail_blank character)
  rw [isVisible] at blank
  cases blank

/-- The white space behind a text. -/
def trailing (text : List Char) : List Char :=
  (text.reverse.takeWhile isWhiteSpace).reverse

theorem trimEnd_append_trailing (text : List Char) : trimEnd text ++ trailing text = text := by
  rw [trimEnd, trailing, ← List.reverse_append, List.takeWhile_append_dropWhile,
    List.reverse_reverse]

theorem trims (text : List Char) :
    Trims text (indent text) (trim text) (trailing (trimStart text)) := by
  have between : trim text ++ trailing (trimStart text) = trimStart text :=
    trimEnd_append_trailing (trimStart text)
  constructor
  · rw [List.append_assoc, between, indent_append_trimStart]
  · exact fun _ => of_mem_takeWhile
  · intro character member
    exact of_mem_takeWhile (List.mem_reverse.mp member)
  · rw [between]
    exact head?_dropWhile_eq_false
  · rw [trim, trimEnd, List.getLast?_reverse]
    exact head?_dropWhile_eq_false

/-- The bytes of a text that are not those of the text without its indent end between two
characters, and they are those of the indent. -/
theorem exists_boundary (text : List Char) :
    ∃ boundary : (String.ofList text).Pos,
      boundary.offset.byteIdx =
          (String.ofList text).utf8ByteSize - (String.ofList (trimStart text)).utf8ByteSize ∧
        ((String.ofList text).sliceTo boundary).copy = String.ofList (indent text) := by
  have whole : String.ofList text =
      String.ofList (indent text) ++ String.ofList (trimStart text) := by
    rw [← String.ofList_append, indent_append_trimStart]
  have size : (String.ofList text).utf8ByteSize =
      (String.ofList (indent text)).utf8ByteSize + (String.ofList (trimStart text)).utf8ByteSize :=
    whole ▸ String.utf8ByteSize_append
  have valid : (String.ofList (indent text)).rawEndPos.IsValid (String.ofList text) :=
    String.Pos.Raw.isValid_iff_exists_append.mpr ⟨_, _, whole, rfl⟩
  refine ⟨⟨_, valid⟩, ?_, ?_⟩
  · rw [size, Nat.add_sub_cancel]
    rfl
  · exact String.Pos.Splits.copy_sliceTo_eq ⟨whole, rfl⟩

theorem line?_eq_none {text : List Char} {number : Nat}
    (outside : number = 0 ∨ (lines text).length < number) : line? text number = none := by
  rw [line?]
  split
  · rfl
  · exact List.getElem?_eq_none (by omega)

end Text

namespace Excerpt

open Terminal

/-! ### Gutters -/

/-- The part of a row up to and including its first bar. -/
def IsGutter (stretch : List Char) : Prop :=
  ∃ label, stretch = label ++ ['|'] ∧ '|' ∉ label

theorem isGutter_gutter (line : Nat) {label : List Char} (noBar : '|' ∉ label) :
    IsGutter (gutter line label) := by
  refine ⟨alignRight (columnWidth line) label ++ [' '], ?_, ?_⟩
  · rw [gutter, List.append_assoc]
    rfl
  · simp [alignRight, noBar]

theorem length_gutter {line : Nat} {label : List Char} (fits : label.length ≤ columnWidth line) :
    (gutter line label).length = columnWidth line + 2 := by
  rw [gutter, alignRight, List.length_append, List.length_append, List.length_replicate,
    Nat.sub_add_cancel fits]
  rfl

theorem not_bar_of_mem_decimal (number : Nat) : '|' ∉ Text.decimal number := by
  intro member
  exact Bool.false_ne_true (Text.isDigit_of_mem_decimal member)

theorem length_decimal_le_columnWidth (line : Nat) :
    (Text.decimal line).length ≤ columnWidth line :=
  Nat.le_max_right _ _

/-! ### Rows -/

/-- The gutters of the three rows of an excerpt, and the parts of the line that it shows. -/
structure Rows where
  above : List Char
  beside : List Char
  below : List Char
  lead : List Char
  core : List Char
  tail : List Char

namespace Rows

def carets (rows : Rows) : List Char :=
  List.replicate (max 1 rows.core.length) '^'

/-- The row with the source line. -/
def shown (rows : Rows) (text : List Char) : List Char :=
  rows.beside ++ ' ' :: text

/-- The row below it, which repeats the white space in front of the line. -/
def underlined (rows : Rows) : List Char :=
  rows.below ++ ' ' :: (rows.lead ++ rows.carets)

def block (rows : Rows) (text : List Char) : List Char :=
  rows.above ++ '\n' :: (rows.shown text ++ '\n' :: (rows.underlined ++ ['\n']))

/-- The place in the row of the source line at which its text starts. -/
def start (rows : Rows) : Nat :=
  rows.beside.length + 1 + rows.lead.length

/-- The rows fit a line and its number. -/
structure Aligned (rows : Rows) (line : Nat) (text : List Char) : Prop where
  gutter_above : IsGutter rows.above
  gutter_beside : IsGutter rows.beside
  gutter_below : IsGutter rows.below
  width_above : rows.above.length = rows.beside.length
  width_below : rows.below.length = rows.beside.length
  blank_above : ∃ blanks, rows.above = List.replicate blanks ' ' ++ ['|']
  number : ∃ blanks, rows.beside = List.replicate blanks ' ' ++ Text.decimal line ++ [' ', '|']
  blank_below : ∃ blanks, rows.below = List.replicate blanks ' ' ++ ['|']
  trims : Text.Trims text rows.lead rows.core rows.tail

section Aligned

variable {rows : Rows} {line : Nat} {text : List Char} (aligned : rows.Aligned line text)
include aligned

theorem Aligned.core_at_start : ((rows.shown text).drop rows.start).take rows.core.length =
    rows.core := by
  have parts : rows.shown text =
      (rows.beside ++ [' '] ++ rows.lead) ++ (rows.core ++ rows.tail) := by
    rw [shown, aligned.trims.whole]
    simp
  have width : rows.start = (rows.beside ++ [' '] ++ rows.lead).length := by
    simp only [start, List.length_append, List.length_singleton]
  rw [parts, width, List.drop_left, List.take_left]

/-- Each caret stands below a character of the text, and no other caret is in the row. -/
theorem Aligned.caret_iff (visible : rows.core ≠ []) (place : Nat) :
    rows.underlined[place]? = some '^' ↔
      rows.start ≤ place ∧ place < rows.start + rows.core.length := by
  have parts : rows.underlined = (rows.below ++ [' '] ++ rows.lead) ++ rows.carets := by
    rw [underlined]
    simp
  have width : rows.start = (rows.below ++ [' '] ++ rows.lead).length := by
    simp only [start, List.length_append, List.length_singleton, aligned.width_below]
  have many : max 1 rows.core.length = rows.core.length :=
    Nat.max_eq_right (List.length_pos_iff.mpr visible)
  have blank : ¬ Text.isWhiteSpace '^' := by
    decide
  have none_before : '^' ∉ rows.below ++ [' '] ++ rows.lead := by
    obtain ⟨blanks, isBlank⟩ := aligned.blank_below
    simp only [isBlank, List.mem_append, List.mem_replicate, not_or]
    exact ⟨⟨⟨by simp, by decide⟩, by decide⟩,
      fun member => blank (aligned.trims.lead_blank _ member)⟩
  rw [parts, width, carets, many]
  generalize rows.below ++ [' '] ++ rows.lead = before at none_before
  by_cases inside : before.length ≤ place
  · rw [List.getElem?_append_right inside, List.getElem?_replicate]
    split
    · simp only [true_iff]
      omega
    · simp only [reduceCtorEq, false_iff]
      omega
  · rw [List.getElem?_append_left (by omega)]
    constructor
    · intro found
      exact absurd (List.mem_of_getElem? found) none_before
    · intro within
      omega

end Aligned

end Rows

/-- The rows of the excerpt of a line. -/
def rowsOf (line : Nat) (text : List Char) : Rows where
  above := gutter line []
  beside := gutter line (Text.decimal line)
  below := gutter line []
  lead := Text.indent text
  core := Text.trim text
  tail := Text.trailing (Text.trimStart text)

theorem aligned_rowsOf (line : Nat) (text : List Char) : (rowsOf line text).Aligned line text := by
  have blankWidth : (gutter line []).length = columnWidth line + 2 :=
    length_gutter (Nat.zero_le _)
  have numberWidth : (gutter line (Text.decimal line)).length = columnWidth line + 2 :=
    length_gutter (length_decimal_le_columnWidth line)
  have blankGutter : IsGutter (gutter line []) := isGutter_gutter line List.not_mem_nil
  have blank : gutter line [] = List.replicate (columnWidth line + 1) ' ' ++ ['|'] := by
    rw [List.replicate_succ', gutter, alignRight]
    simp
  constructor
  · exact blankGutter
  · exact isGutter_gutter line (not_bar_of_mem_decimal line)
  · exact blankGutter
  · exact blankWidth.trans numberWidth.symm
  · exact blankWidth.trans numberWidth.symm
  · exact ⟨columnWidth line + 1, blank⟩
  · exact ⟨columnWidth line - (Text.decimal line).length, rfl⟩
  · exact ⟨columnWidth line + 1, blank⟩
  · exact Text.trims text

theorem rows_off (line : Nat) (text : List Char) :
    rows .off line text = (rowsOf line text).block text := by
  simp [rows, Rows.block, Rows.shown, Rows.underlined, Rows.carets, rowsOf, paint, underline]

/-! ### Colours -/

section Colours

variable (colours : Colours)

theorem painted_heading (message : String) :
    Painted (heading .off message) (heading colours message) := by
  have label := painted_paint colours .boldRed "error".toList
  have text := painted_paint colours .bold message.toList
  exact ((label.append (.refl [':', ' '])).append text).append (.refl ['\n'])

theorem painted_rows (line : Nat) (text : List Char) :
    Painted (rows .off line text) (rows colours line text) := by
  have carets := painted_paint colours .red (underline text)
  exact ((Painted.refl _).append carets).append (.refl ['\n'])

/-- The carets are cut off from the text in front of them, with colours or without. -/
theorem cut_paint_underline (text rest : List Char) :
    (paint colours .red (underline text) ++ rest).head?.all interrupts := by
  cases colours with
  | on => rfl
  | off =>
      have positive : 0 < max 1 (Text.trim text).length := by
        omega
      obtain ⟨more, count⟩ := Nat.exists_eq_succ_of_ne_zero positive.ne'
      rw [paint, underline, count, List.replicate_succ]
      rfl

theorem plain_heading_append (message : String) (rest : List Char) :
    plain (heading colours message ++ rest) =
      "error: ".toList ++ plain (message.toList ++ '\n' :: rest) := by
  have parts : heading colours message ++ rest =
      paint colours .boldRed "error".toList ++
        ([':', ' '] ++ (paint colours .bold message.toList ++ ('\n' :: rest))) := by
    simp [heading, errorLabel]
  have bare : ∀ character ∈ "error: ".toList, character ≠ '\x1b' := by
    simp
  rw [parts, plain_paint_append _ _ _ (by rfl), ← List.append_assoc]
  show plain ("error: ".toList ++ _) = _
  rw [plain_append_of_bare bare, plain_paint_append _ _ _ (by rfl)]

theorem plain_append_rows (before : List Char) (line : Nat) (text : List Char) :
    plain (before ++ rows colours line text) = plain (before ++ rows .off line text) := by
  -- the rows are cut in front of the carets, the only part of them that has a style
  have parts (chosen : Colours) : before ++ rows chosen line text =
      (before ++ (gutter line [] ++ ['\n'] ++ gutter line (Text.decimal line) ++ [' '] ++ text ++
        ['\n'] ++ gutter line [] ++ [' '] ++ Text.indent text)) ++
        (paint chosen .red (underline text) ++ ['\n']) := by
    simp only [rows, List.append_assoc]
  rw [parts, parts, plain_append _ (cut_paint_underline colours text _),
    plain_append _ (cut_paint_underline .off text _), plain_paint_append _ _ _ (by rfl)]
  rfl

end Colours

/-- The rendering with colours is the one without, with control sequences put in. -/
theorem painted_render (colours : Colours) (diagnostic : Diagnostic) (path source : String) :
    Painted (render .off diagnostic path source).toList
      (render colours diagnostic path source).toList := by
  rw [render, render, String.toList_ofList, String.toList_ofList]
  apply (painted_heading colours diagnostic.message).append
  split
  · exact .refl _
  · exact (Painted.refl _).append (painted_rows colours _ _)

theorem plain_render (colours : Colours) (diagnostic : Diagnostic) (path source : String) :
    plain (render colours diagnostic path source).toList =
      plain (render .off diagnostic path source).toList := by
  rw [render, render, String.toList_ofList, String.toList_ofList, plain_heading_append,
    plain_heading_append]
  split
  · rfl
  · rename_i text found
    have moved := plain_append_rows colours
      (diagnostic.message.toList ++ '\n' ::
        position (path.toList ++ ':' :: Text.decimal diagnostic.line)) diagnostic.line text
    simp only [List.append_assoc, List.cons_append] at moved
    rw [moved]

/-! ### The rendering -/

theorem position_eq (place : List Char) :
    position place = "  --> ".toList ++ place ++ ['\n'] := rfl

theorem render_off_of_line? {diagnostic : Diagnostic} {source : String} {text : List Char}
    (found : Text.line? source.toList diagnostic.line = some text) (path : String) :
    render .off diagnostic path source =
      "error: " ++ diagnostic.message ++ "\n" ++ "  --> " ++ path ++ ":" ++
        toString diagnostic.line ++ "\n" ++
        String.ofList ((rowsOf diagnostic.line text).block text) := by
  apply String.toList_inj.mp
  rw [render, found]
  simp [heading, errorLabel, paint, position_eq, Text.decimal, rows_off]

theorem render_off_of_outside {diagnostic : Diagnostic} {source : String}
    (outside : diagnostic.line = 0 ∨ (Text.lines source.toList).length < diagnostic.line)
    (path : String) :
    render .off diagnostic path source =
      "error: " ++ diagnostic.message ++ "\n" ++ "  --> " ++ path ++ "\n" := by
  apply String.toList_inj.mp
  rw [render, Text.line?_eq_none outside]
  simp [heading, errorLabel, paint, position_eq]

/-- A diagnostic is rendered with its message and its position. If the source has its line, three
aligned rows follow: one with the line as it stands, between one with a bar alone and one with the
indent of the line and carets. Exactly the places of the trimmed line have carets below them.
The indent can be cut off by counting bytes. Colours add control sequences and nothing else. -/
theorem render_aligned (diagnostic : Diagnostic) (path source : String) :
    (∀ text, Text.line? source.toList diagnostic.line = some text →
      ∃ rows : Rows, rows.Aligned diagnostic.line text ∧
        render .off diagnostic path source =
          "error: " ++ diagnostic.message ++ "\n" ++ "  --> " ++ path ++ ":" ++
            toString diagnostic.line ++ "\n" ++ String.ofList (rows.block text) ∧
        ((∃ character ∈ text, Text.isWhiteSpace character = false) →
          ((rows.shown text).drop rows.start).take rows.core.length = rows.core ∧
            ∀ place, rows.underlined[place]? = some '^' ↔
              rows.start ≤ place ∧ place < rows.start + rows.core.length) ∧
        ∃ boundary : (String.ofList text).Pos,
          boundary.offset.byteIdx = (String.ofList text).utf8ByteSize -
            (String.ofList (Text.trimStart text)).utf8ByteSize ∧
          ((String.ofList text).sliceTo boundary).copy = String.ofList rows.lead) ∧
      (diagnostic.line = 0 ∨ (Text.lines source.toList).length < diagnostic.line →
        render .off diagnostic path source =
          "error: " ++ diagnostic.message ++ "\n" ++ "  --> " ++ path ++ "\n") ∧
      Painted (render .off diagnostic path source).toList
        (render .on diagnostic path source).toList ∧
      plain (render .on diagnostic path source).toList =
        plain (render .off diagnostic path source).toList := by
  refine ⟨?_, fun outside => render_off_of_outside outside path,
    painted_render .on diagnostic path source, plain_render .on diagnostic path source⟩
  intro text found
  have aligned := aligned_rowsOf diagnostic.line text
  refine ⟨rowsOf diagnostic.line text, aligned, render_off_of_line? found path, ?_,
    Text.exists_boundary text⟩
  intro visible
  exact ⟨aligned.core_at_start, aligned.caret_iff (aligned.trims.core_ne_nil visible)⟩

/-- A line behind a wide blank and a tab, with a wide letter and a carriage return at its end, and a
line that is not there. -/
theorem render_aligned_wideIndent :
    (∃ rows : Rows, rows.Aligned 1 "\u3000\tADD é ".toList ∧
      render .off ⟨1, "bad"⟩ "a.s" "\u3000\tADD é \r\n" =
        "error: " ++ "bad" ++ "\n" ++ "  --> " ++ "a.s" ++ ":" ++ toString 1 ++ "\n" ++
          String.ofList (rows.block "\u3000\tADD é ".toList) ∧
      ∀ place, rows.underlined[place]? = some '^' ↔
        rows.start ≤ place ∧ place < rows.start + rows.core.length) ∧
      render .off ⟨2, "bad"⟩ "a.s" "\u3000\tADD é \r\n" =
        "error: " ++ "bad" ++ "\n" ++ "  --> " ++ "a.s" ++ "\n" := by
  have found : Text.line? "\u3000\tADD é \r\n".toList 1 = some "\u3000\tADD é ".toList := by
    decide +kernel
  have visible : ∃ character ∈ "\u3000\tADD é ".toList, Text.isWhiteSpace character = false :=
    ⟨'A', by decide, by decide⟩
  constructor
  · obtain ⟨rows, aligned, rendered, carets, _⟩ :=
      (render_aligned ⟨1, "bad"⟩ "a.s" "\u3000\tADD é \r\n").1 _ found
    exact ⟨rows, aligned, rendered, (carets visible).2⟩
  · exact (render_aligned ⟨2, "bad"⟩ "a.s" "\u3000\tADD é \r\n").2.1 (.inr (by decide +kernel))

end Excerpt

end RiscAssembler
