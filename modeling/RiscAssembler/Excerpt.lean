import RiscAssembler.Diagnostic.Basic
import RiscAssembler.Terminal.Style
import RiscAssembler.Text

/-!
Contract: a diagnostic with the source line that it is about.

Owns:
- the heading with the message;
- the position, as path and line number;
- the excerpt: the source line beside its number, and an underline below the text of the line.

The number, and what stands in its place on the rows around it, fills a column that is as wide as
the number and at least three characters, so the bars of all rows are aligned. The underline
repeats the indent of the source line as it stands, so the two keep together however wide the
indent is shown. A diagnostic whose line the source does not have shows no excerpt.
-/

namespace RiscAssembler.Excerpt

open Terminal

/-- Blanks in front of a text, up to a width. -/
def alignRight (width : Nat) (text : List Char) : List Char :=
  List.replicate (width - text.length) ' ' ++ text

def columnWidth (line : Nat) : Nat :=
  max 3 (Text.decimal line).length

/-- A row of the excerpt up to and including its bar. -/
def gutter (line : Nat) (label : List Char) : List Char :=
  alignRight (columnWidth line) label ++ [' ', '|']

/-- The underline of a source line: one mark for each character between its white space, at least
one. -/
def underline (text : List Char) : List Char :=
  List.replicate (max 1 (Text.trim text).length) '^'

def errorLabel (colours : Colours) : List Char :=
  paint colours .boldRed "error".toList

def heading (colours : Colours) (message : String) : List Char :=
  errorLabel colours ++ [':', ' '] ++ paint colours .bold message.toList ++ ['\n']

def position (place : List Char) : List Char :=
  "  --> ".toList ++ place ++ ['\n']

def rows (colours : Colours) (line : Nat) (text : List Char) : List Char :=
  gutter line [] ++ ['\n'] ++
    gutter line (Text.decimal line) ++ [' '] ++ text ++ ['\n'] ++
    gutter line [] ++ [' '] ++ Text.indent text ++ paint colours .red (underline text) ++ ['\n']

def render (colours : Colours) (diagnostic : Diagnostic) (path source : String) : String :=
  String.ofList
    (heading colours diagnostic.message ++
      match Text.line? source.toList diagnostic.line with
      | none => position path.toList
      | some text =>
          position (path.toList ++ ':' :: Text.decimal diagnostic.line) ++
            rows colours diagnostic.line text)

end RiscAssembler.Excerpt
