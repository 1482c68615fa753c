import Lexis.Diagnostic
import Lexis.Report.Excerpt
import Lexis.Text.Wrap

/-!
# Reports

A diagnostic shown together with the lines of the source it is about. A report is a list of rows,
each made of pieces that know their role; only painting turns roles into colours, so the text of a
report does not depend on whether it is coloured.
-/

namespace Lexis.Report

/-! ## Pieces -/

/-- What a part of a report is, which decides its colour. -/
inductive Role where
  | severity (s : Severity)
  | link
  | lineNumber
  | marker
  /-- A failure to quote the source. -/
  | trouble
  | reason
  deriving DecidableEq, Repr

namespace Role

/-- The parameters of the terminal's colour sequence. -/
def color : Role → String
  | severity .error => "31"
  | severity .warning => "33"
  | link => "36;1;4"
  | lineNumber => "2"
  | marker => "35;1"
  | trouble => "31"
  | reason => "33"

end Role

/-- A piece of a row: text, or a mark where a role starts or ends. -/
inductive Piece where
  | text (cs : List Char)
  | start (role : Role)
  | stop
  deriving DecidableEq, Repr

namespace Piece

/-- How a piece is written. -/
def paint (color : Bool) : Piece → List Char
  | text cs => cs
  | start role => if color then ("\x1b[" ++ role.color ++ "m").toList else []
  | stop => if color then "\x1b[0m".toList else []

end Piece

/-- A row of a report. -/
abbrev Line := List Piece

/-- Plain text. -/
def plain (text : String) : Line := [.text text.toList]

/-- Text in a role. -/
def marked (role : Role) (text : String) : Line := [.start role, .text text.toList, .stop]

/-- Spaces. -/
def blank (n : Nat) : Line := [.text (List.replicate n ' ')]

/-! ## The message -/

/-- Columns of the terminal that reports are made for. -/
def terminalWidth : Nat := 200

/-- Columns of a line of the message: two are kept free, four are the indent. -/
def messageWidth : Nat := terminalWidth - 2 - 4

/-- The sign before the first line of the message. -/
def icon : Severity → String
  | .error => "×"
  | .warning => "⚠"

/-- A line of the message behind its sign. -/
def messageLine (severity : Severity) (sign : String) (cs : List Char) : Line :=
  plain "  " ++ marked (.severity severity) sign ++ plain " " ++ [.text cs]

/-- The lines of the message. -/
def messageLines (severity : Severity) (message : String) : List Line :=
  match Text.Wrap.lines messageWidth message.toList with
  | [] => []
  | first :: more =>
    messageLine severity (icon severity) first :: more.map (messageLine severity "│")

/-! ## The box -/

/-- The label of a diagnostic. -/
def label (d : Diagnostic) : String := s!"here ({d.position.display})"

/-- Whether the offset stands in a line that is shown. -/
def ShownLine.holds (l : ShownLine) (offset : Nat) : Bool :=
  l.offset ≤ offset && offset < l.offset + l.size

/-- The rows below a line that point to a column of it. -/
def pointer (numberWidth column : Nat) (label : String) : List Line :=
  let gutter := blank (numberWidth + 2) ++ plain "· "
  [gutter ++ [.start .marker] ++ blank column ++ plain "▲" ++ [.stop],
    gutter ++ blank column ++ [.start .marker] ++ plain "╰── " ++ marked .marker label ++ [.stop]]

/-- A number at the right end of its column. -/
def numberText (numberWidth number : Nat) : String :=
  String.ofList ((toString number).toList.leftpad numberWidth ' ')

/-- A line of the source, with the pointer if the offset stands in it. -/
def sourceLines (numberWidth offset : Nat) (label : String) (l : ShownLine) : List Line :=
  (plain " " ++ marked .lineNumber (numberText numberWidth l.number) ++ plain " │ "
      ++ [.text (Text.expandTabs l.text)])
    :: if l.holds offset then pointer numberWidth (Text.columnAt (offset - l.offset) l.text) label
      else []

/-- Columns for the line numbers: those of the last one. -/
def numberWidth (lines : List ShownLine) : Nat :=
  (toString ((lines.getLast?.map ShownLine.number).getD 0)).length

/-- The lines of the source in a box that names the place. -/
def box (name : String) (text : List Char) (offset : Nat) (label : String)
    (lines : List ShownLine) : List Line :=
  let width := numberWidth lines
  let (line, column) := locate offset text
  [blank (width + 2) ++ plain "╭─[" ++ marked .link s!"{name}:{line}:{column}" ++ plain "]"]
    ++ lines.flatMap (sourceLines width offset label)
    ++ [blank (width + 2) ++ plain "╰────"]

/-- What stands in place of the box when the offset is not in the text. -/
def outOfBounds (offset : Nat) (label : String) : Line :=
  plain "  [" ++ marked .trouble "Failed to read contents for label" ++ plain " `"
    ++ marked .link label ++ plain "` (offset: " ++ marked .link (toString offset)
    ++ plain ", length: " ++ marked .link "0" ++ plain "): " ++ marked .reason "OutOfBounds"
    ++ plain "]"

/-! ## The report -/

/-- The rows of the report on a diagnostic about a named text. -/
def lines (d : Diagnostic) (name text : String) : List Line :=
  let offset := d.position.offset
  [marked (.severity d.severity) d.code.display, []]
    ++ messageLines d.severity d.message
    ++ match excerpt? offset text.toList with
      | some shown => box name text.toList offset (label d) shown
      | none => [outOfBounds offset (label d)]

/-- How a row is written. -/
def paintLine (color : Bool) (l : Line) : List Char := l.flatMap (Piece.paint color) ++ ['\n']

/-- The report on a diagnostic about a named text. -/
def render (d : Diagnostic) (name text : String) (color : Bool) : String :=
  String.ofList ((lines d name text).flatMap (paintLine color))

end Lexis.Report
