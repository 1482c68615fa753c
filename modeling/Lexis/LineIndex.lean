import Lexis.Text.Slice

/-!
# Line index

The offsets at which the lines of a text start, kept to fetch single lines. A line ends before its
line feed; a carriage return before that end is left out as well.

An index may be asked about another text than the one it was built on: the offsets are those of the
indexed text, and only the test for the carriage return looks at the text given.
-/

namespace Lexis

/-- The line starts of a text, in order, and the size of the text in bytes. -/
structure LineIndex where
  starts : List Nat
  size : Nat
  deriving DecidableEq, Repr

namespace LineIndex

/-- The offsets after the line feeds of a text that stands at `offset`. -/
def startsFrom (offset : Nat) : List Char → List Nat
  | [] => []
  | c :: cs =>
    let after := offset + c.utf8Size
    if c = '\n' then after :: startsFrom after cs else startsFrom after cs

def ofText (text : String) : LineIndex :=
  ⟨0 :: startsFrom 0 text.toList, Text.size text.toList⟩

/-- Start and end of a line, counted from one, without its terminator. -/
def lineRange? (index : LineIndex) (text : String) (line : Nat) : Option (Nat × Nat) :=
  match line with
  | 0 => none
  | n + 1 =>
    (index.starts[n]?).map fun start =>
      let stop := match index.starts[n + 1]? with
        | some next => next - 1
        | none => index.size
      if start < stop && Text.charAt? (stop - 1) text.toList == some '\r' then (start, stop - 1)
      else (start, stop)

/-- The text of a line, counted from one, without its terminator. -/
def lineText? (index : LineIndex) (text : String) (line : Nat) : Option String :=
  (index.lineRange? text line).bind fun (start, stop) =>
    (Text.slice? start stop text.toList).map String.ofList

end LineIndex

end Lexis
