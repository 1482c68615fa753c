import Lexis.Text.Width

/-!
# Excerpts

The lines of a source that a report shows: the one that holds an offset, and its neighbours. Two
views of lines meet here. To find its way, the excerpt counts the line feed, the carriage return,
and both together, as one line break each (`rows`); the lines that are shown end at line feeds only
(`shownLines`), so a carriage return inside of one stands there as a character.
-/

namespace Lexis.Report

/-! ## Lines of a text -/

/-- Splits a text after each character that ends a line; `ends` also gets what follows it. -/
def splitAfter (ends : Char → List Char → Bool) : List Char → List (List Char)
  | [] => []
  | c :: cs =>
    if ends c cs then [c] :: splitAfter ends cs
    else
      match splitAfter ends cs with
      | [] => [[c]]
      | l :: ls => (c :: l) :: ls

/-- Whether a line break of any form ends at a character. -/
def endsRow (c : Char) (rest : List Char) : Bool :=
  c = '\n' || (c = '\r' && rest.head? ≠ some '\n')

/-- A line of a text with its line break, if it has one, and the offset at which it starts. -/
structure Row where
  offset : Nat
  chars : List Char
  deriving DecidableEq, Repr

namespace Row

/-- The offset behind the line. -/
def stop (r : Row) : Nat := r.offset + Text.size r.chars

/-- Whether a character belongs to line breaks only. -/
def isBreak (c : Char) : Bool := c = '\n' || c = '\r'

/-- Whether the line ends in a line break. -/
def isComplete (r : Row) : Bool := r.chars.getLast?.any isBreak

/-- The offset at which the line break starts, or the end of the text. -/
def breakOffset (r : Row) : Nat := r.offset + Text.size (r.chars.takeWhile (!isBreak ·))

end Row

/-- Gives lines their offsets. -/
def place (offset : Nat) : List (List Char) → List Row
  | [] => []
  | l :: ls => ⟨offset, l⟩ :: place (offset + Text.size l) ls

/-- The lines of a text, by line breaks of any form. -/
def rows (text : List Char) : List Row := place 0 (splitAfter endsRow text)

/-! ## The place of an offset -/

/-- Whether a line is over at an offset. -/
def isPassed (offset : Nat) (r : Row) : Bool := r.isComplete && r.stop ≤ offset

/-- Line and column of an offset, from one; the column counts bytes, but none of a line break. -/
def locate (offset : Nat) (text : List Char) : Nat × Nat :=
  let passed := (rows text).takeWhile (isPassed offset)
  let column := match (rows text).dropWhile (isPassed offset) with
    | [] => 0
    | r :: _ => min offset r.breakOffset - r.offset
  (passed.length + 1, column + 1)

/--
The lines up to the next one after the line of an offset.

`left` line breaks are still to come. A break counts if it starts at the offset or later, but not
at the front of the text.
-/
def takeFollowing (offset : Nat) : (left : Nat) → List Row → List Row
  | 0, _ => []
  | _, [] => []
  | left + 1, r :: rs =>
    r :: takeFollowing offset (if max offset 1 ≤ r.breakOffset then left else left + 1) rs

/-! ## What is shown -/

/-- A line as it is shown. -/
structure ShownLine where
  number : Nat
  /-- The offset at which it starts. -/
  offset : Nat
  /-- Its bytes with its line break. -/
  size : Nat
  /-- Its text without its line break. -/
  text : List Char
  deriving DecidableEq, Repr

/-- A line without the line feed at its end and the carriage return before that. -/
def withoutBreak (line : List Char) : List Char :=
  match line.reverse with
  | '\n' :: '\r' :: cs => cs.reverse
  | '\n' :: cs => cs.reverse
  | _ => line

/--
Numbers lines that are shown, `before` lines standing before them.

A carriage return that ends the last line takes the place of its line break.
-/
def numberLines (before offset : Nat) : List (List Char) → List ShownLine
  | [] => []
  | l :: ls =>
    let number := if l.getLast? = some '\r' then before else before + 1
    ⟨number, offset, Text.size l, withoutBreak l⟩
      :: numberLines (before + 1) (offset + Text.size l) ls

/-- The lines of a text to show, `before` lines and `offset` bytes standing before it. -/
def shownLines (before offset : Nat) (text : List Char) : List ShownLine :=
  numberLines before offset (splitAfter (fun c _ => c = '\n') text)

/-- The line of an offset with one line before and after it; nothing if the text is too short. -/
def excerpt? (offset : Nat) (text : List Char) : Option (List ShownLine) :=
  if Text.size text + 1 < offset then none
  else
    let passed := (rows text).takeWhile (isPassed offset)
    let around := passed.getLast?.toList
      ++ takeFollowing offset 2 ((rows text).dropWhile (isPassed offset))
    let start := (around.head?.map Row.offset).getD 0
    some (shownLines (passed.length - 1) start (around.flatMap Row.chars))

end Lexis.Report
