import Lexis.Text.Size
import Lexis.Text.Table.GraphemeExtend
import Lexis.Text.Table.Width

/-!
# Display width

How many columns of a terminal a text takes. A scalar value takes none, one or two; one sign takes
three. In a line, a tab goes on to the next multiple of four columns, and an escape sequence, from
the escape character to the next `m`, takes no column at all.
-/

namespace Lexis.Text

/-- Distance of the tab stops. -/
def tabSize : Nat := 4

/-- The columns that a scalar value takes by itself. -/
def charWidth (c : Char) : Nat :=
  let n := c.toNat
  if n < 0x20 || (0x7F ≤ n && n < 0xA0) then 0
  else if n < 0x7F then 1
  else if n = 0x2D7F then 1
  else if n = 0x115F || n = 0x17A4 then 2
  else if n = 0x17D8 then 3
  else if Table.graphemeExtend.contains n || Table.zeroWidth.contains n then 0
  else if Table.wide.contains n then 2
  else 1

/-- The columns that the scalar values take one by one. -/
def plainWidth : List Char → Nat
  | [] => 0
  | c :: cs => charWidth c + plainWidth cs

/--
The width of each scalar value of a line.

`column` columns are taken before it, and `escaped` says whether it stands in an escape sequence.
-/
def widthsFrom (column : Nat) (escaped : Bool) : List Char → List Nat
  | [] => []
  | c :: cs =>
    if escaped then 0 :: widthsFrom column (c ≠ 'm') cs
    else if c = '\x1b' then 0 :: widthsFrom column true cs
    else
      let width := if c = '\t' then tabSize - column % tabSize else charWidth c
      width :: widthsFrom (column + width) false cs

/-- The columns that a line takes. -/
def lineWidth (line : List Char) : Nat := (widthsFrom 0 false line).foldr Nat.add 0

/-- A line with its tabs written as spaces. -/
def expandTabs (line : List Char) : List Char :=
  (line.zip (widthsFrom 0 false line)).flatMap fun (c, width) =>
    if c = '\t' then List.replicate width ' ' else [c]

/-- Text before the byte `n` of a text; a scalar value that is cut there is left out. -/
def beforeByte : (n : Nat) → List Char → List Char
  | _, [] => []
  | n, c :: cs => if c.utf8Size ≤ n then c :: beforeByte (n - c.utf8Size) cs else []

/--
The column of a line at which its byte `n` stands.

What stands behind the text, such as the end of the line, is one column further.
-/
def columnAt (n : Nat) (line : List Char) : Nat :=
  let column := lineWidth (beforeByte n line)
  if size line < n then column + 1 else column

end Lexis.Text
