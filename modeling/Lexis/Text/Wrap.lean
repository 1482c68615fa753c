import Lexis.Text.Width

/-!
# Wrapping lines

A line that is too wide is broken behind spaces: words are put on a line as long as they fit, and
the spaces at the end of a line are dropped. A word that is too wide by itself is cut.
-/

namespace Lexis.Text.Wrap

/-- A word and the number of spaces after it. -/
structure Word where
  letters : List Char
  spaces : Nat
  deriving DecidableEq, Repr

/-- The words of a line. The first may have no letters, if the line starts with spaces. -/
def words : List Char → List Word
  | [] => []
  | c :: cs =>
    match words cs with
    | [] => if c = ' ' then [⟨[], 1⟩] else [⟨[c], 0⟩]
    | w :: ws =>
      if c ≠ ' ' then ⟨c :: w.letters, w.spaces⟩ :: ws
      else if w.letters.isEmpty then ⟨[], w.spaces + 1⟩ :: ws
      else ⟨[], 1⟩ :: w :: ws

/-- Puts an element in front of the first list. -/
def consFirst {α : Type} (a : α) : List (List α) → List (List α)
  | [] => [[a]]
  | l :: ls => (a :: l) :: ls

/-- Cuts letters into pieces that fit; the first piece has `width` columns already. -/
def cut (limit width : Nat) : List Char → List (List Char)
  | [] => [[]]
  | c :: cs =>
    if 0 < width && limit < width + charWidth c then [] :: consFirst c (cut limit (charWidth c) cs)
    else consFirst c (cut limit (width + charWidth c) cs)

/-- The pieces of a word, the last of which keeps its spaces. -/
def piecesOf (spaces : Nat) : List (List Char) → List Word
  | [] => []
  | [letters] => [⟨letters, spaces⟩]
  | letters :: more => ⟨letters, 0⟩ :: piecesOf spaces more

/-- A word, cut if it does not fit on a line. -/
def fitting (limit : Nat) (w : Word) : List Word :=
  if limit < plainWidth w.letters then piecesOf w.spaces (cut limit 0 w.letters) else [w]

/-- Puts words on lines; the first line has `width` columns already. -/
def fill (limit width : Nat) : List Word → List (List Word)
  | [] => [[]]
  | w :: ws =>
    let own := plainWidth w.letters
    if limit < width + own then [] :: consFirst w (fill limit (own + w.spaces) ws)
    else consFirst w (fill limit (width + own + w.spaces) ws)

/-- The text of words in a row, without the spaces at the end. -/
def textOf : List Word → List Char
  | [] => []
  | [w] => w.letters
  | w :: ws => w.letters ++ List.replicate w.spaces ' ' ++ textOf ws

/-- The lines that a line is broken into. -/
def line (limit : Nat) (cs : List Char) : List (List Char) :=
  (fill limit 0 ((words cs).flatMap (fitting limit))).map textOf

/-- Splits a text at its line feeds. -/
def splitLines : List Char → List (List Char)
  | [] => [[]]
  | c :: cs => if c = '\n' then [] :: splitLines cs else consFirst c (splitLines cs)

/-- The lines of a text, broken where they are too wide. -/
def lines (limit : Nat) (cs : List Char) : List (List Char) := (splitLines cs).flatMap (line limit)

end Lexis.Text.Wrap
