import Lexis.Text.Cluster

/-!
# Positions

Where something stands in a text: the byte offset, and the line and column a reader would name.
Lines and columns count from one, columns by clusters. Passing a cluster moves the offset by its
bytes, and the column by one, unless the cluster is a line break, which starts the next line.
-/

namespace Lexis

/--
A place in a text.

Lines and columns are plain numbers. For sources of less than `2 ^ 32 - 1` bytes they fit in 32 bits, as
`Scanner.after_counts` shows, so a counter of that width never wraps.
-/
structure Position where
  /-- Bytes before it. -/
  offset : Nat
  /-- Its line, from one. -/
  line : Nat
  /-- Its column, from one, in clusters. -/
  column : Nat
  deriving DecidableEq, Repr

namespace Position

/-- The front of a text. -/
def start : Position := ⟨0, 1, 1⟩

/-- The place after one cluster. -/
def next (p : Position) (g : Cluster) : Position :=
  if g.isLineBreak then ⟨p.offset + g.size, p.line + 1, 1⟩
  else ⟨p.offset + g.size, p.line, p.column + 1⟩

/-- The place after several clusters. -/
def passing (p : Position) (gs : List Cluster) : Position := gs.foldl next p

@[simp] theorem passing_nil (p : Position) : p.passing [] = p := rfl

@[simp] theorem passing_cons (p : Position) (g : Cluster) (gs : List Cluster) :
    p.passing (g :: gs) = (p.next g).passing gs := rfl

/-- Clusters may be passed in two goes. -/
theorem passing_append (p : Position) (gs hs : List Cluster) :
    p.passing (gs ++ hs) = (p.passing gs).passing hs := List.foldl_append

/-- Every cluster counts its bytes, a line break too. -/
@[simp] theorem offset_next (p : Position) (g : Cluster) :
    (p.next g).offset = p.offset + g.size := by
  unfold next
  split <;> rfl

/-- Clusters count the bytes of their characters. -/
theorem offset_passing (p : Position) (gs : List Cluster) :
    (p.passing gs).offset = p.offset + Text.size (Cluster.charsOf gs) := by
  induction gs generalizing p with
  | nil => rfl
  | cons g gs ih =>
    rw [passing_cons, ih, offset_next, Cluster.charsOf_cons, Text.size_append, Nat.add_assoc]
    rfl

/-- `line:column`. -/
def display (p : Position) : String := s!"{p.line}:{p.column}"

/-- `line:column@offset`. -/
def detail (p : Position) : String := s!"{p.line}:{p.column}@{p.offset}"

end Position

end Lexis
