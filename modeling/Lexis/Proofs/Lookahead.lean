import Lexis.Cursor
import Mathlib.Data.List.Induction
import Mathlib.Logic.Function.Iterate

/-!
# Lookahead without a cache

A cursor keeps only its place and cuts the rest of the source anew at every look. However it was
moved, it stands behind the first clusters of the source as they are cut from its front, and shows
those that follow (`hasPassed_moves`).
-/

namespace Lexis

/-! ## Lines and columns of the clusters passed -/

namespace Position

theorem line_next (p : Position) (g : Cluster) :
    (p.next g).line = p.line + if g.isLineBreak then 1 else 0 := by
  unfold next
  split <;> rfl

/-- Lines are counted by the line breaks that are passed. -/
theorem line_passing (p : Position) (gs : List Cluster) :
    (p.passing gs).line = p.line + gs.countP Cluster.isLineBreak := by
  induction gs generalizing p with
  | nil => rfl
  | cons g gs ih =>
    rw [passing_cons, ih, line_next, List.countP_cons]
    omega

/-- Columns count the clusters after the last line break. -/
theorem column_passing (gs : List Cluster) :
    (start.passing gs).column = 1 + (gs.reverse.takeWhile (!·.isLineBreak)).length := by
  induction gs using List.reverseRecOn with
  | nil => rfl
  | append_singleton gs g ih =>
    rw [passing_append, passing_cons, passing_nil, List.reverse_append, List.reverse_singleton,
      List.singleton_append, List.takeWhile_cons, next]
    cases g.isLineBreak with
    | true => rfl
    | false =>
      simp only [Bool.false_eq_true, if_false, Bool.not_false, if_true, ih, List.length_cons]
      omega

end Position

/-! ## Any sequence of moves -/

/-- One way to move a cursor. -/
inductive Move where
  | advance
  | advanceBy (n : Nat)
  deriving DecidableEq, Repr

/-- The clusters that a move asks to pass. -/
def Move.clusters : Move → Nat
  | advance => 1
  | advanceBy n => n

/-- The clusters that several moves ask to pass. -/
def Move.total : List Move → Nat
  | [] => 0
  | m :: ms => m.clusters + total ms

namespace Cursor

def move (c : Cursor) : Move → Cursor
  | .advance => c.advance.2
  | .advanceBy n => c.advanceBy n

def moves (c : Cursor) (ms : List Move) : Cursor := ms.foldl move c

/-- A cursor that has passed the first `k` of the clusters `gs`: where it stands, what it shows. -/
structure HasPassed (c : Cursor) (gs : List Cluster) (k : Nat) : Prop where
  offset : c.offset = Text.size (Cluster.charsOf (gs.take k))
  line : c.position.line = 1 + (gs.take k).countP Cluster.isLineBreak
  column : c.position.column = 1 + ((gs.take k).reverse.takeWhile (!·.isLineBreak)).length
  /-- Cutting the rest of the source gives the clusters not yet passed. -/
  ahead : Text.clusters c.charsAhead = gs.drop k
  peekNth : ∀ n, c.peekNth n = (gs[k + n]?).getD .empty
  advance : c.advance.1 = (gs[k]?).getD .empty

/-- Every move passes a number of clusters. -/
theorem move_eq (c : Cursor) (m : Move) : c.move m = c.advanceBy m.clusters := by
  cases m with
  | advance => exact c.advance_snd
  | advanceBy n => rfl

/-- Several moves pass as many clusters as one move that asks for all of them. -/
theorem moves_eq (c : Cursor) (ms : List Move) :
    c.moves ms = c.advanceBy (Move.total ms) := by
  induction ms generalizing c with
  | nil => rfl
  | cons m ms ih =>
    rw [Move.total, advanceBy_add, ← move_eq]
    exact ih _

/-- Passing several clusters is passing one several times. -/
theorem advanceBy_eq_iterate (c : Cursor) (n : Nat) :
    c.advanceBy n = (fun c : Cursor => c.advance.2)^[n] c := by
  induction n generalizing c with
  | zero => rfl
  | succ n ih => rw [Function.iterate_succ_apply, ← ih, advance_snd, ← advanceBy_add, Nat.add_comm]

theorem ahead_ofText (source : String) : (ofText source).ahead = Text.clusters source.toList := by
  have h : (ofText source).charsAhead = source.toList := by
    cases hs : source.toList <;> simp [charsAhead, ofText, offset, Position.start, Text.dropBytes?, hs]
  rw [ahead, h]

/-- From the front of a source a cursor passes the clusters asked for, or all there are. -/
theorem hasPassed_advanceBy (source : String) (n : Nat) :
    ((ofText source).advanceBy n).HasPassed (Text.clusters source.toList)
      (min (Text.clusters source.toList).length n) := by
  have hgs := ahead_ofText source
  generalize Text.clusters source.toList = gs at hgs ⊢
  have hpos := (ofText source).position_advanceBy n
  -- to ask for more clusters than there are is to ask for all of them
  obtain ⟨htake, hdrop⟩ : gs.take (min gs.length n) = gs.take n ∧
      gs.drop (min gs.length n) = gs.drop n := by
    rcases Nat.le_total gs.length n with hle | hle
    · rw [Nat.min_eq_left hle, List.take_length, List.take_of_length_le hle, List.drop_length,
        List.drop_eq_nil_of_le hle]
      exact ⟨rfl, rfl⟩
    · rw [Nat.min_eq_right hle]
      exact ⟨rfl, rfl⟩
  have hpeek : ∀ m, ((ofText source).advanceBy n).peekNth m
      = (gs[min gs.length n + m]?).getD .empty := by
    intro m
    rw [Cursor.peekNth, ahead_advanceBy, hgs, ← hdrop, List.getElem?_drop]
  rw [hgs] at hpos
  exact
    { offset := by
        rw [Cursor.offset, hpos, Position.offset_passing, htake]
        exact Nat.zero_add _
      line := by rw [hpos, Position.line_passing, htake]; rfl
      column := by
        rw [hpos, htake]
        exact Position.column_passing _
      ahead := by
        rw [hdrop, ← hgs]
        exact (ofText source).ahead_advanceBy n
      peekNth := hpeek
      advance := hpeek 0 }

/--
**However a cursor is moved, it has passed the first clusters of its source.**

The clusters are those cut from the front of the source; as many are passed as were asked for, but
not more than there are. Asking for several at once is asking for one several times.
-/
theorem hasPassed_moves (source : String) (ms : List Move) :
    ((ofText source).moves ms).HasPassed (Text.clusters source.toList)
        (min (Text.clusters source.toList).length (Move.total ms)) ∧
      ∀ n, ((ofText source).moves ms).advanceBy n
        = (fun c : Cursor => c.advance.2)^[n] ((ofText source).moves ms) := by
  refine ⟨?_, advanceBy_eq_iterate _⟩
  rw [moves_eq]
  exact hasPassed_advanceBy source _

end Cursor

end Lexis
