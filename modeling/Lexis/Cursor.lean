import Lexis.Position
import Lexis.Text.Cluster.Restart
import Lexis.Text.Slice

/-!
# Cursor

A place in a source that moves cluster by cluster. Only the place is kept: what lies ahead is cut
from the rest of the source whenever somebody looks. Because a text can be cut from any boundary on,
a look from a later place shows what an earlier look has shown there (`ahead_stepAll`).
-/

namespace Lexis

/-- The clusters of `gs` before its end part `rest`. -/
def upTo (gs rest : List Cluster) : List Cluster := gs.take (gs.length - rest.length)

/-- What stands before a rest is found by cutting off the rest. -/
@[simp] theorem upTo_append (gs rest : List Cluster) : upTo (gs ++ rest) rest = gs := by
  simp [upTo]

@[simp] theorem upTo_self (gs : List Cluster) : upTo gs gs = [] := by
  simp [upTo]

/-- A place in a source. -/
structure Cursor where
  source : String
  position : Position
  deriving DecidableEq, Repr

namespace Cursor

/-- The cursor at the front of a source. -/
def ofText (source : String) : Cursor := ⟨source, .start⟩

def offset (c : Cursor) : Nat := c.position.offset

/-- Whether nothing is ahead. -/
def atEnd (c : Cursor) : Bool := Text.size c.source.toList ≤ c.offset

/-- The scalar values ahead; none where the offset lies inside a scalar or past the source. -/
def charsAhead (c : Cursor) : List Char := (Text.dropBytes? c.offset c.source.toList).getD []

/-- The text ahead. -/
def rest (c : Cursor) : String := String.ofList c.charsAhead

/-- The clusters ahead, cut from the rest of the source. -/
def ahead (c : Cursor) : List Cluster := Text.clusters c.charsAhead

/-- The cluster `n` clusters ahead; the empty one past the end. -/
def peekNth (c : Cursor) (n : Nat) : Cluster := (c.ahead[n]?).getD .empty

def peek (c : Cursor) : Cluster := c.peekNth 0

def peekNext (c : Cursor) : Cluster := c.peekNth 1

/-- Moves over a cluster; the empty one moves nothing. -/
def step (c : Cursor) (g : Cluster) : Cursor :=
  if g.isEmpty then c else { c with position := c.position.next g }

/-- Moves over clusters in a row. -/
def stepAll (c : Cursor) (gs : List Cluster) : Cursor := gs.foldl step c

/-- Passes one cluster and hands it out; at the end nothing moves. -/
def advance (c : Cursor) : Cluster × Cursor := (c.peek, c.step c.peek)

/-- Passes up to `n` clusters, cutting the rest of the source once. -/
def advanceBy (c : Cursor) (n : Nat) : Cursor := c.stepAll (c.ahead.take n)

/-- The source between `start` and the cursor; nothing if that is no slice of it. -/
def sliceFrom? (c : Cursor) (start : Nat) : Option String :=
  (Text.slice? start c.offset c.source.toList).map String.ofList

/-! ## Passing clusters -/

/-- No cluster ahead is empty. -/
theorem ne_nil_of_mem_ahead {c : Cursor} {g : Cluster} (h : g ∈ c.ahead) : g.chars ≠ [] :=
  Text.ne_nil_of_mem_clusters h

theorem charsOf_ahead (c : Cursor) : Cluster.charsOf c.ahead = c.charsAhead :=
  Text.chars_clusters _

/-- Stepping over clusters only moves the position, if none of them is empty. -/
theorem stepAll_eq {c : Cursor} {gs : List Cluster} (h : ∀ g ∈ gs, g.chars ≠ []) :
    c.stepAll gs = { c with position := c.position.passing gs } := by
  induction gs generalizing c with
  | nil => rfl
  | cons g gs ih =>
    have hg : g.isEmpty = false := by simpa [Cluster.isEmpty] using h g (by simp)
    have hs : c.step g = { c with position := c.position.next g } := by simp [step, hg]
    rw [stepAll, List.foldl_cons, hs]
    exact ih (fun k hk => h k (by simp [hk]))

section

variable {c : Cursor} {gs rest : List Cluster}

/-- Clusters that are ahead can be moved over. -/
theorem stepAll_of_ahead (h : c.ahead = gs ++ rest) :
    c.stepAll gs = { c with position := c.position.passing gs } :=
  stepAll_eq fun g hg => ne_nil_of_mem_ahead (c := c) (by rw [h]; simp [hg])

/-- Stepping over the first clusters ahead leaves the characters of the others. -/
theorem charsAhead_stepAll (h : c.ahead = gs ++ rest) :
    (c.stepAll gs).charsAhead = Cluster.charsOf rest := by
  have hsplit : c.charsAhead = Cluster.charsOf gs ++ Cluster.charsOf rest := by
    rw [← charsOf_ahead, h, Cluster.charsOf_append]
  have hoff : (c.stepAll gs).offset = c.offset + Text.size (Cluster.charsOf gs) := by
    rw [stepAll_of_ahead h]
    exact Position.offset_passing _ _
  have hsrc : (c.stepAll gs).source = c.source := by rw [stepAll_of_ahead h]
  rw [charsAhead, hoff, hsrc]
  unfold charsAhead at hsplit
  cases hd : Text.dropBytes? c.offset c.source.toList with
  | none =>
    -- nothing is shown inside a scalar or past the end, so nothing is passed there
    rw [hd] at hsplit
    obtain ⟨ht, hr⟩ := List.append_eq_nil_iff.mp hsplit.symm
    rw [ht, hr, Text.size_nil, Nat.add_zero, hd]
    rfl
  | some cs =>
    rw [hd] at hsplit
    have hcs : cs = Cluster.charsOf gs ++ Cluster.charsOf rest := hsplit
    rw [Text.dropBytes?_add hd, hcs, Text.dropBytes?_append]
    rfl

/-- **Behind clusters that were ahead, the clusters are ahead that followed them.** -/
theorem ahead_stepAll (h : c.ahead = gs ++ rest) : (c.stepAll gs).ahead = rest := by
  have hsuffix : rest <:+ c.ahead := ⟨gs, h.symm⟩
  rw [ahead, charsAhead_stepAll h, Text.clusters_of_suffix hsuffix]

end

theorem position_advanceBy (c : Cursor) (n : Nat) :
    (c.advanceBy n).position = c.position.passing (c.ahead.take n) := by
  rw [advanceBy, stepAll_of_ahead (List.take_append_drop n c.ahead).symm]

/-- Passing clusters drops them from what is ahead. -/
@[simp] theorem ahead_advanceBy (c : Cursor) (n : Nat) :
    (c.advanceBy n).ahead = c.ahead.drop n :=
  ahead_stepAll (List.take_append_drop n c.ahead).symm

/-- Clusters may be passed in two goes. -/
theorem advanceBy_add (c : Cursor) (m n : Nat) :
    c.advanceBy (m + n) = (c.advanceBy m).advanceBy n := by
  calc c.advanceBy (m + n)
      = c.stepAll (c.ahead.take m ++ (c.ahead.drop m).take n) := by rw [advanceBy, List.take_add]
    _ = (c.advanceBy m).stepAll ((c.ahead.drop m).take n) := List.foldl_append
    _ = (c.advanceBy m).advanceBy n := by rw [← ahead_advanceBy]; rfl

/-- Passing one cluster after a look at it is passing one cluster. -/
theorem advance_snd (c : Cursor) : c.advance.2 = c.advanceBy 1 := by
  cases h : c.ahead with
  | nil => simp [advance, peek, peekNth, advanceBy, stepAll, h, step, Cluster.empty, Cluster.isEmpty]
  | cons g gs => simp [advance, peek, peekNth, advanceBy, stepAll, h]

end Cursor

end Lexis
