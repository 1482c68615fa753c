import Lexis.Text.Cluster.Boundary
import Lexis.Text.Size

/-!
# Clusters

The scanner's unit of input: one extended grapheme cluster, what a reader of the text takes for one
character. `clusters` cuts a text into them; putting the scalars of the clusters together again
gives the text back (`chars_clusters`), and no cluster is empty (`ne_nil_of_mem_clusters`).

The recursion is on the scalars. What a rule needs to know of the text on the left is handed down
as the list of its classes, so no state has to be reset where a cluster ends.
-/

namespace Lexis

open Text

/-- One extended grapheme cluster, or the empty one that stands for the end of the input. -/
structure Cluster where
  chars : List Char
  deriving DecidableEq, Repr

namespace Cluster

/-- What is seen at the end of the input. -/
def empty : Cluster := ⟨[]⟩

/-- The cluster of one scalar value. -/
def ofChar (c : Char) : Cluster := ⟨[c]⟩

def isEmpty (g : Cluster) : Bool := g.chars.isEmpty

def text (g : Cluster) : String := String.ofList g.chars

/-- The number of bytes of the cluster in UTF-8. -/
def size (g : Cluster) : Nat := Text.size g.chars

/-- The only scalar value of the cluster; nothing if it is empty or made of several. -/
def single? (g : Cluster) : Option Char :=
  match g.chars with
  | [c] => some c
  | _ => none

/-- Whether the cluster is the scalar value `c` and nothing else. -/
def is (g : Cluster) (c : Char) : Bool := g.chars == [c]

/-- A line feed, or a carriage return with its line feed. -/
def isLineBreak (g : Cluster) : Bool := g.chars == ['\n'] || g.chars == ['\r', '\n']

/-- The scalar values of several clusters in a row. -/
def charsOf (gs : List Cluster) : List Char := gs.flatMap Cluster.chars

/-- The text of several clusters in a row. -/
def textOf (gs : List Cluster) : String := String.ofList (charsOf gs)

/-! ## Clusters of one scalar -/

/-- Only one cluster is a given character. -/
theorem eq_ofChar_of_is {g : Cluster} {c : Char} (h : g.is c = true) : g = ofChar c := by
  cases g
  simpa [is, ofChar] using h

@[simp] theorem is_ofChar (c d : Char) : (ofChar c).is d = (c == d) := by
  by_cases h : c = d <;> simp [is, ofChar, h]

theorem eq_ofChar_of_single? {g : Cluster} {c : Char} (h : g.single? = some c) : g = ofChar c := by
  obtain ⟨cs⟩ := g
  unfold single? at h
  split at h
  · next d hd =>
    obtain rfl : cs = [d] := hd
    rw [Option.some.inj h, ofChar]
  · simp at h

@[simp] theorem single?_ofChar (c : Char) : (ofChar c).single? = some c := rfl

/-! ## Clusters in a row -/

@[simp] theorem charsOf_nil : charsOf [] = [] := rfl

@[simp] theorem charsOf_cons (g : Cluster) (gs : List Cluster) :
    charsOf (g :: gs) = g.chars ++ charsOf gs := rfl

@[simp] theorem charsOf_append (gs hs : List Cluster) :
    charsOf (gs ++ hs) = charsOf gs ++ charsOf hs := List.flatMap_append

@[simp] theorem charsOf_map_ofChar (cs : List Char) : charsOf (cs.map ofChar) = cs := by
  induction cs with
  | nil => rfl
  | cons c cs ih => rw [List.map_cons, charsOf_cons, ih]; rfl

end Cluster

namespace Text

/-- Puts a scalar value in front of the first cluster. -/
def attach (c : Char) : List Cluster → List Cluster
  | [] => [.ofChar c]
  | g :: gs => ⟨c :: g.chars⟩ :: gs

/-- The clusters of a text that stands after scalar values of the given classes, nearest first. -/
def clustersAfter (before : List BreakClass) : List Char → List Cluster
  | [] => []
  | [c] => [.ofChar c]
  | c :: d :: cs =>
    let here := .ofChar c :: before
    if joins here (.ofChar d) then attach c (clustersAfter here (d :: cs))
    else .ofChar c :: clustersAfter here (d :: cs)

/-- The extended grapheme clusters of a text. -/
def clusters (cs : List Char) : List Cluster := clustersAfter [] cs

/-! ## Nothing is lost -/

/-- A character that is attached goes to the front. -/
theorem charsOf_attach (c : Char) (gs : List Cluster) :
    Cluster.charsOf (attach c gs) = c :: Cluster.charsOf gs := by
  cases gs <;> rfl

/-- Cutting characters into clusters loses none of them. -/
theorem charsOf_clustersAfter (before : List BreakClass) (cs : List Char) :
    Cluster.charsOf (clustersAfter before cs) = cs := by
  fun_induction clustersAfter before cs with
  | case1 => rfl
  | case2 => rfl
  | case3 before c d cs here _ ih => rw [charsOf_attach, ih]
  | case4 before c d cs here _ ih => simp [Cluster.ofChar, ih]

/-- **The clusters of a text, put together, are the text.** -/
theorem chars_clusters (cs : List Char) : Cluster.charsOf (clusters cs) = cs :=
  charsOf_clustersAfter [] cs

/-- Where a character is attached no cluster is empty. -/
theorem ne_nil_of_mem_attach {c : Char} {gs : List Cluster}
    (h : ∀ g ∈ gs, g.chars ≠ []) : ∀ g ∈ attach c gs, g.chars ≠ [] := by
  cases gs with
  | nil => simp [attach, Cluster.ofChar]
  | cons k ks =>
    intro g hg
    rcases List.mem_cons.1 hg with rfl | hg
    · simp
    · exact h g (List.mem_cons_of_mem _ hg)

theorem ne_nil_of_mem_clustersAfter (before : List BreakClass) (cs : List Char) :
    ∀ g ∈ clustersAfter before cs, g.chars ≠ [] := by
  fun_induction clustersAfter before cs with
  | case1 => simp
  | case2 => simp [Cluster.ofChar]
  | case3 before c d cs here _ ih => exact ne_nil_of_mem_attach ih
  | case4 before c d cs here _ ih =>
    intro g hg
    rcases List.mem_cons.1 hg with rfl | hg
    · simp [Cluster.ofChar]
    · exact ih g hg

/-- No cluster of a text is empty. -/
theorem ne_nil_of_mem_clusters {cs : List Char} {g : Cluster} (h : g ∈ clusters cs) :
    g.chars ≠ [] :=
  ne_nil_of_mem_clustersAfter [] cs g h

end Text

end Lexis
