import Lexis.Punctuation
import Mathlib.Tactic.DefEqTransformations

/-!
# The longest mark

Clusters spell a mark if they begin with one cluster for each of its characters. The mark that is
read is one that they spell, and the longest of these (`ahead?_spells`, `exists_of_spelledBy`), so it
depends on the clusters only through the marks they spell.
-/

namespace Lexis.Punctuator

/-- The clusters that spell a mark. -/
def clusters (p : Punctuator) : List Cluster := p.spelling.toList.map .ofChar

/-- The clusters begin with those that spell the mark. -/
def SpelledBy (p : Punctuator) (gs : List Cluster) : Prop := p.clusters <+: gs

theorem length_clusters (p : Punctuator) : p.clusters.length = p.spelling.length := by
  rw [clusters, List.length_map, String.length_toList]

theorem longest?_spelling {c : Char} {second third : Option Char} {p : Punctuator}
    (h : longest? c second third = some p) :
    p.spelling.toList = [c] ∨ (∃ a, second = some a ∧ p.spelling.toList = [c, a]) ∨
      ∃ a b, second = some a ∧ third = some b ∧ p.spelling.toList = [c, a, b] := by
  unfold longest? at h
  split at h
  all_goals simp only [Option.some.injEq, reduceCtorEq] at h
  all_goals repeat' split at h
  all_goals subst h
  all_goals first
    | exact Or.inl rfl
    | exact Or.inr (Or.inl ⟨_, ‹_›, rfl⟩)
    | exact Or.inr (Or.inr ⟨_, _, ‹_›, ‹_›, rfl⟩)

/-- A cluster ahead that is one scalar value. -/
theorem eq_cons_of_scalar {gs : List Cluster} {c : Char}
    (h : (gs[0]?).bind Cluster.single? = some c) : ∃ tail, gs = .ofChar c :: tail := by
  cases gs with
  | nil => simp at h
  | cons g tail => exact ⟨tail, by rw [Cluster.eq_ofChar_of_single? h]⟩

/-- The mark ahead is spelled by the clusters ahead. -/
theorem ahead?_spells {gs : List Cluster} {p : Punctuator} (h : ahead? gs = some p) :
    p.SpelledBy gs := by
  obtain ⟨c, hc, hp⟩ := Option.bind_eq_some_iff.mp h
  obtain ⟨tail, rfl⟩ := eq_cons_of_scalar hc
  unfold SpelledBy clusters
  rcases longest?_spelling hp with hs | ⟨a, ha, hs⟩ | ⟨a, b, ha, hb, hs⟩
  · rw [hs]
    exact ⟨tail, rfl⟩
  · obtain ⟨tail, rfl⟩ := eq_cons_of_scalar ha
    rw [hs]
    exact ⟨tail, rfl⟩
  · obtain ⟨tail, rfl⟩ := eq_cons_of_scalar ha
    obtain ⟨tail, rfl⟩ := eq_cons_of_scalar hb
    rw [hs]
    exact ⟨tail, rfl⟩

/-- Where a mark is spelled, one is read that is no shorter. -/
theorem exists_of_spelledBy {gs : List Cluster} {q : Punctuator} (h : q.SpelledBy gs) :
    ∃ p, ahead? gs = some p ∧ q.spelling.length ≤ p.spelling.length := by
  obtain ⟨rest, rfl⟩ := h
  cases q
  all_goals refine ⟨_, rfl, ?_⟩
  all_goals beta_reduce
  all_goals repeat' split
  all_goals first
    | decide
    | exact absurd rfl ‹_›
    | exact absurd (show some '<' = some '=' from ‹_›) (by decide)
    | exact absurd (show some '>' = some '=' from ‹_›) (by decide)

/-- The first cluster decides whether there is a mark. -/
theorem ahead?_isSome (g : Cluster) (gs hs : List Cluster) :
    (ahead? (g :: gs)).isSome = (ahead? (g :: hs)).isSome := by
  have hlongest : ∀ (c : Char) (a b a' b' : Option Char),
      (longest? c a b).isSome = (longest? c a' b').isSome := by
    intro c a b a' b'
    unfold longest?
    split <;> rfl
  unfold ahead?
  simp only [List.getElem?_cons_zero, Option.bind_some]
  cases g.single? with
  | none => rfl
  | some c => exact hlongest c _ _ _ _

/-- What is spelled can be read back. -/
theorem ahead?_clusters (p : Punctuator) : ahead? p.clusters = some p := by
  cases p <;> rfl

end Lexis.Punctuator
