import Lexis.Punctuation

/-!
# Openings

Which token of code the next cluster begins. The cases are tried in the order of `Opening.of`; a look
at the next two clusters is enough for all of them (`Opening.fits` says what each case has found).
-/

namespace Lexis

/-- What a cluster of code begins. -/
inductive Opening where
  | lineBreak
  | comment
  | mark (p : Punctuator)
  | templateQuote
  | interpolation
  | rune
  | string
  | number
  | word
  /-- No token begins with the cluster. -/
  | stray
  deriving DecidableEq, Repr

namespace Opening

/-- What the cluster `g` begins in front of the clusters `rest`. -/
def of (g : Cluster) (rest : List Cluster) : Opening :=
  if g.isLineBreak then .lineBreak
  else if g.is '/' && Cluster.nextIs rest '/' then .comment
  else
    match Punctuator.ahead? (g :: rest) with
    | some p => .mark p
    | none =>
      if g.is '`' then .templateQuote
      -- a dollar sign alone is a letter
      else if g.is '$' && Cluster.nextIs rest '{' then .interpolation
      else if g.is '\'' then .rune
      else if g.is '"' then .string
      else if g.isDecimalDigit then .number
      else if g.isIdentifierPart then .word
      else .stray

/-- What stands at the front of a token that begins in a way. -/
def Fits (g : Cluster) (rest : List Cluster) : Opening → Prop
  | .lineBreak => g.isLineBreak = true
  | .comment => g.is '/' = true ∧ Cluster.nextIs rest '/' = true
  | .mark p => Punctuator.ahead? (g :: rest) = some p
  | .templateQuote => g.is '`' = true
  | .interpolation => g.is '$' = true ∧ Cluster.nextIs rest '{' = true
  | .rune => g.is '\'' = true
  | .string => g.is '"' = true
  | .number => g.isDecimalDigit = true
  | .word => g.isIdentifierPart = true
  | .stray => g.isIdentifierPart = false

/-- Every opening is told by the clusters that it fits. -/
theorem fits (g : Cluster) (rest : List Cluster) : (of g rest).Fits g rest := by
  unfold of
  split
  · assumption
  · split
    · next h => exact Bool.and_eq_true_iff.mp h
    · split
      · assumption
      · repeat' split
        · assumption
        · next h => exact Bool.and_eq_true_iff.mp h
        · assumption
        · assumption
        · assumption
        · assumption
        · next h => exact Bool.eq_false_iff.mpr h

/-- Two slashes open a comment, whatever marks begin with one. -/
theorem of_comment {g : Cluster} {rest : List Cluster}
    (h : (g.is '/' && Cluster.nextIs rest '/') = true) : of g rest = .comment := by
  have hg := Cluster.eq_ofChar_of_is (Bool.and_eq_true_iff.mp h).1
  have hline : ¬g.isLineBreak = true := by
    rw [hg]
    decide
  rw [of, if_neg hline, if_pos h]

/-- A dollar sign opens an interpolation in front of a brace only. -/
theorem of_interpolation {g : Cluster} {rest : List Cluster}
    (h : (g.is '$' && Cluster.nextIs rest '{') = true) : of g rest = .interpolation := by
  obtain ⟨hg, hnext⟩ := Bool.and_eq_true_iff.mp h
  obtain rfl := Cluster.eq_ofChar_of_is hg
  obtain ⟨tail, rfl⟩ := Cluster.eq_cons_of_nextIs hnext
  rfl

/-- A digit opens a number. -/
theorem of_digit {g : Cluster} (h : g.isDecimalDigit = true) (rest : List Cluster) :
    of g rest = .number := by
  obtain ⟨c, rfl, hc⟩ := Cluster.eq_ofChar_of_isOne h
  have hmem := Alphabet.mem_of_isDecimalDigit hc
  simp only [List.mem_cons, List.not_mem_nil, or_false] at hmem
  rcases hmem with rfl | rfl | rfl | rfl | rfl | rfl | rfl | rfl | rfl | rfl <;> rfl

end Opening

end Lexis
