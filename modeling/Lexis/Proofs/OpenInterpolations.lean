import Lexis.Template

/-!
# Interpolations that are open

How many interpolations are open after a row of tokens, counted from their kinds alone: the marks
that start one, less the closing braces that match such a mark. A closing brace matches the innermost
opening mark that is not matched yet. The frames of a scan that has given the tokens hold the same
marks, apart from braces outside all templates (`Holds.afterToken`), so their depth is this count
(`Holds.interpolationDepth`).
-/

namespace Lexis.Nesting

/-! ## Matching -/

/-- The opening marks without a match after one more kind, innermost first. -/
def unmatchedAfter (marks : List TokenKind) : TokenKind → List TokenKind
  | .interpolationStart => .interpolationStart :: marks
  | .punctuation .openBrace => .punctuation .openBrace :: marks
  | .punctuation .closeBrace => marks.tail
  | _ => marks

/-- The opening marks of a row of kinds without a match, innermost first. -/
def unmatched (ks : List TokenKind) : List TokenKind := ks.foldl unmatchedAfter []

/-- How many closing braces match the start of an interpolation, behind unmatched `marks`. -/
def endedFrom (marks : List TokenKind) : List TokenKind → Nat
  | [] => 0
  | k :: ks =>
    let ended := k = .punctuation .closeBrace ∧ marks.head? = some .interpolationStart
    (if ended then 1 else 0) + endedFrom (unmatchedAfter marks k) ks

/-- The interpolations that a row of kinds leaves open: those started less those ended. -/
def openInterpolations (ks : List TokenKind) : Nat := ks.count .interpolationStart - endedFrom [] ks

/-- One kind starts an interpolation, ends one, or does neither. -/
theorem count_unmatchedAfter (marks : List TokenKind) (k : TokenKind) :
    (unmatchedAfter marks k).count .interpolationStart
        + (if k = .punctuation .closeBrace ∧ marks.head? = some .interpolationStart then 1 else 0)
      = marks.count .interpolationStart + [k].count .interpolationStart := by
  unfold unmatchedAfter
  split
  · simp
  · simp
  · cases marks with
    | nil => simp
    | cons m marks => by_cases hm : m = .interpolationStart <;> simp [hm]
  · next hstart _ hclose =>
    have hs : k ≠ .interpolationStart := hstart
    have hc : k ≠ .punctuation .closeBrace := hclose
    simp [hs, hc]

/-- Interpolations that were open or started are ended, or still unmatched. -/
theorem count_foldl_unmatchedAfter (marks ks : List TokenKind) :
    (ks.foldl unmatchedAfter marks).count .interpolationStart + endedFrom marks ks
      = marks.count .interpolationStart + ks.count .interpolationStart := by
  induction ks generalizing marks with
  | nil => rfl
  | cons k ks ih =>
    have hk := count_unmatchedAfter marks k
    have hks := ih (unmatchedAfter marks k)
    rw [← List.singleton_append, List.count_append]
    simp only [List.singleton_append, List.foldl_cons, endedFrom]
    omega

/-- The interpolations left open are those whose start has no match. -/
theorem openInterpolations_eq (ks : List TokenKind) :
    openInterpolations ks = (unmatched ks).count .interpolationStart := by
  have h := count_foldl_unmatchedAfter [] ks
  rw [List.count_nil] at h
  unfold openInterpolations unmatched
  omega

/-- A brace that was opened inside an interpolation is closed before it. -/
example : openInterpolations [.interpolationStart, .punctuation .openBrace,
    .punctuation .closeBrace, .interpolationStart, .punctuation .closeBrace] = 1 := by
  decide

/-- A kind acts on the marks that those before it leave unmatched. -/
theorem unmatched_append (ks : List TokenKind) (k : TokenKind) :
    unmatched (ks ++ [k]) = unmatchedAfter (unmatched ks) k := by
  rw [unmatched, List.foldl_append]
  rfl

/-! ## Frames -/

/-- The marks that frames hold open, innermost first. -/
def marks : TemplateStack → List TokenKind
  | [] => []
  | .text :: frames => marks frames
  | .interpolation n :: frames =>
    List.replicate n (.punctuation .openBrace) ++ .interpolationStart :: marks frames

/-- Every open interpolation has one mark. -/
theorem count_marks (frames : TemplateStack) :
    (marks frames).count .interpolationStart = frames.interpolationDepth := by
  induction frames with
  | nil => rfl
  | cons frame frames ih =>
    cases frame with
    | text => simpa [marks, TemplateStack.interpolationDepth] using ih
    | interpolation n =>
      have hbraces : (List.replicate n (TokenKind.punctuation .openBrace)).count .interpolationStart
          = 0 := by
        rw [List.count_replicate]
        rfl
      rw [marks, List.count_append, hbraces, List.count_cons_self, ih, Nat.zero_add]
      simp [TemplateStack.interpolationDepth]

/-- The frames hold what a row of kinds leaves without a match, but for braces outside them. -/
def Holds (frames : TemplateStack) (ks : List TokenKind) : Prop :=
  ∃ n, unmatched ks = marks frames ++ List.replicate n (.punctuation .openBrace)

theorem holds_nil : Holds [] [] := ⟨0, rfl⟩

/-- **The frames know how many interpolations are open.** -/
theorem Holds.interpolationDepth {frames : TemplateStack} {ks : List TokenKind}
    (h : Holds frames ks) : frames.interpolationDepth = openInterpolations ks := by
  obtain ⟨n, hn⟩ := h
  rw [openInterpolations_eq, hn, List.count_append, count_marks, List.count_replicate]
  rfl

theorem marks_quote (frames : TemplateStack) : marks frames.quote = marks frames := by
  unfold TemplateStack.quote
  split <;> rfl

/-- A closing brace takes the last mark of the frames, or one outside them. -/
theorem Holds.closeBrace {frames : TemplateStack} {ks : List TokenKind} (h : Holds frames ks)
    (hp : frames.place ≠ .templateText) :
    Holds frames.closeBrace (ks ++ [.punctuation .closeBrace]) := by
  obtain ⟨n, hn⟩ := h
  have htail : unmatched (ks ++ [.punctuation .closeBrace]) = (unmatched ks).tail :=
    unmatched_append ks _
  rw [hn] at htail
  cases frames with
  | nil => exact ⟨n - 1, by rw [htail]; simp [marks, TemplateStack.closeBrace]⟩
  | cons frame frames =>
    cases frame with
    | text => exact absurd rfl hp
    | interpolation m =>
      cases m with
      | zero => exact ⟨n, htail⟩
      | succ m => exact ⟨n, htail⟩

/-- A brace puts a mark on the innermost interpolation, or outside of all. -/
theorem Holds.openBrace {frames : TemplateStack} {ks : List TokenKind} (h : Holds frames ks)
    (hp : frames.place ≠ .templateText) :
    Holds frames.openBrace (ks ++ [.punctuation .openBrace]) := by
  obtain ⟨n, hn⟩ := h
  have hcons : unmatched (ks ++ [.punctuation .openBrace])
      = .punctuation .openBrace :: unmatched ks := unmatched_append ks _
  rw [hn] at hcons
  cases frames with
  | nil => exact ⟨n + 1, hcons⟩
  | cons frame frames =>
    cases frame with
    | text => exact absurd rfl hp
    | interpolation m => exact ⟨n, hcons⟩

/-- **The frames after a token hold what is open after it.** -/
theorem Holds.afterToken {frames : TemplateStack} {ks : List TokenKind} {k : TokenKind}
    (h : Holds frames ks) (htext : frames.place = .templateText →
      k = .templateFragment ∨ k = .templateQuote ∨ k = .interpolationStart) :
    Holds (frames.afterToken k) (ks ++ [k]) := by
  have hcode : ∀ p, k = .punctuation p → frames.place ≠ .templateText := by
    rintro p rfl hp
    simpa using htext hp
  unfold TemplateStack.afterToken
  split
  · obtain ⟨n, hn⟩ := h
    exact ⟨n, by rw [unmatched_append, hn, marks_quote]; rfl⟩
  · obtain ⟨n, hn⟩ := h
    exact ⟨n, by rw [unmatched_append, hn]; rfl⟩
  · exact h.openBrace (hcode _ rfl)
  · exact h.closeBrace (hcode _ rfl)
  · -- other kinds leave no mark
    next hstart hopen hclose =>
    obtain ⟨n, hn⟩ := h
    refine ⟨n, ?_⟩
    rw [unmatched_append, ← hn]
    unfold unmatchedAfter
    split
    · exact absurd rfl hstart
    · exact absurd rfl hopen
    · exact absurd rfl hclose
    · rfl

end Lexis.Nesting
