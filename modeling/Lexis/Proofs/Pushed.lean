import Lexis.Proofs.Lookahead
import Lexis.Proofs.Passing

/-!
# Pushed along by a character

Where a character is put into a source, what stands behind it is pushed along: by a byte everywhere,
and by a column on the line of the character (`Position.pushedAt`). A scan behind the character does
what it does without it, at the positions that are pushed along (`Pushed`): every call keeps that.
-/

namespace Lexis

/-! ## Positions behind a place -/

namespace Position

/-- Where a position is once a character of one byte stands at the place `p`. -/
def pushedAt (q p : Position) : Position :=
  if p.offset ≤ q.offset then
    ⟨q.offset + 1, q.line, if q.line = p.line then q.column + 1 else q.column⟩
  else q

/-- The position is the place `p` or behind it. -/
structure Behind (q p : Position) : Prop where
  offset : p.offset ≤ q.offset
  line : p.line ≤ q.line

variable {p q : Position}

/-- What stands before the place stays where it is. -/
theorem pushedAt_of_lt (h : q.offset < p.offset) : q.pushedAt p = q := by
  rw [pushedAt, if_neg (Nat.not_le.mpr h)]

/-- A character of one byte that breaks no line pushes its own place along. -/
theorem pushedAt_self {g : Cluster} (hline : g.isLineBreak = false) (hsize : g.size = 1)
    (p : Position) : p.pushedAt p = p.next g := by
  rw [pushedAt, if_pos (Nat.le_refl _), if_pos rfl, next, if_neg (by simp [hline]), hsize]

theorem Behind.refl (p : Position) : p.Behind p := ⟨Nat.le_refl _, Nat.le_refl _⟩

/-- Passing a cluster goes on, and never back to an earlier line. -/
theorem Behind.next (h : q.Behind p) (g : Cluster) : (q.next g).Behind p where
  offset := by
    rw [offset_next]
    exact Nat.le_trans h.offset (Nat.le_add_right _ _)
  line := by
    rw [line_next]
    exact Nat.le_trans h.line (Nat.le_add_right _ _)

theorem Behind.passing (h : q.Behind p) (gs : List Cluster) : (q.passing gs).Behind p := by
  induction gs generalizing q with
  | nil => exact h
  | cons g gs ih => exact ih (h.next g)

/-- Pushing a position along and passing a cluster may be swapped. -/
theorem Behind.next_pushedAt (h : q.Behind p) (g : Cluster) :
    (q.pushedAt p).next g = (q.next g).pushedAt p := by
  have hnext := (h.next g).offset
  rw [pushedAt, if_pos h.offset, pushedAt, if_pos hnext, Position.next, Position.next]
  by_cases hline : g.isLineBreak = true
  · -- the next line is not that of the character
    have hne : q.line + 1 ≠ p.line := by
      have := h.line
      omega
    simp only [if_pos hline, if_neg hne, Nat.add_right_comm]
  · simp only [if_neg hline, Nat.add_right_comm]
    split <;> rfl

/-- So pushing it along and passing any clusters may be swapped. -/
theorem Behind.passing_pushedAt (h : q.Behind p) (gs : List Cluster) :
    (q.pushedAt p).passing gs = (q.passing gs).pushedAt p := by
  induction gs generalizing q with
  | nil => rfl
  | cons g gs ih => rw [passing_cons, passing_cons, h.next_pushedAt, ih (h.next g)]

end Position

/-- A token with its position pushed along. -/
def Token.pushedAt (p : Position) (t : Token) : Token :=
  { t with position := t.position.pushedAt p }

/-- A diagnostic with its position pushed along. -/
def Diagnostic.pushedAt (p : Position) (d : Diagnostic) : Diagnostic :=
  { d with position := d.position.pushedAt p }

/-- What stands before the place stays. -/
theorem Token.map_pushedAt {ts : List Token} {p : Position}
    (h : ∀ t ∈ ts, t.position.offset < p.offset) : ts.map (pushedAt p) = ts := by
  have hstays : ∀ t ∈ ts, t.pushedAt p = id t := by
    intro t ht
    rw [pushedAt, Position.pushedAt_of_lt (h t ht)]
    rfl
  rw [List.map_congr_left hstays, List.map_id]

/-- Diagnostics before the place stay as well. -/
theorem Diagnostic.map_pushedAt {ds : List Diagnostic} {p : Position}
    (h : ∀ d ∈ ds, d.position.offset < p.offset) : ds.map (pushedAt p) = ds := by
  have hstays : ∀ d ∈ ds, d.pushedAt p = id d := by
    intro d hd
    rw [pushedAt, Position.pushedAt_of_lt (h d hd)]
    rfl
  rw [List.map_congr_left hstays, List.map_id]

/-- What a scan finds, with all that stands behind `p` pushed along. -/
def ScanOutput.pushedAt (p : Position) (out : ScanOutput) : ScanOutput where
  tokens := out.tokens.map (Token.pushedAt p)
  error := out.error.map (Diagnostic.pushedAt p)
  warnings := out.warnings.map (Diagnostic.pushedAt p)

namespace Scanner

/-- A warning is given for the token that is pushed along, at the position it then has. -/
theorem warningsOf_pushedAt (p : Position) (options : ScannerOptions) (frames : TemplateStack)
    (kind : TokenKind) (q : Position) :
    warningsOf options frames kind (q.pushedAt p)
      = (warningsOf options frames kind q).map (Diagnostic.pushedAt p) := by
  simp only [warningsOf]
  split <;> rfl

/-- A scan `u` that has ahead what `s` has, pushed along behind the place `p`. -/
structure Pushed (p : Position) (s u : Scanner) : Prop where
  options : u.options = s.options
  frames : u.frames = s.frames
  ahead : u.cursor.ahead = s.cursor.ahead
  behind : s.position.Behind p
  position : u.position = s.position.pushedAt p
  warnings : u.warnings = s.warnings.map (Diagnostic.pushedAt p)

/-! ## One call -/

section

variable {s s' u : Scanner} {t : Token} {d : Diagnostic} {fault : Fault} {p : Position}
  {blanks lexeme passed : List Cluster}

/-- Both scans agree on every place ahead, but for the push. -/
theorem Pushed.passing (h : Pushed p s u) (gs : List Cluster) :
    u.position.passing gs = (s.position.passing gs).pushedAt p := by
  rw [h.position, h.behind.passing_pushedAt]

/-- Both scans skip the same blanks, as they stand in the same frames. -/
theorem Pushed.blanksIn (h : Pushed p s u) : u.blanksIn u.cursor.ahead = s.blanksIn s.cursor.ahead := by
  rw [h.ahead, blanksIn_congr h.frames]

/-- The same token is taken, pushed along. -/
theorem Pushed.takes (h : Pushed p s u) (ht : s.Takes blanks lexeme t s') :
    u.Takes blanks lexeme (t.pushedAt p) (u.past blanks lexeme t.kind) := by
  have htakes := takes_of_read (h.ahead.trans ht.ahead) (h.blanksIn.trans ht.blanksIn)
    (h.frames ▸ ht.read)
  rw [h.passing, ← ht.position] at htakes
  exact htakes

/-- A token keeps both scans in step. -/
theorem Pushed.past (h : Pushed p s u) (ht : s.Takes blanks lexeme t s') :
    Pushed p s' (u.past blanks lexeme t.kind) := by
  have hu := h.takes ht
  exact
    { options := by rw [hu.passes.options, ht.passes.options, h.options]
      frames := by
        rw [hu.frames, ht.frames, h.frames]
        rfl
      ahead := ahead_past (h.ahead.trans ht.ahead) t.kind
      behind := by
        rw [ht.passes.position]
        exact h.behind.passing _
      position := by rw [hu.passes.position, ht.passes.position, h.passing]
      warnings := by
        rw [hu.warnings, ht.warnings, hu.frames, ht.frames, h.warnings, h.options, h.frames,
          List.map_append, ← warningsOf_pushedAt]
        rfl }

/-- An error is the same one, pushed along. -/
theorem Pushed.fails (h : Pushed p s u) (hf : s.Fails blanks passed fault d s') :
    u.Fails blanks passed fault (d.pushedAt p) (u.stopped (blanks ++ passed)) := by
  have hfails := fails_of_read (h.ahead.trans hf.ahead) (h.blanksIn.trans hf.blanksIn)
    (h.frames ▸ hf.read)
  have hposition : (u.stopped (blanks ++ passed)).position = s'.position.pushedAt p := by
    rw [hf.after]
    exact h.passing _
  rw [hposition] at hfails
  rw [hf.diagnostic]
  exact hfails

end

/-! ## Runs -/

/-- **A run behind the place gives the same tokens, pushed along.** -/
theorem Pushed.run {s s' u : Scanner} {ts : List Token} {p : Position} (h : Pushed p s u)
    (hrun : Run s ts s') :
    ∃ u', Run u (ts.map (Token.pushedAt p)) u' ∧ Pushed p s' u' := by
  induction hrun generalizing u with
  | nil s => exact ⟨u, .nil u, h⟩
  | cons hnext _ ih =>
    obtain ⟨blanks, lexeme, ht⟩ := takes_of_next hnext
    obtain ⟨u', hrun', h'⟩ := ih (h.past ht)
    exact ⟨u', .cons (h.takes ht).next hrun', h'⟩

end Scanner

end Lexis
