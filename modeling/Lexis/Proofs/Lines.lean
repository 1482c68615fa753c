import Lexis.Proofs.EndOfInput
import Lexis.Proofs.LineFeed
import Lexis.Proofs.Lookahead
import Lexis.Proofs.Replacement

/-!
# Scanning line by line

Two texts with a line feed between them are scanned one after the other: the second one as if it
stood alone, but further down (`scan_lineFeed`). A scan of the whole text first mirrors the scan of
the first text, in front of more clusters, and behind the line feed that of the second text, at
other positions. Both are the same relation between scanners, kept by every call (`Mirrors`).
-/

namespace Lexis

/-! ## Further down in a text -/

/-- The position further down by bytes and lines. -/
def Position.movedBy (bytes lines : Nat) (p : Position) : Position :=
  ⟨p.offset + bytes, p.line + lines, p.column⟩

def Token.movedBy (bytes lines : Nat) (t : Token) : Token :=
  { t with position := t.position.movedBy bytes lines }

def Diagnostic.movedBy (bytes lines : Nat) (d : Diagnostic) : Diagnostic :=
  { d with position := d.position.movedBy bytes lines }

/-- Moving a position and passing a cluster may be swapped. -/
theorem Position.next_movedBy (bytes lines : Nat) (p : Position) (g : Cluster) :
    (p.movedBy bytes lines).next g = (p.next g).movedBy bytes lines := by
  simp only [next, movedBy]
  split
  · rw [Nat.add_right_comm, Nat.add_right_comm p.line]
  · rw [Nat.add_right_comm]

theorem Position.passing_movedBy (bytes lines : Nat) (p : Position) (gs : List Cluster) :
    (p.movedBy bytes lines).passing gs = (p.passing gs).movedBy bytes lines := by
  induction gs generalizing p with
  | nil => rfl
  | cons g gs ih => rw [passing_cons, passing_cons, next_movedBy, ih]

theorem Token.map_movedBy_zero (ts : List Token) : ts.map (movedBy 0 0) = ts := List.map_id ts

theorem Diagnostic.map_movedBy_zero (ds : List Diagnostic) : ds.map (movedBy 0 0) = ds :=
  List.map_id ds

/-- A warning is given for a token that is moved, where it is moved to. -/
theorem Scanner.warningsOf_movedBy (bytes lines : Nat) (options : ScannerOptions)
    (frames : TemplateStack) (kind : TokenKind) (p : Position) :
    warningsOf options frames kind (p.movedBy bytes lines)
      = (warningsOf options frames kind p).map (Diagnostic.movedBy bytes lines) := by
  simp only [warningsOf]
  split <;> rfl

/-! ## Clusters in front of a line break -/

section

variable {tail : List Cluster}

/-- A line ends with the input, or before a cluster that separates. -/
theorem eq_nil_or_separates (h : EndsLine tail) :
    tail = [] ∨ ∃ g gs, tail = g :: gs ∧ g.separates = true := by
  cases tail with
  | nil => exact .inl rfl
  | cons g gs =>
    have hg : g.isLineBreak = true := by simpa [EndsLine] using h
    exact .inr ⟨g, gs, rfl, Cluster.separates_of_isLineBreak hg⟩

/-- What a reader sees ahead is not changed behind the end of the line. -/
theorem sight_append (h : EndsLine tail) (gs : List Cluster) : sight (gs ++ tail) = sight gs := by
  rcases eq_nil_or_separates h with rfl | ⟨g, rest, rfl, hg⟩
  · rw [List.append_nil]
  · rcases gs with _ | ⟨k, _ | ⟨j, gs⟩⟩
    · exact sight_eq_nil_of_separates hg rest
    · cases hk : k.separates with
      | true => rw [List.cons_append, sight_eq_nil_of_separates hk, sight_eq_nil_of_separates hk]
      | false =>
        rw [List.cons_append, sight_cons hk, sight_cons hk]
        simp [hg]
    · rfl

theorem EndsLine.append {gs : List Cluster} (h : EndsLine tail) (hgs : EndsLine gs) :
    EndsLine (gs ++ tail) := by
  cases gs with
  | nil => exact h
  | cons g gs => exact hgs

end

namespace Scanner

/--
A scan `u` that does what `s` does, further down and before a warning list of its own.

The clusters ahead of `u` are those ahead of `s` and then `tail`.
-/
structure Mirrors (bytes lines : Nat) (ws : List Diagnostic) (tail : List Cluster)
    (s u : Scanner) : Prop where
  options : u.options = s.options
  frames : u.frames = s.frames
  ahead : u.cursor.ahead = s.cursor.ahead ++ tail
  position : u.position = s.position.movedBy bytes lines
  warnings : u.warnings = ws ++ s.warnings.map (Diagnostic.movedBy bytes lines)

/-! ## One call -/

section

variable {s s' u : Scanner} {t : Token} {d : Diagnostic} {fault : Fault} {bytes lines : Nat}
  {ws : List Diagnostic} {tail blanks lexeme passed : List Cluster}

/-- A token keeps both scans in step. -/
theorem Mirrors.past (h : Mirrors bytes lines ws tail s u)
    (ht : s.Takes blanks lexeme t s') :
    Mirrors bytes lines ws tail s' (u.past blanks lexeme t.kind) where
  options := by
    rw [ht.after]
    exact h.options
  frames := by
    rw [ht.after]
    exact congrArg (TemplateStack.afterToken · t.kind) h.frames
  ahead := by
    refine ahead_past ?_ t.kind
    rw [h.ahead, ht.ahead]
    simp only [List.append_assoc]
  position := by
    rw [ht.after]
    show (u.position.passing blanks).passing lexeme = _
    rw [h.position, Position.passing_movedBy, Position.passing_movedBy]
    rfl
  warnings := by
    rw [ht.after]
    show u.warnings ++ warningsOf u.options (u.frames.afterToken t.kind) t.kind
      (u.position.passing blanks) = ws ++ (s.warnings ++ _).map _
    rw [h.warnings, h.options, h.frames, h.position, Position.passing_movedBy, warningsOf_movedBy,
      List.map_append, List.append_assoc]

/-- A token that `s` takes is taken by `u`, further down. -/
theorem Mirrors.takes (h : Mirrors bytes lines ws tail s u) (htail : EndsLine tail)
    (ht : s.Takes blanks lexeme t s') :
    u.Takes blanks lexeme (t.movedBy bytes lines) (u.past blanks lexeme t.kind) := by
  have hahead : u.cursor.ahead = blanks ++ (lexeme ++ (s'.cursor.ahead ++ tail)) := by
    rw [h.ahead, ht.ahead]
    simp only [List.append_assoc]
  have htakes := ht.replace h.frames hahead (sight_append htail _) htail.append
  rw [h.position, Position.passing_movedBy, ← ht.position] at htakes
  exact htakes

/-- An error is the same one, moved, if nothing was put behind the source. -/
theorem Mirrors.fails (h : Mirrors bytes lines ws [] s u)
    (hf : s.Fails blanks passed fault d s') :
    u.Fails blanks passed fault (d.movedBy bytes lines) (u.stopped (blanks ++ passed)) where
  ahead := by rw [h.ahead, List.append_nil, hf.ahead]
  blanksIn := by rw [← hf.blanksIn, h.ahead, List.append_nil, blanksIn_congr h.frames]
  read := by rw [h.frames, hf.read]
  diagnostic := by
    rw [hf.diagnostic, hf.after]
    show _ = fault.cause.diagnostic (u.position.passing (blanks ++ passed))
    rw [h.position, Position.passing_movedBy]
    rfl
  after := rfl

end

/-! ## Runs -/

/-- So a run gives the same tokens, moved. -/
theorem Mirrors.run {s s' u : Scanner} {ts : List Token} {bytes lines : Nat}
    {ws : List Diagnostic} {tail : List Cluster} (h : Mirrors bytes lines ws tail s u)
    (htail : EndsLine tail) (hrun : Run s ts s') :
    ∃ u', Run u (ts.map (Token.movedBy bytes lines)) u' ∧ Mirrors bytes lines ws tail s' u' := by
  induction hrun generalizing u with
  | nil s => exact ⟨u, .nil u, h⟩
  | cons hnext _ ih =>
    obtain ⟨blanks, lexeme, ht⟩ := takes_of_next hnext
    obtain ⟨u', hrun', h'⟩ := ih (h.past ht)
    exact ⟨u', .cons (h.takes htail ht).next hrun', h'⟩

/-- A run does not change where the input ends. -/
theorem Run.passing_ahead {s s' : Scanner} {ts : List Token} (h : Run s ts s') :
    s'.position.passing s'.cursor.ahead = s.position.passing s.cursor.ahead := by
  obtain ⟨gs, hgs⟩ := h.passes
  rw [hgs.ahead, Position.passing_append, hgs.position]

/-! ## Two texts -/

/-- Where a text ends. -/
def endOf (source : String) : Position := Position.start.passing (Text.clusters source.toList)

/-- The place after a line feed that follows a text. -/
theorem next_endOf (source : String) : (endOf source).next (.ofChar '\n')
    = Position.start.movedBy (Text.size source.toList + 1) (source.toList.count '\n' + 1) := by
  have hoffset : (endOf source).offset = Text.size source.toList := by
    rw [endOf, Position.offset_passing, Text.chars_clusters]
    exact Nat.zero_add _
  have hline : (endOf source).line = source.toList.count '\n' + 1 := by
    rw [endOf, Position.line_passing, Text.countP_isLineBreak]
    exact Nat.add_comm _ _
  have hbreak : (Cluster.ofChar '\n').isLineBreak = true := rfl
  rw [Position.next, if_pos hbreak, hoffset, hline, Position.movedBy]
  simp only [Position.start, Position.mk.injEq, and_true]
  exact ⟨(Nat.zero_add _).symm, Nat.add_comm _ _⟩

/-- In code a line feed ends the blanks and is a token. -/
theorem takes_lineFeed {u : Scanner} {blanks rest : List Cluster} (hframes : u.frames = [])
    (hahead : u.cursor.ahead = blanks ++ .ofChar '\n' :: rest)
    (hblanks : ∀ g ∈ blanks, g.isBlank = true) :
    u.Takes blanks [.ofChar '\n'] ⟨.lineBreak, u.position.passing blanks, "\n"⟩
      (u.past blanks [.ofChar '\n'] .lineBreak) := by
  have hsplit : u.cursor.ahead = blanks ++ ([.ofChar '\n'] ++ rest) := hahead
  refine takes_of_read hsplit ?_ ?_
  · rw [hahead]
    unfold Scanner.blanksIn
    rw [hframes]
    exact (span_append hblanks (by rfl)).1
  · rw [hframes]
    rfl

/-- A scan of the whole text starts as one of the first text. -/
theorem mirrors_ofText {first : String} (hcr : first.toList.getLast? ≠ some '\r')
    (second : String) (options : ScannerOptions) :
    Mirrors 0 0 [] (.ofChar '\n' :: Text.clusters second.toList) (ofText first options)
      (ofText (first ++ "\n" ++ second) options) where
  options := rfl
  frames := rfl
  ahead := by
    show (Cursor.ofText _).ahead = (Cursor.ofText _).ahead ++ _
    rw [Cursor.ahead_ofText, Cursor.ahead_ofText, String.toList_append, String.toList_append,
      List.append_assoc]
    exact Text.clusters_lineFeed hcr _
  position := rfl
  warnings := rfl

/-- Where the first text has ended, the line feed is taken and the second text starts. -/
theorem Mirrors.lineFeed {s u : Scanner} {first second : String}
    (h : Mirrors 0 0 [] (.ofChar '\n' :: Text.clusters second.toList) s u)
    (hframes : s.frames = []) (hblanks : s.blanksIn s.cursor.ahead = s.cursor.ahead)
    (hend : s.position.passing s.cursor.ahead = endOf first) :
    ∃ u', u.next = (.ok ⟨.lineBreak, endOf first, "\n"⟩, u') ∧
      Mirrors (Text.size first.toList + 1) (first.toList.count '\n' + 1) s.warnings []
        (ofText second s.options) u' := by
  have hposition : u.position.passing s.cursor.ahead = endOf first := by
    rw [h.position, Position.passing_movedBy, hend]
    rfl
  have hline := takes_lineFeed (h.frames.trans hframes) h.ahead
    fun g hg => isBlank_of_mem_blanksIn (hblanks.symm ▸ hg)
  rw [hposition] at hline
  refine ⟨_, hline.next, ?_⟩
  exact
    { options := h.options
      frames := by
        show u.frames.afterToken .lineBreak = []
        rw [h.frames, hframes]
        rfl
      ahead := by
        rw [ahead_past h.ahead, List.append_nil]
        exact (Cursor.ahead_ofText second).symm
      position := by
        show (u.position.passing s.cursor.ahead).next (.ofChar '\n') = _
        rw [hposition]
        exact next_endOf first
      warnings := by
        -- a line break gives no warning, and the second text has none yet
        show u.warnings ++ [] = s.warnings ++ []
        rw [h.warnings, Diagnostic.map_movedBy_zero]
        rfl }

/--
**A scan of two texts with a line feed between them is the two scans in a row.**

The first text has to be scanned without an error, and must not end in a carriage return, which
would make one line break with the line feed.
-/
theorem scan_lineFeed (first second : String) (options : ScannerOptions)
    (hok : (scan first options).error = none) (hcr : first.toList.getLast? ≠ some '\r') :
    let bytes := Text.size first.toList + 1
    let lines := first.toList.count '\n' + 1
    (ofText first options).scanToEnd.2.position = endOf first ∧
      scan (first ++ "\n" ++ second) options =
        { tokens := (scan first options).tokens ++ ⟨.lineBreak, endOf first, "\n"⟩
            :: (scan second options).tokens.map (Token.movedBy bytes lines)
          error := (scan second options).error.map (Diagnostic.movedBy bytes lines)
          warnings := (scan first options).warnings
            ++ (scan second options).warnings.map (Diagnostic.movedBy bytes lines) } := by
  intro bytes lines
  obtain ⟨s, d, s', hrun, hd, herror, hwarnings⟩ := exists_run_scan first options
  -- without an error nothing is left open at the end of the first text
  obtain ⟨hframes, hblanks, hstop⟩ := ends_of_error_none hd (herror.symm.trans hok)
  have hend : s.position.passing s.cursor.ahead = endOf first := by
    rw [hrun.passing_ahead, endOf, ← Cursor.ahead_ofText]
    rfl
  refine ⟨?_, ?_⟩
  · rw [scanToEnd, hrun.drain hd]
    exact hstop.trans hend
  · -- the whole text is scanned in three parts: the first text, the line feed, the second text
    obtain ⟨u, hfront, hu⟩ := (mirrors_ofText hcr second options).run rfl hrun
    obtain ⟨u', hline, hu'⟩ := hu.lineFeed hframes hblanks hend
    rw [hrun.options] at hu'
    obtain ⟨v, e, v', hrun', he, herror', hwarnings'⟩ := exists_run_scan second options
    obtain ⟨w, hback, hw⟩ := hu'.run rfl hrun'
    obtain ⟨blanks, passed, fault, hf⟩ := fails_of_next he
    have hscan : scan (first ++ "\n" ++ second) options = _ :=
      (hfront.append (.cons hline hback)).scanToEnd (hw.fails hf).next
    rw [hscan, Token.map_movedBy_zero, hw.warnings, hwarnings, herror', hwarnings',
      error_map (f := Diagnostic.movedBy _ _) rfl]

/-- A rune that is not closed is reported below the line before it. -/
theorem scan_lineFeed_unterminated :
    (scan ("a" ++ "\n" ++ "'")).error
      = some ((LexicalError.unterminated .rune).diagnostic ⟨3, 2, 2⟩) := by
  rw [(scan_lineFeed "a" "'" {} (by decide +kernel) (by decide)).2]
  decide +kernel

end Scanner

end Lexis
