import Lexis.Scanner
import Lexis.Proofs.Suffix

/-!
# Runs of the scanner

What one call does, said once: it passes blanks and then the clusters of a lexeme (`Takes`), or stops
where an error was noticed (`Fails`). Both are stated on the clusters ahead, so nothing that follows
has to look at cursors again. A run is a row of calls that give tokens, and scanning to the end is
the run up to the first error (`drain_eq_iff`).
-/

namespace Lexis.Scanner

/-- The scan after a token of a kind, read from `lexeme` behind `blanks`. -/
def past (s : Scanner) (blanks lexeme : List Cluster) (kind : TokenKind) : Scanner :=
  let frames := s.frames.afterToken kind
  let start := s.position.passing blanks
  { s with
    cursor := ⟨s.source, start.passing lexeme⟩
    frames
    warnings := s.warnings ++ warningsOf s.options frames kind start }

/-- The scan after an error that was noticed behind `gs`. -/
def stopped (s : Scanner) (gs : List Cluster) : Scanner :=
  { s with cursor := ⟨s.source, s.position.passing gs⟩ }

/-- A call that gives a token: blanks are passed, then the clusters of its lexeme. -/
structure Takes (s : Scanner) (blanks lexeme : List Cluster) (t : Token) (s' : Scanner) : Prop where
  ahead : s.cursor.ahead = blanks ++ (lexeme ++ s'.cursor.ahead)
  blanksIn : s.blanksIn s.cursor.ahead = blanks
  read : Lexeme.read s.frames.place (lexeme ++ s'.cursor.ahead)
    = .ok ⟨t.kind, t.text, s'.cursor.ahead⟩
  position : t.position = s.position.passing blanks
  after : s' = s.past blanks lexeme t.kind

/-- A call that gives an error: blanks are passed, and the clusters before the fault. -/
structure Fails (s : Scanner) (blanks passed : List Cluster) (fault : Fault) (d : Diagnostic)
    (s' : Scanner) : Prop where
  ahead : s.cursor.ahead = blanks ++ (passed ++ fault.rest)
  blanksIn : s.blanksIn s.cursor.ahead = blanks
  read : Lexeme.read s.frames.place (passed ++ fault.rest) = .error fault
  diagnostic : d = fault.cause.diagnostic s'.position
  after : s' = s.stopped (blanks ++ passed)

/-! ## One call -/

section

variable {s : Scanner} {blanks passed rest : List Cluster}

theorem stepAll_stepAll (h : s.cursor.ahead = blanks ++ (passed ++ rest)) :
    (s.cursor.stepAll blanks).stepAll passed
      = ⟨s.source, (s.position.passing blanks).passing passed⟩ := by
  rw [Cursor.stepAll_of_ahead (Cursor.ahead_stepAll h), Cursor.stepAll_of_ahead h]
  rfl

theorem ahead_stepAll_stepAll (h : s.cursor.ahead = blanks ++ (passed ++ rest)) :
    ((s.cursor.stepAll blanks).stepAll passed).ahead = rest :=
  Cursor.ahead_stepAll (Cursor.ahead_stepAll h)

theorem ahead_past (h : s.cursor.ahead = blanks ++ (passed ++ rest)) (kind : TokenKind) :
    (s.past blanks passed kind).cursor.ahead = rest := by
  rw [← ahead_stepAll_stepAll h, stepAll_stepAll h]
  rfl

theorem ahead_stopped (h : s.cursor.ahead = blanks ++ (passed ++ rest)) :
    (s.stopped (blanks ++ passed)).cursor.ahead = rest := by
  rw [← ahead_stepAll_stepAll h, stepAll_stepAll h, stopped, Position.passing_append]

/-- Where blanks and a lexeme are ahead, the call gives its token. -/
theorem nextIn_ok {kind : TokenKind} {text : String}
    (hahead : s.cursor.ahead = blanks ++ (passed ++ rest))
    (hblanks : s.blanksIn s.cursor.ahead = blanks)
    (hread : Lexeme.read s.frames.place (passed ++ rest) = .ok ⟨kind, text, rest⟩) :
    s.nextIn s.cursor.ahead
      = (.ok ⟨kind, s.position.passing blanks, text⟩, s.past blanks passed kind, rest) := by
  have hstart : (s.cursor.stepAll blanks).position = s.position.passing blanks := by
    rw [Cursor.stepAll_of_ahead hahead]
    rfl
  have hdrop : s.cursor.ahead.drop blanks.length = passed ++ rest := by rw [hahead, List.drop_left]
  unfold nextIn
  simp only [hblanks, hdrop, hread, upTo_append, hstart, stepAll_stepAll hahead]
  rfl

/-- Where blanks and a fault are ahead, the call gives its diagnostic. -/
theorem nextIn_error {fault : Fault}
    (hahead : s.cursor.ahead = blanks ++ (passed ++ fault.rest))
    (hblanks : s.blanksIn s.cursor.ahead = blanks)
    (hread : Lexeme.read s.frames.place (passed ++ fault.rest) = .error fault) :
    s.nextIn s.cursor.ahead
      = (.error (fault.cause.diagnostic (s.stopped (blanks ++ passed)).position),
          s.stopped (blanks ++ passed), fault.rest) := by
  have hdrop : s.cursor.ahead.drop blanks.length = passed ++ fault.rest := by
    rw [hahead, List.drop_left]
  unfold nextIn
  simp only [hblanks, hdrop, hread, upTo_append, stepAll_stepAll hahead]
  rw [stopped, Position.passing_append]
  rfl

end

section

variable {s s' : Scanner} {t : Token} {d : Diagnostic} {fault : Fault}
  {blanks lexeme passed : List Cluster}

/-- Template text keeps its blanks. -/
theorem blanksIn_templateText (h : s.frames.place = .templateText) (ahead : List Cluster) :
    s.blanksIn ahead = [] := by
  rw [Scanner.blanksIn, h]

/-- In code the blanks at the front are passed. -/
theorem blanksIn_of_place (h : s.frames.place ≠ .templateText) (ahead : List Cluster) :
    s.blanksIn ahead = ahead.takeWhile (·.isBlank) := by
  unfold Scanner.blanksIn
  split
  · next hp => exact absurd hp h
  · rfl

/-- Which blanks are passed is up to the frames. -/
theorem blanksIn_congr {u : Scanner} (h : u.frames = s.frames) (ahead : List Cluster) :
    u.blanksIn ahead = s.blanksIn ahead := by
  unfold Scanner.blanksIn
  rw [h]

/-- No blanks are passed where the next cluster is none. -/
theorem blanksIn_of_head {g : Cluster} {gs : List Cluster} (hahead : s.cursor.ahead = g :: gs)
    (hg : g.isBlank = false) : s.blanksIn s.cursor.ahead = [] := by
  unfold Scanner.blanksIn
  split
  · rfl
  · rw [hahead, List.takeWhile_cons_of_neg (by simp [hg])]

theorem isBlank_of_mem_blanksIn {ahead : List Cluster} {g : Cluster} (h : g ∈ s.blanksIn ahead) :
    g.isBlank = true := by
  unfold Scanner.blanksIn at h
  split at h
  · simp at h
  · exact List.all_eq_true.mp List.all_takeWhile g h

/-- The clusters ahead are blanks, and what a lexeme is read from. -/
theorem blanksIn_append_drop (s : Scanner) :
    s.cursor.ahead = s.blanksIn s.cursor.ahead
      ++ s.cursor.ahead.drop (s.blanksIn s.cursor.ahead).length := by
  unfold blanksIn
  split
  · rfl
  · exact (List.prefix_iff_eq_append.mp (List.takeWhile_prefix _)).symm

theorem Takes.next (h : s.Takes blanks lexeme t s') : s.next = (.ok t, s') := by
  obtain ⟨kind, position, text⟩ := t
  obtain rfl : position = s.position.passing blanks := h.position
  rw [Scanner.next, nextIn_ok h.ahead h.blanksIn h.read, h.after]

theorem Fails.next (h : s.Fails blanks passed fault d s') : s.next = (.error d, s') := by
  rw [Scanner.next, nextIn_error h.ahead h.blanksIn h.read, h.diagnostic, h.after]

/-- Where blanks and a lexeme are ahead, a call takes the lexeme's token. -/
theorem takes_of_read {kind : TokenKind} {text : String} {rest : List Cluster}
    (hahead : s.cursor.ahead = blanks ++ (lexeme ++ rest))
    (hblanks : s.blanksIn s.cursor.ahead = blanks)
    (hread : Lexeme.read s.frames.place (lexeme ++ rest) = .ok ⟨kind, text, rest⟩) :
    s.Takes blanks lexeme ⟨kind, s.position.passing blanks, text⟩ (s.past blanks lexeme kind) where
  ahead := by rw [ahead_past hahead, hahead]
  blanksIn := hblanks
  read := by rw [ahead_past hahead, hread]
  position := rfl
  after := rfl

/-- Where blanks and a fault are ahead, a call fails. -/
theorem fails_of_read (hahead : s.cursor.ahead = blanks ++ (passed ++ fault.rest))
    (hblanks : s.blanksIn s.cursor.ahead = blanks)
    (hread : Lexeme.read s.frames.place (passed ++ fault.rest) = .error fault) :
    s.Fails blanks passed fault
      (fault.cause.diagnostic (s.stopped (blanks ++ passed)).position)
      (s.stopped (blanks ++ passed)) :=
  { ahead := hahead, blanksIn := hblanks, read := hread, diagnostic := rfl, after := rfl }

/-- A lexeme is read from clusters of the source, none of which is empty. -/
theorem Takes.chars_ne_nil (h : s.Takes blanks lexeme t s') :
    ∀ g ∈ lexeme ++ s'.cursor.ahead, g.chars ≠ [] := by
  intro g hg
  refine Cursor.ne_nil_of_mem_ahead (c := s.cursor) ?_
  rw [h.ahead]
  exact List.mem_append_right _ hg

theorem Takes.frames (h : s.Takes blanks lexeme t s') :
    s'.frames = s.frames.afterToken t.kind := by
  rw [h.after]
  rfl

theorem Takes.warnings (h : s.Takes blanks lexeme t s') :
    s'.warnings = s.warnings ++ warningsOf s.options s'.frames t.kind t.position := by
  rw [h.frames, h.position, h.after]
  rfl

/-- **A call takes a token or fails.** -/
theorem takes_or_fails (s : Scanner) :
    (∃ blanks lexeme t s', s.Takes blanks lexeme t s') ∨
      ∃ blanks passed fault d s', s.Fails blanks passed fault d s' := by
  have hsplit := s.blanksIn_append_drop
  generalize hb : s.blanksIn s.cursor.ahead = blanks at hsplit
  generalize s.cursor.ahead.drop blanks.length = gs at hsplit
  -- what the reader leaves is an end part, so what it has passed is a front part
  have hsuffix := Lexeme.suffix_read s.frames.place gs
  cases hr : Lexeme.read s.frames.place gs with
  | ok x =>
    obtain ⟨kind, text, rest⟩ := x
    rw [hr] at hsuffix
    obtain ⟨lexeme, rfl⟩ : rest <:+ gs := hsuffix
    exact .inl ⟨blanks, lexeme, _, _, takes_of_read hsplit hb hr⟩
  | error fault =>
    rw [hr] at hsuffix
    obtain ⟨passed, rfl⟩ : fault.rest <:+ gs := hsuffix
    exact .inr ⟨blanks, passed, fault, _, _, fails_of_read hsplit hb hr⟩

theorem takes_of_next (h : s.next = (.ok t, s')) : ∃ blanks lexeme, s.Takes blanks lexeme t s' := by
  rcases s.takes_or_fails with ⟨blanks, lexeme, u, u', ht⟩ | ⟨_, _, _, _, _, hf⟩
  · rw [ht.next] at h
    simp only [Prod.mk.injEq, Except.ok.injEq] at h
    obtain ⟨rfl, rfl⟩ := h
    exact ⟨blanks, lexeme, ht⟩
  · rw [hf.next] at h
    simp at h

theorem fails_of_next (h : s.next = (.error d, s')) :
    ∃ blanks passed fault, s.Fails blanks passed fault d s' := by
  rcases s.takes_or_fails with ⟨_, _, _, _, ht⟩ | ⟨blanks, passed, fault, e, u', hf⟩
  · rw [ht.next] at h
    simp at h
  · rw [hf.next] at h
    simp only [Prod.mk.injEq, Except.error.injEq] at h
    obtain ⟨rfl, rfl⟩ := h
    exact ⟨blanks, passed, fault, hf⟩

/-- **Where no blanks are ahead, a call gives what its reader does, and stops where that did.** -/
theorem next_eq_ok_iff (hblanks : s.blanksIn s.cursor.ahead = []) :
    s.next = (.ok t, s') ↔
      ∃ lexeme rest, s.cursor.ahead = lexeme ++ rest ∧
        Lexeme.read s.frames.place s.cursor.ahead = .ok ⟨t.kind, t.text, rest⟩ ∧
        t.position = s.position ∧ s' = s.past [] lexeme t.kind := by
  constructor
  · intro h
    obtain ⟨blanks, lexeme, ht⟩ := takes_of_next h
    obtain rfl : blanks = [] := ht.blanksIn.symm.trans hblanks
    have hahead : s.cursor.ahead = lexeme ++ s'.cursor.ahead := ht.ahead
    exact ⟨lexeme, s'.cursor.ahead, hahead, hahead ▸ ht.read, ht.position, ht.after⟩
  · rintro ⟨lexeme, rest, hahead, hread, hposition, rfl⟩
    obtain ⟨kind, position, text⟩ := t
    obtain rfl : position = s.position := hposition
    exact (takes_of_read hahead hblanks (hahead ▸ hread)).next

/-- **Where no blanks are ahead, a call fails as its reader does, and stops where that did.** -/
theorem next_eq_error_iff (hblanks : s.blanksIn s.cursor.ahead = []) :
    s.next = (.error d, s') ↔
      ∃ passed fault, s.cursor.ahead = passed ++ fault.rest ∧
        Lexeme.read s.frames.place s.cursor.ahead = .error fault ∧
        d = fault.cause.diagnostic (s.position.passing passed) ∧ s' = s.stopped passed := by
  constructor
  · intro h
    obtain ⟨blanks, passed, fault, hf⟩ := fails_of_next h
    obtain rfl : blanks = [] := hf.blanksIn.symm.trans hblanks
    have hahead : s.cursor.ahead = passed ++ fault.rest := hf.ahead
    have hafter : s' = s.stopped passed := hf.after
    refine ⟨passed, fault, hahead, hahead ▸ hf.read, ?_, hafter⟩
    rw [hf.diagnostic, hafter]
    rfl
  · rintro ⟨passed, fault, hahead, hread, rfl, rfl⟩
    exact (fails_of_read hahead hblanks (hahead ▸ hread)).next

/-- What a call leaves of the clusters ahead is what the scan after it has ahead. -/
theorem nextIn_ahead (s : Scanner) :
    s.nextIn s.cursor.ahead = (s.next.1, s.next.2, s.next.2.cursor.ahead) := by
  rcases s.takes_or_fails with ⟨blanks, lexeme, t, s', ht⟩ | ⟨blanks, passed, fault, d, s', hf⟩
  · rw [nextIn_ok ht.ahead ht.blanksIn ht.read, ht.next, ht.position.symm, ht.after.symm]
  · rw [nextIn_error hf.ahead hf.blanksIn hf.read, hf.next, hf.after.symm, hf.diagnostic,
      hf.after, ahead_stopped hf.ahead]

end

/-! ## Runs -/

/-- A row of calls that give the tokens `ts`. -/
inductive Run : Scanner → List Token → Scanner → Prop
  | nil (s : Scanner) : Run s [] s
  | cons {s s' s'' : Scanner} {t : Token} {ts : List Token} :
      s.next = (.ok t, s') → Run s' ts s'' → Run s (t :: ts) s''

theorem Run.append {s s' s'' : Scanner} {ts us : List Token} (h : Run s ts s')
    (h' : Run s' us s'') : Run s (ts ++ us) s'' := by
  induction h with
  | nil s => exact h'
  | cons hnext _ ih => exact .cons hnext (ih h')

/-- A run may be cut before any of its tokens. -/
theorem Run.split {s s' : Scanner} {front back : List Token} (h : Run s (front ++ back) s') :
    ∃ u, Run s front u ∧ Run u back s' := by
  induction front generalizing s with
  | nil => exact ⟨s, .nil s, h⟩
  | cons t front ih =>
    cases h with
    | cons hnext hrun =>
      obtain ⟨u, hfront, hback⟩ := ih hrun
      exact ⟨u, .cons hnext hfront, hback⟩

theorem drain_of_ok {s s' : Scanner} {t : Token} (h : s.next = (.ok t, s')) :
    s.drain = (t :: s'.drain.1, s'.drain.2) := by
  have hn := s.nextIn_ahead
  rw [h] at hn
  rw [drain, drainIn]
  split
  · next he => simp [hn] at he
  · next ht =>
    rw [hn] at ht
    simp only [Prod.mk.injEq, Except.ok.injEq] at ht
    obtain ⟨rfl, rfl, rfl⟩ := ht
    rfl

theorem drain_of_error {s s' : Scanner} {d : Diagnostic} (h : s.next = (.error d, s')) :
    s.drain = ([], d, s') := by
  have hn := s.nextIn_ahead
  rw [h] at hn
  rw [drain, drainIn]
  split
  · next he =>
    rw [hn] at he
    simp only [Prod.mk.injEq, Except.error.injEq] at he
    obtain ⟨rfl, rfl, -⟩ := he
    rfl
  · next ht => simp [hn] at ht

theorem Run.drain {s s' s'' : Scanner} {ts : List Token} {d : Diagnostic} (h : Run s ts s')
    (hd : s'.next = (.error d, s'')) : s.drain = (ts, d, s'') := by
  induction h with
  | nil s => exact drain_of_error hd
  | cons ht _ ih => rw [drain_of_ok ht, ih hd]

/-- Every scan runs up to an error. -/
theorem exists_run (s : Scanner) : ∃ ts s' d s'', Run s ts s' ∧ s'.next = (.error d, s'') := by
  -- on the number of clusters ahead, which every token makes smaller
  induction hn : s.cursor.ahead.length using Nat.strongRecOn generalizing s with
  | ind n ih =>
    cases hnext : s.next with
    | mk r u =>
      cases r with
      | error d => exact ⟨[], s, d, u, .nil s, hnext⟩
      | ok t =>
        have hlen := s.nextIn_ahead
        rw [hnext] at hlen
        obtain ⟨ts, s', d, s'', hrun, hd⟩ := ih _ (hn ▸ length_of_nextIn hlen) u rfl
        exact ⟨t :: ts, s', d, s'', .cons hnext hrun, hd⟩

/-- **Draining a scan is running it up to the first error.** -/
theorem drain_eq_iff {s s'' : Scanner} {ts : List Token} {d : Diagnostic} :
    s.drain = (ts, d, s'') ↔ ∃ s', Run s ts s' ∧ s'.next = (.error d, s'') := by
  constructor
  · intro h
    obtain ⟨us, s', e, u, hrun, he⟩ := s.exists_run
    rw [hrun.drain he] at h
    simp only [Prod.mk.injEq] at h
    obtain ⟨rfl, rfl, rfl⟩ := h
    exact ⟨s', hrun, he⟩
  · rintro ⟨s', hrun, hd⟩
    exact hrun.drain hd

/-- What scanning to the end finds, from the run and the error at its end. -/
theorem Run.scanToEnd {s s' s'' : Scanner} {ts : List Token} {d : Diagnostic} (h : Run s ts s')
    (hd : s'.next = (.error d, s'')) :
    s.scanToEnd.1 = ⟨ts, if d.isEndOfInput then none else some d, s'.warnings⟩ := by
  obtain ⟨blanks, passed, fault, hf⟩ := fails_of_next hd
  rw [Scanner.scanToEnd, h.drain hd, hf.after]
  rfl

/-- The end of the input is no error, whatever is changed of a diagnostic. -/
theorem error_map {f : Diagnostic → Diagnostic} {d : Diagnostic}
    (h : (f d).isEndOfInput = d.isEndOfInput) :
    (if (f d).isEndOfInput then none else some (f d))
      = (if d.isEndOfInput then none else some d).map f := by
  rw [h]
  split <;> rfl

/-- **A scan of a source is a run of calls that ends with an error or with the input.** -/
theorem exists_run_scan (source : String) (options : ScannerOptions) :
    ∃ s' d s'', Run (ofText source options) (scan source options).tokens s' ∧
      s'.next = (.error d, s'') ∧
      (scan source options).error = (if d.isEndOfInput then none else some d) ∧
      (scan source options).warnings = s'.warnings := by
  obtain ⟨ts, s', d, s'', hrun, hd⟩ := (ofText source options).exists_run
  have hscan : scan source options = _ := hrun.scanToEnd hd
  rw [hscan]
  exact ⟨s', d, s'', hrun, hd, rfl, rfl⟩

/-- The scan after `n` calls. -/
def after (s : Scanner) : Nat → Scanner
  | 0 => s
  | n + 1 => s.next.2.after n

theorem Run.after_length {s s' : Scanner} {ts : List Token} (h : Run s ts s') :
    s.after ts.length = s' := by
  induction h with
  | nil s => rfl
  | cons ht _ ih => rw [List.length_cons, after, ht, ih]

end Lexis.Scanner
