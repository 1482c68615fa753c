import Lexis.Proofs.Replacement
import Lexis.Proofs.Sessions

/-!
# Text that is added later

A call looks at two clusters behind the token it gives. So where more clusters than these are left,
text added at the end of a source is not seen (`scan_append`). Added text can change the last cluster
of the source, and none before it: a scan of the longer source has the same clusters ahead up to there
(`SharesFront`), which calls keep as long as they leave enough of them.
-/

namespace Lexis

/-! ## Behind a token -/

section

variable {front : List Cluster}

theorem sight_append_eq (h : 2 ≤ front.length) (xs ys : List Cluster) :
    sight (front ++ xs) = sight (front ++ ys) := by
  rw [sight, sight, List.take_append_of_le_length h, List.take_append_of_le_length h]

theorem EndsLine.append_of_append {xs : List Cluster} (hne : front ≠ [])
    (h : EndsLine (front ++ xs)) (ys : List Cluster) : EndsLine (front ++ ys) := by
  obtain ⟨g, gs, rfl⟩ := List.exists_cons_of_ne_nil hne
  exact h

/-- Tokens end alike before two clusters, whatever stands behind these. -/
theorem endsAlike_append (h : 2 ≤ front.length) (kind : TokenKind) (xs ys : List Cluster) :
    EndsAlike kind (front ++ xs) (front ++ ys) :=
  .of_sight kind (sight_append_eq h xs ys) fun hline =>
    hline.append_of_append (List.ne_nil_of_length_pos (by omega)) xs

end

namespace Scanner

/-- Two scans at one place, the one with `tail` at the end of what is ahead, the other with `tail'`. -/
structure SharesFront (tail tail' : List Cluster) (s u : Scanner) : Prop where
  options : u.options = s.options
  frames : u.frames = s.frames
  position : u.position = s.position
  warnings : u.warnings = s.warnings
  ahead : ∃ front, s.cursor.ahead = front ++ tail ∧ u.cursor.ahead = front ++ tail'

/-! ## One call -/

section

variable {s s' u : Scanner} {t : Token} {tail tail' blanks lexeme : List Cluster}

/-- Before what is left to each of them both scans have the same clusters ahead. -/
theorem SharesFront.ahead_of_eq {front : List Cluster} (h : SharesFront tail tail' s u)
    (hs : s.cursor.ahead = front ++ tail) : u.cursor.ahead = front ++ tail' := by
  obtain ⟨all, hall, hu⟩ := h.ahead
  rw [hu, List.append_cancel_right (hall.symm.trans hs)]

/-- What both scans have ahead, by what a call of the first passes. -/
theorem SharesFront.split (h : SharesFront tail tail' s u) (ht : s.Takes blanks lexeme t s')
    (hrest : tail.length ≤ s'.cursor.ahead.length) :
    ∃ front, s'.cursor.ahead = front ++ tail ∧
      u.cursor.ahead = blanks ++ (lexeme ++ (front ++ tail')) := by
  obtain ⟨all, hs, hu⟩ := h.ahead
  have hahead := ht.ahead
  rw [hs] at hahead
  have hsuffix : s'.cursor.ahead <:+ all ++ tail :=
    ⟨blanks ++ lexeme, by rw [hahead, List.append_assoc]⟩
  obtain ⟨front, hfront⟩ :=
    List.suffix_of_suffix_length_le (List.suffix_append all tail) hsuffix hrest
  refine ⟨front, hfront.symm, ?_⟩
  rw [← hfront, ← List.append_assoc, ← List.append_assoc] at hahead
  rw [hu, List.append_cancel_right hahead]
  simp only [List.append_assoc]

/-- A token that ends alike in both scans is taken in both. -/
theorem SharesFront.takes_of_endsAlike {front : List Cluster} (h : SharesFront tail tail' s u)
    (ht : s.Takes blanks lexeme t s') (hs' : s'.cursor.ahead = front ++ tail)
    (hu : u.cursor.ahead = blanks ++ (lexeme ++ (front ++ tail')))
    (hend : EndsAlike t.kind (front ++ tail') (front ++ tail)) :
    u.Takes blanks lexeme t (u.past blanks lexeme t.kind) ∧
      SharesFront tail tail' s' (u.past blanks lexeme t.kind) := by
  have htakes := ht.replace_rest h.frames hu (by rw [hs']; exact hend)
  rw [h.position, ← ht.position] at htakes
  refine ⟨htakes, ?_⟩
  exact
    { options := by rw [htakes.passes.options, ht.passes.options, h.options]
      frames := by rw [htakes.frames, ht.frames, h.frames]
      position := by rw [htakes.passes.position, ht.passes.position, h.position]
      warnings := by
        rw [htakes.warnings, ht.warnings, htakes.frames, ht.frames, h.warnings, h.options, h.frames]
      ahead := ⟨front, hs', ahead_past hu t.kind⟩ }

/-- **A call does not see what lies more than two clusters behind the token it gives.** -/
theorem SharesFront.takes (h : SharesFront tail tail' s u) (ht : s.Takes blanks lexeme t s')
    (hrest : tail.length + 2 ≤ s'.cursor.ahead.length) :
    u.Takes blanks lexeme t (u.past blanks lexeme t.kind) ∧
      SharesFront tail tail' s' (u.past blanks lexeme t.kind) := by
  obtain ⟨front, hs', hu⟩ := h.split ht (by omega)
  have hlen : 2 ≤ front.length := by
    rw [hs', List.length_append] at hrest
    omega
  exact h.takes_of_endsAlike ht hs' hu (endsAlike_append hlen t.kind tail' tail)

end

/-! ## Runs -/

/-- A run is the same in both scans if it ends where more is left than `tail` and two clusters. -/
theorem SharesFront.run {s s' u : Scanner} {ts : List Token} {tail tail' : List Cluster}
    (h : SharesFront tail tail' s u) (hrun : Run s ts s')
    (hrest : tail.length + 2 ≤ s'.cursor.ahead.length) :
    ∃ u', Run u ts u' ∧ SharesFront tail tail' s' u' := by
  induction hrun generalizing u with
  | nil s => exact ⟨u, .nil u, h⟩
  | cons hnext hback ih =>
    obtain ⟨blanks, lexeme, ht⟩ := takes_of_next hnext
    -- a call of the run leaves at least what the whole run leaves
    obtain ⟨gs, hgs⟩ := hback.passes
    have hlen := hgs.length_le
    obtain ⟨htakes, hpast⟩ := h.takes ht (by omega)
    obtain ⟨u', hrun', h'⟩ := ih hpast hrest
    exact ⟨u', .cons htakes.next hrun', h'⟩

theorem Run.keeps_warnings {s s' : Scanner} {ts : List Token} (h : Run s ts s') :
    s.warnings <+: s'.warnings := by
  induction h with
  | nil s => exact List.prefix_refl _
  | cons hnext _ ih =>
    obtain ⟨blanks, lexeme, ht⟩ := takes_of_next hnext
    rw [ht.warnings] at ih
    exact (List.prefix_append _ _).trans ih

/-! ## Longer sources -/

/-- Added text changes the last cluster of a source, and none before it. -/
theorem sharesFront_ofText {source : String} {front : List Cluster} {last : Cluster}
    (h : Text.clusters source.toList = front ++ [last]) (more : String)
    (options : ScannerOptions) :
    SharesFront [last] (Text.clusters (Cluster.charsOf [last] ++ more.toList))
      (ofText source options) (ofText (source ++ more) options) where
  options := rfl
  frames := rfl
  position := rfl
  warnings := rfl
  ahead := by
    refine ⟨front, ?_, ?_⟩
    · exact (Cursor.ahead_ofText source).trans h
    · show (Cursor.ofText (source ++ more)).ahead = _
      rw [Cursor.ahead_ofText, String.toList_append]
      exact Text.clusters_append_of_split h (List.cons_ne_nil _ _) more.toList

/-- The calls up to a token of a scan, cut off behind it. -/
theorem exists_run_of_getElem? {source : String} {options : ScannerOptions} {i : Nat} {t : Token}
    (h : (scan source options).tokens[i]? = some t) :
    ∃ ts, ts.length = i ∧
      Run (ofText source options) (ts ++ [t]) ((ofText source options).after (i + 1)) := by
  obtain ⟨s', d, s'', hrun, -⟩ := exists_run_scan source options
  obtain ⟨hlt, ht⟩ := List.getElem?_eq_some_iff.mp h
  have hsplit : (scan source options).tokens
      = ((scan source options).tokens.take i ++ [t]) ++ (scan source options).tokens.drop (i + 1) := by
    rw [← ht, List.append_assoc, List.singleton_append, ← List.drop_eq_getElem_cons hlt,
      List.take_append_drop]
  rw [hsplit] at hrun
  obtain ⟨u, hfront, -⟩ := hrun.split
  have hlen : ((scan source options).tokens.take i).length = i :=
    List.length_take_of_le (Nat.le_of_lt hlt)
  have hafter := hfront.after_length
  rw [List.length_append, hlen] at hafter
  refine ⟨(scan source options).tokens.take i, hlen, ?_⟩
  rw [show (ofText source options).after (i + 1) = u from hafter]
  exact hfront

/--
**What is added to a source changes no token that three clusters follow.**

Up to the token the same warnings are recorded, and each scan starts its list of warnings with them.
-/
theorem scan_append (source more : String) (options : ScannerOptions) {i : Nat} {t : Token}
    (ht : (scan source options).tokens[i]? = some t)
    (hrest : 3 ≤ ((ofText source options).after (i + 1)).cursor.ahead.length) :
    (scan (source ++ more) options).tokens[i]? = some t ∧
      ((ofText (source ++ more) options).after (i + 1)).warnings
        = ((ofText source options).after (i + 1)).warnings ∧
      ((ofText source options).after (i + 1)).warnings <+: (scan source options).warnings ∧
      ((ofText source options).after (i + 1)).warnings
        <+: (scan (source ++ more) options).warnings := by
  obtain ⟨ts, rfl, hrun⟩ := exists_run_of_getElem? ht
  -- the last cluster may grow by what is added, and no other
  obtain ⟨front, last, hsplit⟩ :
      ∃ front last, Text.clusters source.toList = front ++ [last] := by
    obtain ⟨gs, hgs⟩ := hrun.passes
    have hlen := hgs.length_le
    have hne : Text.clusters source.toList ≠ [] := by
      rw [← Cursor.ahead_ofText]
      exact List.ne_nil_of_length_pos (Nat.lt_of_lt_of_le (by omega) hlen)
    exact ⟨_, _, (List.dropLast_concat_getLast hne).symm⟩
  obtain ⟨u, hrun', hu⟩ := (sharesFront_ofText hsplit more options).run hrun hrest
  obtain ⟨back, v, hback, -, hwarnings⟩ := hrun.scanToEnd_append
  obtain ⟨back', v', hback', htokens', hwarnings'⟩ := hrun'.scanToEnd_append
  have hafter : (ofText (source ++ more) options).after (ts.length + 1) = u := by
    have hlen := hrun'.after_length
    rwa [List.length_append] at hlen
  refine ⟨?_, ?_, ?_, ?_⟩
  · show ((ofText (source ++ more) options).scanToEnd.1).tokens[ts.length]? = some t
    rw [htokens', List.append_assoc, List.getElem?_append_right (Nat.le_refl _), Nat.sub_self]
    rfl
  · rw [hafter, hu.warnings]
  · show _ <+: ((ofText source options).scanToEnd.1).warnings
    rw [hwarnings]
    exact hback.keeps_warnings
  · show _ <+: ((ofText (source ++ more) options).scanToEnd.1).warnings
    rw [hwarnings', ← hu.warnings]
    exact hback'.keeps_warnings

/-- The accent goes to the last letter, and the warning stands. -/
theorem scan_append_interpolation :
    (scan (r"`${a+b" ++ "\u0301") ⟨0⟩).tokens[1]? = some ⟨.interpolationStart, ⟨1, 1, 2⟩, r"${"⟩ ∧
      ((ofText (r"`${a+b" ++ "\u0301") ⟨0⟩).after 2).warnings
        = [nestingWarning 0 ⟨1, 1, 2⟩] := by
  have h := scan_append r"`${a+b" "\u0301" ⟨0⟩ (i := 1)
    (t := ⟨.interpolationStart, ⟨1, 1, 2⟩, r"${"⟩) (by decide +kernel) (by decide +kernel)
  refine ⟨h.1, h.2.1.trans ?_⟩
  decide +kernel

end Scanner

end Lexis
