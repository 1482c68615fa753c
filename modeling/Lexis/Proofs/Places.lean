import Lexis.Proofs.LineFeed
import Lexis.Proofs.LineStarts
import Lexis.Proofs.Progress

/-!
# Places and the line index

A scan counts lines and columns while it passes clusters; a line index splits the bytes of the source
at line feeds. They agree on every place that a scan reports (`agreesWith_of_reported`): a scan stops
only between clusters of its source, the clusters it has passed are those of the text before the place,
and so are those since the last line break for the text of the last line.
-/

namespace Lexis

/-- A place that can be looked up in its source. -/
structure Position.AgreesWith (p : Position) (source : String) : Prop where
  bounded : p.offset ≤ Text.size source.toList
  /-- The place stands between two scalars, with a line before it for every line feed. -/
  line : ∃ before, Text.takeBytes? p.offset source.toList = some before ∧
    p.line = before.count '\n' + 1
  /-- The index has the line, and on the line as many clusters stand before the place. -/
  column : ∃ start stop part,
    (LineIndex.ofText source).lineRange? source p.line = some (start, stop) ∧
      start ≤ p.offset ∧ Text.slice? start p.offset source.toList = some part ∧
      '\n' ∉ part ∧ p.column = (Text.clusters part).length + 1

/-- A place between two clusters of a source, or at one of its ends. -/
def Position.IsBoundary (p : Position) (source : String) : Prop :=
  ∃ gs, gs <+: Text.clusters source.toList ∧ p = Position.start.passing gs

/-! ## The last line of some clusters -/

/-- Clusters are whole lines and then clusters that break no line, which the column counts. -/
theorem exists_lastLine (gs : List Cluster) : ∃ lines last, gs = lines ++ last ∧
    (lines = [] ∨ ∃ front g, lines = front ++ [g] ∧ g.isLineBreak = true) ∧
    last.countP Cluster.isLineBreak = 0 ∧
    (Position.start.passing gs).column = last.length + 1 := by
  induction gs using List.reverseRecOn with
  | nil => exact ⟨[], [], rfl, .inl rfl, rfl, rfl⟩
  | append_singleton gs g ih =>
    obtain ⟨lines, last, hgs, hlines, hlast, hcolumn⟩ := ih
    rw [Position.passing_append, Position.passing_cons, Position.passing_nil, Position.next]
    by_cases hg : g.isLineBreak = true
    · refine ⟨gs ++ [g], [], (List.append_nil _).symm, .inr ⟨gs, g, rfl, hg⟩, rfl, ?_⟩
      rw [if_pos hg]
      rfl
    · refine ⟨lines, last ++ [g], by rw [hgs, List.append_assoc], hlines, ?_, ?_⟩
      · rw [List.countP_append, hlast, List.countP_singleton, if_neg hg]
      · rw [if_neg hg, List.length_append]
        exact congrArg (· + 1) hcolumn

/-- The text of whole lines ends in a line feed. -/
theorem charsOf_lines {lines : List Cluster}
    (h : lines = [] ∨ ∃ front g, lines = front ++ [g] ∧ g.isLineBreak = true) :
    Cluster.charsOf lines = [] ∨ ∃ cs, Cluster.charsOf lines = cs ++ ['\n'] := by
  rcases h with rfl | ⟨front, g, rfl, hg⟩
  · exact .inl rfl
  · right
    rw [Cluster.charsOf_append, Cluster.charsOf_cons, Cluster.charsOf_nil, List.append_nil]
    rcases Bool.or_eq_true_iff.mp hg with hlf | hcrlf
    · exact ⟨_, by rw [show g.chars = ['\n'] by simpa using hlf]⟩
    · refine ⟨Cluster.charsOf front ++ ['\r'], ?_⟩
      rw [show g.chars = ['\r', '\n'] by simpa using hcrlf, List.append_assoc]
      rfl

/-! ## Places between clusters -/

/-- The index has the place behind whole lines and the front part `last` of a line. -/
theorem agreesWith_of_lines {source : String} {p : Position} {lines last rest : List Char}
    (hsource : source.toList = lines ++ last ++ rest)
    (hlines : lines = [] ∨ ∃ cs, lines = cs ++ ['\n']) (hlast : '\n' ∉ last)
    (hoffset : p.offset = Text.size (lines ++ last)) (hline : p.line = lines.count '\n' + 1)
    (hcolumn : p.column = (Text.clusters last).length + 1) : p.AgreesWith source where
  bounded := by
    rw [hoffset, hsource, Text.size_append _ rest]
    exact Nat.le_add_right _ _
  line := by
    refine ⟨lines ++ last, ?_, ?_⟩
    · rw [hoffset, hsource, Text.takeBytes?_append]
    · rw [hline, List.count_append, List.count_eq_zero.mpr hlast, Nat.add_zero]
  column := by
    have hstart := LineIndex.starts_getElem? (by rw [hsource, List.append_assoc]) hlines
    obtain ⟨stop, hrange⟩ := LineIndex.exists_lineRange? hstart source
    refine ⟨Text.size lines, stop, last, ?_, ?_, ?_, hlast, hcolumn⟩
    · rw [hline]
      exact hrange
    · rw [hoffset, Text.size_append]
      exact Nat.le_add_right _ _
    · rw [hoffset, hsource, Text.size_append, Text.slice?_append]

/-- **Behind clusters of a source the index has the place that passing them leads to.** -/
theorem agreesWith_passing {source : String} {gs : List Cluster}
    (h : gs <+: Text.clusters source.toList) : (Position.start.passing gs).AgreesWith source := by
  obtain ⟨rest, hrest⟩ := h
  have hcut : Text.clusters (Cluster.charsOf gs) = gs := Text.clusters_of_front ⟨rest, hrest⟩
  obtain ⟨lines, last, rfl, hlines, hnone, hcolumn⟩ := exists_lastLine gs
  -- the last line is cut alone as it is cut in the source
  have hcutLast : Text.clusters (Cluster.charsOf last) = last :=
    Text.clusters_of_suffix ⟨lines, hcut.symm⟩
  have hcutLines : Text.clusters (Cluster.charsOf lines) = lines :=
    Text.clusters_of_front ⟨last ++ rest, by rw [← hrest, List.append_assoc]⟩
  have hsource : source.toList
      = Cluster.charsOf lines ++ Cluster.charsOf last ++ Cluster.charsOf rest := by
    rw [Text.eq_charsOf_append hrest.symm, Cluster.charsOf_append]
  refine agreesWith_of_lines hsource (charsOf_lines hlines) ?_ ?_ ?_ ?_
  · refine List.count_eq_zero.mp ?_
    rw [← Text.countP_isLineBreak, hcutLast, hnone]
  · rw [Position.offset_passing, Cluster.charsOf_append]
    exact Nat.zero_add _
  · rw [Position.line_passing, List.countP_append, hnone, ← Text.countP_isLineBreak, hcutLines]
    exact Nat.add_comm _ _
  · rw [hcutLast, hcolumn]

theorem Position.IsBoundary.agreesWith {p : Position} {source : String} (h : p.IsBoundary source) :
    p.AgreesWith source := by
  obtain ⟨gs, hgs, rfl⟩ := h
  exact agreesWith_passing hgs

namespace Scanner

/-! ## Places that a scan reports -/

/-- Some clusters further on than calls have led there is a boundary. -/
theorem isBoundary_after (source : String) (options : ScannerOptions) (n : Nat) {gs : List Cluster}
    (h : gs <+: ((ofText source options).after n).cursor.ahead) :
    (((ofText source options).after n).position.passing gs).IsBoundary source := by
  obtain ⟨before, hbefore⟩ := (ofText source options).after_passes n
  have hposition : ((ofText source options).after n).position = Position.start.passing before :=
    hbefore.position
  have hahead : Text.clusters source.toList
      = before ++ ((ofText source options).after n).cursor.ahead := by
    rw [← hbefore.ahead]
    exact (Cursor.ahead_ofText source).symm
  refine ⟨before ++ gs, ?_, ?_⟩
  · rw [hahead]
    exact (List.prefix_append_right_inj before).mpr h
  · rw [hposition, Position.passing_append]

/-- The place of a scan of a source, and every place some clusters further on, can be looked up. -/
theorem agreesWith_after (source : String) (options : ScannerOptions) (n : Nat) {gs : List Cluster}
    (h : gs <+: ((ofText source options).after n).cursor.ahead) :
    (((ofText source options).after n).position.passing gs).AgreesWith source :=
  (isBoundary_after source options n h).agreesWith

theorem Takes.isBoundary {source : String} {options : ScannerOptions} {n : Nat}
    {blanks lexeme : List Cluster} {t : Token} {s : Scanner}
    (h : ((ofText source options).after n).Takes blanks lexeme t s) :
    t.position.IsBoundary source := by
  rw [h.position]
  exact isBoundary_after source options n ⟨_, h.ahead.symm⟩

theorem Takes.agreesWith {source : String} {options : ScannerOptions} {n : Nat}
    {blanks lexeme : List Cluster} {t : Token} {s : Scanner}
    (h : ((ofText source options).after n).Takes blanks lexeme t s) :
    t.position.AgreesWith source :=
  h.isBoundary.agreesWith

/-- A warning is placed at the token that it is given for. -/
theorem warning_isBoundary (source : String) (options : ScannerOptions) (n : Nat) :
    ∀ w ∈ ((ofText source options).after n).warnings, w.position.IsBoundary source := by
  induction n with
  | zero => exact fun w hw => absurd hw List.not_mem_nil
  | succ n ih =>
    rw [after_succ]
    rcases ((ofText source options).after n).takes_or_fails with
      ⟨blanks, lexeme, t, s, ht⟩ | ⟨blanks, passed, fault, d, s, hf⟩
    · rw [ht.next]
      intro w hw
      rw [ht.warnings, List.mem_append] at hw
      rcases hw with hw | hw
      · exact ih w hw
      · rw [warningsOf] at hw
        split at hw
        · rw [List.mem_singleton.mp hw]
          exact ht.isBoundary
        · exact absurd hw List.not_mem_nil
    · rw [hf.next, hf.after]
      exact ih

theorem warning_agreesWith (source : String) (options : ScannerOptions) (n : Nat) :
    ∀ w ∈ ((ofText source options).after n).warnings, w.position.AgreesWith source :=
  fun w hw => (warning_isBoundary source options n w hw).agreesWith

/-- An error is placed where the scan stands after it. -/
theorem error_isBoundary {source : String} {options : ScannerOptions} {n : Nat} {d : Diagnostic}
    {s : Scanner} (h : ((ofText source options).after n).next = (.error d, s)) :
    d.position.IsBoundary source := by
  have hposition : d.position = ((ofText source options).after (n + 1)).position := by
    obtain ⟨blanks, passed, fault, hf⟩ := fails_of_next h
    rw [after_succ, h, hf.diagnostic]
    rfl
  rw [hposition]
  exact isBoundary_after source options (n + 1) List.nil_prefix

/-- What any number of calls on a scan of a source report. -/
inductive Reported (source : String) (options : ScannerOptions) : Position → Prop
  | position (n : Nat) : Reported source options ((ofText source options).after n).position
  | token {n : Nat} {t : Token} {s : Scanner}
      (h : ((ofText source options).after n).next = (.ok t, s)) : Reported source options t.position
  | error {n : Nat} {d : Diagnostic} {s : Scanner}
      (h : ((ofText source options).after n).next = (.error d, s)) :
      Reported source options d.position
  | warning {n : Nat} {d : Diagnostic} (h : d ∈ ((ofText source options).after n).warnings) :
      Reported source options d.position

/-- **The line index of a source has every place that a scan of it reports.** -/
theorem agreesWith_of_reported {source : String} {options : ScannerOptions} {p : Position}
    (h : Reported source options p) : p.AgreesWith source := by
  cases h with
  | position n => exact agreesWith_after source options n List.nil_prefix
  | token h =>
    obtain ⟨blanks, lexeme, ht⟩ := takes_of_next h
    exact ht.agreesWith
  | error h => exact (error_isBoundary h).agreesWith
  | warning h => exact warning_agreesWith source options _ _ h

/-- A rune without end in the second line, behind a line break of two bytes. -/
theorem agreesWith_of_reported_rune : Reported "x\r\n'" {} ⟨4, 2, 2⟩ ∧
    (⟨4, 2, 2⟩ : Position).AgreesWith "x\r\n'" := by
  have hnext : ((ofText "x\r\n'").after 2).next
      = (.error ((LexicalError.unterminated .rune).diagnostic ⟨4, 2, 2⟩),
          ((ofText "x\r\n'").after 2).next.2) := by
    decide +kernel
  have hreported : Reported "x\r\n'" {} ⟨4, 2, 2⟩ := .error hnext
  exact ⟨hreported, agreesWith_of_reported hreported⟩

end Scanner

end Lexis
