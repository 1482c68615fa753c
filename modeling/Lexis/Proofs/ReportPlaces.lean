import Lexis.Listing
import Lexis.Proofs.Places
import Lexis.Report

/-!
# Where a report points

A report finds the line of its diagnostic anew, from the offset alone and by line breaks of any form,
while the diagnostic carries the line that the scan has counted. In a text whose carriage returns all
stand before line feeds, both are the same line (`diagnostics_showPlace`): the rows of such a text end
at its line feeds, and no diagnostic stands between the two characters of a line break.
-/

namespace Lexis

namespace Text

/-! ## Carriage returns -/

/-- Every carriage return of a text stands right before a line feed. -/
def ReturnsFeed (cs : List Char) : Prop :=
  ∀ front tail, cs = front ++ '\r' :: tail → tail.head? = some '\n'

/-- The condition passes on to every end part. -/
theorem ReturnsFeed.of_append {front cs : List Char} (h : ReturnsFeed (front ++ cs)) :
    ReturnsFeed cs := by
  intro before tail hcs
  refine h (front ++ before) tail ?_
  rw [hcs, List.append_assoc]

/-- The condition, character by character. -/
theorem returnsFeed_cons_iff (c : Char) (cs : List Char) :
    ReturnsFeed (c :: cs) ↔ (c = '\r' → cs.head? = some '\n') ∧ ReturnsFeed cs := by
  constructor
  · intro h
    have htail : ReturnsFeed ([c] ++ cs) := h
    refine ⟨?_, htail.of_append⟩
    rintro rfl
    exact h [] cs rfl
  · rintro ⟨hhead, htail⟩ front tail hcs
    cases front with
    | nil =>
      obtain ⟨rfl, rfl⟩ := List.cons.inj hcs
      exact hhead rfl
    | cons d front => exact htail front tail (List.cons.inj hcs).2

instance decidableReturnsFeed : DecidablePred ReturnsFeed
  | [] => isTrue fun front tail h => by simp at h
  | c :: cs =>
    have := decidableReturnsFeed cs
    decidable_of_iff _ (returnsFeed_cons_iff c cs).symm

/-- Between the two characters of a line break there is no boundary of clusters. -/
theorem head?_ne_lineFeed_of_clusters {cs : List Char} {gs rest : List Cluster}
    (h : clusters cs = gs ++ rest) (hlast : (Cluster.charsOf gs).getLast? = some '\r') :
    (Cluster.charsOf rest).head? ≠ some '\n' := by
  intro hhead
  obtain ⟨ds, hrest⟩ := List.head?_eq_some_iff.mp hhead
  obtain ⟨before, hgs⟩ := List.getLast?_eq_some_iff.mp hlast
  have hne : gs ≠ [] := by
    rintro rfl
    exact absurd hlast (by simp)
  have hcut := boundary_of_clustersAfter hne h hrest
  rw [hgs, List.map_append, List.reverse_append] at hcut
  exact absurd hcut (by simp [joins, show BreakClass.ofChar '\r' = .carriageReturn from rfl,
    show BreakClass.ofChar '\n' = .lineFeed from rfl])

/-- The line that has begun before a boundary holds no carriage return. -/
theorem return_notMem_last {cs front last : List Char} {gs rest : List Cluster}
    (hfeed : ReturnsFeed cs) (h : clusters cs = gs ++ rest)
    (hchars : Cluster.charsOf gs = front ++ last) (hlast : '\n' ∉ last) : '\r' ∉ last := by
  intro hmem
  obtain ⟨before, behind, rfl⟩ := List.append_of_mem hmem
  have hcs : cs = (front ++ before) ++ '\r' :: (behind ++ Cluster.charsOf rest) := by
    rw [eq_charsOf_append h, hchars]
    simp only [List.append_assoc, List.cons_append]
  have hnext := hfeed _ _ hcs
  cases behind with
  | nil =>
    refine head?_ne_lineFeed_of_clusters h ?_ hnext
    rw [hchars, ← List.append_assoc, List.getLast?_concat]
  | cons d behind =>
    obtain rfl : d = '\n' := by simpa using hnext
    exact hlast (by simp)

/-! ## Lines with their line feeds -/

/-- The text of lines, each with a line feed behind it. -/
def unlines (lines : List (List Char)) : List Char := lines.flatMap (· ++ ['\n'])

theorem flatten_map_append (lines : List (List Char)) :
    (lines.map (· ++ ['\n'])).flatten = unlines lines := List.flatMap_def.symm

theorem unlines_cons (l : List Char) (lines : List (List Char)) :
    unlines (l :: lines) = l ++ '\n' :: unlines lines := by
  rw [unlines, List.flatMap_cons, List.append_assoc]
  rfl

/-- A text is some lines with their line feeds, and what follows the last of them. -/
theorem exists_lines (cs : List Char) : ∃ (lines : List (List Char)) (last : List Char),
    cs = unlines lines ++ last ∧ (∀ l ∈ lines, '\n' ∉ l) ∧ '\n' ∉ last := by
  induction cs with
  | nil => exact ⟨[], [], rfl, by simp, by simp⟩
  | cons c cs ih =>
    obtain ⟨lines, last, hcs, hlines, hlast⟩ := ih
    by_cases hc : c = '\n'
    · refine ⟨[] :: lines, last, by rw [hcs, hc]; rfl, ?_, hlast⟩
      exact List.forall_mem_cons.mpr ⟨List.not_mem_nil, hlines⟩
    · have hne : '\n' ≠ c := fun heq => hc heq.symm
      cases lines with
      | nil =>
        refine ⟨[], c :: last, by rw [hcs]; rfl, hlines, ?_⟩
        exact List.not_mem_cons_of_ne_of_not_mem hne hlast
      | cons l lines =>
        obtain ⟨hl, hlines⟩ := List.forall_mem_cons.mp hlines
        refine ⟨(c :: l) :: lines, last, by rw [hcs]; rfl, ?_, hlast⟩
        exact List.forall_mem_cons.mpr ⟨List.not_mem_cons_of_ne_of_not_mem hne hl, hlines⟩

/-- Every line has one line feed. -/
theorem count_unlines {lines : List (List Char)} (h : ∀ l ∈ lines, '\n' ∉ l) :
    (unlines lines).count '\n' = lines.length := by
  induction lines with
  | nil => rfl
  | cons l lines ih =>
    obtain ⟨hl, hlines⟩ := List.forall_mem_cons.mp h
    rw [unlines_cons, List.count_append, List.count_eq_zero.mpr hl, List.count_cons_self, ih hlines,
      Nat.zero_add, List.length_cons]

theorem unlines_eq_nil_or (lines : List (List Char)) : unlines lines = [] ∨
    ∃ cs, unlines lines = cs ++ ['\n'] := by
  induction lines using List.reverseRecOn with
  | nil => exact .inl rfl
  | append_singleton lines l =>
    refine .inr ⟨unlines lines ++ l, ?_⟩
    rw [unlines, List.flatMap_append, List.flatMap_singleton, List.append_assoc]
    rfl

end Text

namespace Report

open Text

/-! ## Rows -/

section

variable {line last rest : List Char} {lines : List (List Char)}

/-- A line with its line feed is a row. -/
theorem splitAfter_line (hline : '\n' ∉ line) (hfeed : ReturnsFeed (line ++ '\n' :: rest)) :
    splitAfter endsRow (line ++ '\n' :: rest) = (line ++ ['\n']) :: splitAfter endsRow rest := by
  induction line with
  | nil => rfl
  | cons c line ih =>
    obtain ⟨hc, hline⟩ := List.ne_and_not_mem_of_not_mem_cons hline
    rw [List.cons_append] at hfeed
    obtain ⟨hreturn, hfeed⟩ := (returnsFeed_cons_iff c _).mp hfeed
    have hends : endsRow c (line ++ '\n' :: rest) = false := by
      by_cases hcr : c = '\r'
      · rw [endsRow, hreturn hcr]
        simp [hc.symm]
      · simp [endsRow, hcr, hc.symm]
    rw [List.cons_append, splitAfter, hends, ih hline hfeed]
    rfl

/-- Whole lines at the front are split off one by one. -/
theorem splitAfter_unlines (hlines : ∀ l ∈ lines, '\n' ∉ l)
    (hfeed : ReturnsFeed (unlines lines ++ rest)) :
    splitAfter endsRow (unlines lines ++ rest)
      = lines.map (· ++ ['\n']) ++ splitAfter endsRow rest := by
  induction lines with
  | nil => rfl
  | cons l lines ih =>
    obtain ⟨hl, hlines⟩ := List.forall_mem_cons.mp hlines
    rw [unlines_cons, List.append_assoc, List.cons_append] at hfeed ⊢
    have htail : ReturnsFeed ('\n' :: (unlines lines ++ rest)) := hfeed.of_append
    rw [splitAfter_line hl hfeed, ih hlines ((returnsFeed_cons_iff _ _).mp htail).2]
    rfl

/-- No row ends inside of characters that break no line. -/
theorem splitAfter_append (hlast : ∀ c ∈ last, Row.isBreak c = false) (rest : List Char) :
    (last = [] ∧ splitAfter endsRow (last ++ rest) = []) ∨
      ∃ more ls, splitAfter endsRow (last ++ rest) = (last ++ more) :: ls := by
  induction last with
  | nil =>
    cases hsplit : splitAfter endsRow rest with
    | nil => exact .inl ⟨rfl, hsplit⟩
    | cons l ls => exact .inr ⟨l, ls, hsplit⟩
  | cons c last ih =>
    obtain ⟨hc, hlast⟩ := List.forall_mem_cons.mp hlast
    have hends : endsRow c (last ++ rest) = false := by
      simp only [Row.isBreak, Bool.or_eq_false_iff, decide_eq_false_iff_not] at hc
      simp [endsRow, hc]
    right
    rw [List.cons_append, splitAfter, hends]
    rcases ih hlast with ⟨rfl, hsplit⟩ | ⟨more, ls, hsplit⟩
    · exact ⟨[], [], by rw [hsplit]; rfl⟩
    · exact ⟨more, ls, by rw [hsplit]; rfl⟩

/-- Lines behind others are placed behind their bytes. -/
theorem place_append (offset : Nat) (ls ms : List (List Char)) :
    place offset (ls ++ ms) = place offset ls ++ place (offset + size ls.flatten) ms := by
  induction ls generalizing offset with
  | nil => rfl
  | cons l ls ih =>
    rw [List.cons_append, place, ih, List.flatten_cons, size_append, Nat.add_assoc]
    rfl

theorem length_place (offset : Nat) (ls : List (List Char)) : (place offset ls).length = ls.length := by
  induction ls generalizing offset with
  | nil => rfl
  | cons l ls ih => rw [place, List.length_cons, List.length_cons, ih]

/-- Rows stop where their texts together do, or before. -/
theorem of_mem_place {offset : Nat} {ls : List (List Char)} {r : Row} (h : r ∈ place offset ls) :
    r.chars ∈ ls ∧ r.stop ≤ offset + size ls.flatten := by
  induction ls generalizing offset with
  | nil => exact absurd h List.not_mem_nil
  | cons l ls ih =>
    rw [List.flatten_cons, size_append]
    rcases List.mem_cons.mp h with rfl | h
    · exact ⟨List.mem_cons_self, Nat.add_le_add_left (Nat.le_add_right _ _) _⟩
    · obtain ⟨hmem, hstop⟩ := ih h
      exact ⟨List.mem_cons_of_mem _ hmem, by rwa [Nat.add_assoc] at hstop⟩

/-! ## The place of an offset -/

/-- Rows that end in a line feed are over where the last of them stops. -/
theorem isPassed_of_mem_place {r : Row} {offset : Nat}
    (h : r ∈ place 0 (lines.map (· ++ ['\n'])))
    (hoffset : size (unlines lines) ≤ offset) : isPassed offset r = true := by
  obtain ⟨hmem, hstop⟩ := of_mem_place h
  obtain ⟨l, -, hl⟩ := List.mem_map.mp hmem
  have hcomplete : r.isComplete = true := by
    rw [Row.isComplete, ← hl, List.getLast?_concat]
    rfl
  rw [Nat.zero_add, flatten_map_append] at hstop
  rw [isPassed, hcomplete, Bool.true_and]
  exact decide_eq_true (Nat.le_trans hstop hoffset)

/-- A row is not over at a place behind characters that break no line. -/
theorem isPassed_append (hlast : ∀ c ∈ last, Row.isBreak c = false) (more : List Char)
    (offset : Nat) : isPassed (offset + size last) ⟨offset, last ++ more⟩ = false := by
  rw [isPassed, Bool.and_eq_false_iff]
  cases more with
  | nil =>
    left
    rw [Row.isComplete, List.append_nil]
    cases hend : last.getLast? with
    | none => rfl
    | some c => exact hlast c (List.mem_of_getLast? hend)
  | cons c more =>
    right
    have hpos := c.utf8Size_pos
    refine decide_eq_false ?_
    show ¬offset + size (last ++ c :: more) ≤ offset + size last
    rw [size_append, size_cons]
    omega

/-- A line does not break before the characters of it that are no breaks. -/
theorem le_breakOffset (hlast : ∀ c ∈ last, Row.isBreak c = false) (more : List Char)
    (offset : Nat) : offset + size last ≤ Row.breakOffset ⟨offset, last ++ more⟩ := by
  have htake : (last ++ more).takeWhile (!Row.isBreak ·)
      = last ++ more.takeWhile (!Row.isBreak ·) := by
    refine List.takeWhile_append_of_pos fun c hc => ?_
    rw [hlast c hc]
    rfl
  show _ ≤ offset + size ((last ++ more).takeWhile (!Row.isBreak ·))
  rw [htake, size_append]
  omega

/-- **Behind whole lines and the front of a line, a report counts those lines and these bytes.** -/
theorem locate_append (hlines : ∀ l ∈ lines, '\n' ∉ l) (hlast : ∀ c ∈ last, Row.isBreak c = false)
    (hfeed : ReturnsFeed (unlines lines ++ (last ++ rest))) :
    locate (size (unlines lines) + size last)
        (unlines lines ++ (last ++ rest))
      = (lines.length + 1, size last + 1) := by
  generalize hstart : size (unlines lines) = start
  have hrows : rows (unlines lines ++ (last ++ rest))
      = place 0 (lines.map (· ++ ['\n'])) ++ place start (splitAfter endsRow (last ++ rest)) := by
    rw [rows, splitAfter_unlines hlines hfeed, place_append, flatten_map_append, hstart, Nat.zero_add]
  have hpassed : ∀ r ∈ place 0 (lines.map (· ++ ['\n'])), isPassed (start + size last) r = true :=
    fun r hr => isPassed_of_mem_place hr (hstart ▸ Nat.le_add_right _ _)
  rw [locate, hrows, List.takeWhile_append_of_pos hpassed, List.dropWhile_append_of_pos hpassed]
  rcases splitAfter_append hlast rest with ⟨rfl, hsplit⟩ | ⟨more, ls, hsplit⟩
  · rw [hsplit]
    simp [place, length_place]
  · have hnot := isPassed_append hlast more start
    have hbreak := le_breakOffset hlast more start
    rw [hsplit, place, List.takeWhile_cons_of_neg (by rw [hnot]; exact Bool.false_ne_true),
      List.dropWhile_cons_of_neg (by rw [hnot]; exact Bool.false_ne_true), List.append_nil,
      length_place, List.length_map]
    show (_, min (start + size last) (Row.breakOffset _) - start + 1) = _
    rw [Nat.min_eq_left hbreak, Nat.add_sub_cancel_left]

end

/-! ## Reports -/

/-- The rows above the box. -/
def heading (d : Diagnostic) : List Line :=
  [marked (.severity d.severity) d.code.display, []] ++ messageLines d.severity d.message

/-- The box that names a line and a column, around the lines shown. -/
def boxAt (name : String) (line column offset : Nat) (label : String) (shown : List ShownLine) :
    List Line :=
  let width := numberWidth shown
  (blank (width + 2) ++ plain "╭─[" ++ marked .link s!"{name}:{line}:{column}" ++ plain "]")
    :: (shown.flatMap (sourceLines width offset label) ++ [blank (width + 2) ++ plain "╰────"])

/-- A report that shows the line its diagnostic names. -/
structure ShowsPlace (d : Diagnostic) (name text : String) : Prop where
  /-- No row says that the source cannot be quoted. -/
  quotes : ∀ row ∈ lines d name text, .start .trouble ∉ row
  /-- The box names the line of the diagnostic, as its label does, and the bytes from the start of
  that line. -/
  place : ∃ start stop shown,
    (LineIndex.ofText text).lineRange? text d.position.line = some (start, stop) ∧
      start ≤ d.position.offset ∧
      excerpt? d.position.offset text.toList = some shown ∧
      ∀ color, render d name text color = String.ofList
        ((heading d ++ boxAt name d.position.line (d.position.offset - start + 1) d.position.offset
            s!"here ({d.position.line}:{d.position.column})" shown).flatMap (paintLine color))

section

variable {d : Diagnostic} {name text : String} {shown : List ShownLine}

/-- A report with an excerpt has a heading and a box. -/
theorem lines_of_excerpt (h : excerpt? d.position.offset text.toList = some shown) :
    lines d name text = heading d ++ boxAt name (locate d.position.offset text.toList).1
      (locate d.position.offset text.toList).2 d.position.offset (label d) shown := by
  rw [lines, h]
  rfl

/-- Every offset that the text has is shown in an excerpt. -/
theorem exists_excerpt {offset : Nat} {cs : List Char} (h : offset ≤ size cs) :
    ∃ shown, excerpt? offset cs = some shown := by
  rw [excerpt?, if_neg (by omega)]
  exact ⟨_, rfl⟩

theorem trouble_notMem_heading (d : Diagnostic) : ∀ row ∈ heading d, .start .trouble ∉ row := by
  intro row hrow
  rcases List.mem_append.mp hrow with hrow | hrow
  · simp only [List.mem_cons, List.not_mem_nil, or_false] at hrow
    rcases hrow with rfl | rfl <;> simp [marked]
  · unfold messageLines at hrow
    split at hrow
    · exact absurd hrow List.not_mem_nil
    · have hline : ∀ sign cs, .start .trouble ∉ messageLine d.severity sign cs := by
        intro sign cs
        simp [messageLine, marked, plain]
      rcases List.mem_cons.mp hrow with rfl | hrow
      · exact hline _ _
      · obtain ⟨cs, -, rfl⟩ := List.mem_map.mp hrow
        exact hline _ cs

/-- The box never tells of trouble, and the heading does not either. -/
theorem trouble_notMem_boxAt (name : String) (line column offset : Nat) (label : String)
    (shown : List ShownLine) :
    ∀ row ∈ boxAt name line column offset label shown, .start .trouble ∉ row := by
  intro row hrow
  rcases List.mem_cons.mp hrow with rfl | hrow
  · simp [blank, plain, marked]
  rcases List.mem_append.mp hrow with hrow | hrow
  · obtain ⟨l, -, hrow⟩ := List.mem_flatMap.mp hrow
    rcases List.mem_cons.mp hrow with rfl | hrow
    · simp [plain, marked]
    · split at hrow
      · simp only [pointer, List.mem_cons, List.not_mem_nil, or_false] at hrow
        rcases hrow with rfl | rfl <;> simp [blank, plain, marked]
      · exact absurd hrow List.not_mem_nil
  · rw [List.mem_singleton.mp hrow]
    simp [blank, plain]

/-- A boundary of a text stands behind whole lines and the front of a line without breaks. -/
theorem exists_lines_of_isBoundary {p : Position} (hfeed : ReturnsFeed text.toList)
    (hp : p.IsBoundary text) : ∃ (lines : List (List Char)) (last rest : List Char),
      text.toList = unlines lines ++ (last ++ rest) ∧ (∀ l ∈ lines, '\n' ∉ l) ∧
      (∀ c ∈ last, Row.isBreak c = false) ∧
      p.offset = size (unlines lines) + size last ∧ p.line = lines.length + 1 := by
  obtain ⟨gs, ⟨rest, hgs⟩, rfl⟩ := hp
  obtain ⟨lines, last, hchars, hlines, hlast⟩ := exists_lines (Cluster.charsOf gs)
  have htext : text.toList = unlines lines ++ (last ++ Cluster.charsOf rest) := by
    rw [eq_charsOf_append hgs.symm, hchars, List.append_assoc]
  refine ⟨lines, last, Cluster.charsOf rest, htext, hlines, ?_, ?_, ?_⟩
  · intro c hc
    refine Bool.or_eq_false_iff.mpr ⟨decide_eq_false ?_, decide_eq_false ?_⟩
    · rintro rfl
      exact hlast hc
    · rintro rfl
      exact return_notMem_last hfeed hgs.symm hchars hlast hc
  · rw [Position.offset_passing, hchars, size_append]
    exact Nat.zero_add _
  · -- the clusters that were passed are those of their text alone
    have hcut : clusters (Cluster.charsOf gs) = gs := clusters_of_front ⟨rest, hgs⟩
    rw [Position.line_passing, ← hcut, countP_isLineBreak, hchars, List.count_append,
      count_unlines hlines, List.count_eq_zero.mpr hlast]
    exact Nat.add_comm _ _

/-- A diagnostic at a boundary is shown where it is. -/
theorem showsPlace_of_isBoundary (hfeed : ReturnsFeed text.toList)
    (hd : d.position.IsBoundary text) : ShowsPlace d name text := by
  obtain ⟨lines, last, rest, htext, hlines, hlast, hoffset, hline⟩ :=
    exists_lines_of_isBoundary hfeed hd
  -- the report counts lines from the offset, and the diagnostic has its own
  have hplace : locate d.position.offset text.toList = (d.position.line, size last + 1) := by
    rw [hoffset, hline, htext]
    exact locate_append hlines hlast (htext ▸ hfeed)
  have hle : d.position.offset ≤ size text.toList := by
    rw [hoffset, htext, size_append, size_append]
    omega
  obtain ⟨shown, hshown⟩ := exists_excerpt hle
  have hrows : Report.lines d name text = _ := lines_of_excerpt hshown
  have hstart := LineIndex.starts_getElem? htext (unlines_eq_nil_or lines)
  rw [count_unlines hlines] at hstart
  obtain ⟨stop, hrange⟩ := LineIndex.exists_lineRange? hstart text
  exact
    { quotes := by
        intro row hrow
        rw [hrows] at hrow
        rcases List.mem_append.mp hrow with hrow | hrow
        · exact trouble_notMem_heading d row hrow
        · exact trouble_notMem_boxAt _ _ _ _ _ _ row hrow
      place := by
        refine ⟨_, stop, shown, hline ▸ hrange, hoffset ▸ Nat.le_add_right _ _, hshown, ?_⟩
        intro color
        rw [render, hrows, hplace, hoffset, Nat.add_sub_cancel_left]
        rfl }

end

/--
**A report on a diagnostic of a scan shows the line that the diagnostic names.**

The carriage returns of the text have to stand before line feeds: others end a row of the report, but
no line.
-/
theorem diagnostics_showPlace (options : ScannerOptions) (name : String) {text : String}
    (hfeed : ReturnsFeed text.toList) {d : Diagnostic}
    (hd : d ∈ (ScannedSource.ofSource options ⟨name, text⟩).diagnostics) :
    ShowsPlace d name text := by
  refine showsPlace_of_isBoundary hfeed ?_
  obtain ⟨s, e, s', hrun, he, herror, hwarnings⟩ := Scanner.exists_run_scan text options
  rw [← hrun.after_length] at he hwarnings
  rcases List.mem_append.mp hd with hd | hd
  · change d ∈ (Scanner.scan text options).warnings at hd
    rw [hwarnings] at hd
    exact Scanner.warning_isBoundary text options _ d hd
  · change d ∈ (Scanner.scan text options).error.toList at hd
    rw [herror] at hd
    split at hd
    · exact absurd hd List.not_mem_nil
    · rw [List.mem_singleton.mp hd]
      exact Scanner.error_isBoundary he

/-- A rune without end in the second line, behind a line break of two characters. -/
theorem diagnostics_showPlace_rune : ReturnsFeed "x\r\n'".toList ∧
    (LexicalError.unterminated .rune).diagnostic ⟨4, 2, 2⟩
      ∈ (ScannedSource.ofSource {} ⟨"a.mirth", "x\r\n'"⟩).diagnostics ∧
    ShowsPlace ((LexicalError.unterminated .rune).diagnostic ⟨4, 2, 2⟩) "a.mirth" "x\r\n'" := by
  have hfeed : ReturnsFeed "x\r\n'".toList := by decide
  have hmem : (LexicalError.unterminated .rune).diagnostic ⟨4, 2, 2⟩
      ∈ (ScannedSource.ofSource {} ⟨"a.mirth", "x\r\n'"⟩).diagnostics := by
    decide +kernel
  exact ⟨hfeed, hmem, diagnostics_showPlace {} "a.mirth" hfeed hmem⟩

end Report

end Lexis
