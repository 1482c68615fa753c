import Lexis.Proofs.LaterText
import Lexis.Proofs.LineFeed
import Lexis.Proofs.LongestMatch
import Lexis.Proofs.Pushed

/-!
# A tab between two tokens

A tab may be put behind any token that is not a comment and does not leave template text open, and in
front of all tokens: the tokens, the error and the warnings are the same, those behind the tab pushed
along (`scan_insertTab`). Up to the tab both scans share what is ahead of them (`SharesFront`). The
call whose token stands next to the tab sees nothing behind it; the call before that may see one
cluster and not the next one, which only two points in a row could tell. Behind the tab the scan is
pushed along (`Pushed`).
-/

namespace Lexis

/-! ## A text is cut on both sides of a tab -/

theorem Text.clusters_tab (cs ds : List Char) :
    clusters (cs ++ '\t' :: ds) = clusters cs ++ .ofChar '\t' :: clusters ds := by
  have hleft : joins (cs.map BreakClass.ofChar).reverse (.ofChar '\t') = false :=
    joins_control rfl (by decide) _
  rw [clusters_append ds hleft, clusters_control rfl (by decide)]

namespace Scanner

/-! ## In front of the tab -/

section

variable {s s' u v : Scanner} {t : Token} {ts : List Token} {blanks lexeme front tail xs : List Cluster}
  {g tab : Cluster} {kind : TokenKind}

/-- A point that is a token is followed by no other point. -/
theorem Takes.not_point (h : s.Takes blanks [.ofChar '.'] t s') (tail : List Cluster) :
    s'.cursor.ahead ≠ .ofChar '.' :: tail := by
  intro hrest
  rcases Lexeme.fragment_or_readCode h.read with hkind | hread
  · -- a fragment ends before a quote or a dollar sign
    obtain ⟨-, -, -, k, ks, hk, hcloses⟩ := h.fragment hkind
    obtain ⟨rfl, -⟩ := List.cons.inj (hrest.symm.trans hk)
    exact absurd hcloses (by simp [TextLiteral.closes])
  · rw [hrest, List.singleton_append] at hread
    have hspelled : Punctuator.dotDot.SpelledBy (.ofChar '.' :: .ofChar '.' :: tail) := ⟨tail, rfl⟩
    obtain ⟨p, hp, hlen⟩ := Punctuator.exists_of_spelledBy hspelled
    have hcomment : ¬BeginsWith (.ofChar '.' :: .ofChar '.' :: tail) "//" := by
      rw [beginsWith_slashes]
      simp
    rw [Lexeme.readCode, Opening.of_mark hp hcomment] at hread
    -- the mark takes both points
    have hleft := congrArg List.length (Lexeme.mk.inj (Except.ok.inj hread)).2.2
    have htwo : 2 ≤ p.spelling.length := hlen
    simp only [List.length_drop, List.length_cons] at hleft
    omega

/-- Where template text ends, a mark of one cluster ends it whatever follows. -/
theorem Takes.endsText (h : s.Takes [] [g] t s') (hend : EndsText (g :: s'.cursor.ahead))
    (after : List Cluster) : EndsText (g :: after) := by
  rcases Lexeme.fragment_or_readCode h.read with hkind | hread
  · have hopen := (h.fragment hkind).2.2.1
    rw [h.ahead] at hopen
    exact absurd hend hopen
  · obtain ⟨_, mark, rest, hsplit, hmark, -, hends⟩ :=
      Lexeme.readCode_of_endsText hend s.frames.place
    obtain ⟨-, -, rfl⟩ := Lexeme.mk.inj (Except.ok.inj (hmark.symm.trans hread))
    have hg : [g] ++ s'.cursor.ahead = mark ++ s'.cursor.ahead := hsplit
    rw [← List.append_cancel_right hg] at hends
    exact hends after

/-- A token ends alike in front of a token of one cluster, whether or not a separator follows that. -/
theorem Takes.endsAlike (h : s.Takes [] [g] t s') (htab : tab.separates = true)
    (kind : TokenKind) (xs : List Cluster) :
    EndsAlike kind (g :: tab :: xs) (g :: s'.cursor.ahead) where
  seen := by
    by_cases hg : g.separates = true
    · rw [sight_eq_nil_of_separates hg]
      exact List.nil_prefix
    · have hg : g.separates = false := by simpa using hg
      rw [sight_cons hg, sight_cons hg]
      exact ⟨(s'.cursor.ahead.take 1).takeWhile (!·.separates), by simp [htab]⟩
  points hafter hrest := by
    obtain ⟨tail, hahead⟩ := eq_cons_of_sight_pair hrest
    obtain ⟨rfl, hpoint⟩ := List.cons.inj hahead
    exact h.not_point tail hpoint
  comment _ hline := hline
  fragment _ htext := h.endsText htext _

/-- Every token of a run ends alike, whether or not a separator follows the run. -/
theorem Run.endsAlike (hrun : Run s ts v) (hs : s.cursor.ahead = front ++ tail)
    (hv : v.cursor.ahead = tail) (htab : tab.separates = true)
    (hlast : ts = [] → kind ≠ .lineComment ∧ kind ≠ .templateFragment) :
    EndsAlike kind (front ++ tab :: tail) (front ++ tail) := by
  by_cases hlen : 2 ≤ front.length
  · exact endsAlike_append hlen kind _ _
  cases hrun with
  | nil =>
    obtain rfl : front = [] := List.append_left_eq_self.mp (hs.symm.trans hv)
    obtain ⟨hcomment, hfragment⟩ := hlast rfl
    exact
      { toReplaces := .of_nil (sight_eq_nil_of_separates htab tail) tail
        comment := fun hk => absurd hk hcomment
        fragment := fun hk => absurd hk hfragment }
  | cons hnext hback =>
    -- what is left before the separator is the lexeme of the next call
    obtain ⟨blanks, lexeme, ht⟩ := takes_of_next hnext
    obtain ⟨gs, hgs⟩ := hback.passes
    have hahead := ht.ahead
    rw [hs, hgs.ahead, hv] at hahead
    have hfront : front = blanks ++ (lexeme ++ gs) := by
      rw [← List.append_assoc, ← List.append_assoc] at hahead
      rw [List.append_cancel_right hahead, List.append_assoc]
    obtain ⟨g, ks, rfl⟩ := List.exists_cons_of_ne_nil ht.lexeme_ne_nil
    rw [hfront] at hlen
    simp only [List.length_append, List.length_cons] at hlen
    obtain rfl : blanks = [] := List.eq_nil_of_length_eq_zero (by omega)
    obtain rfl : ks = [] := List.eq_nil_of_length_eq_zero (by omega)
    obtain rfl : gs = [] := List.eq_nil_of_length_eq_zero (by omega)
    have hend := ht.endsAlike htab kind tail
    rw [hgs.ahead, hv] at hend
    rw [hfront]
    exact hend

/-- **A run is the same where a separator is put behind it.** -/
theorem SharesFront.run_before (h : SharesFront tail (tab :: tail) s u) (hrun : Run s ts v)
    (hv : v.cursor.ahead = tail) (htab : tab.separates = true)
    (hplace : v.frames.place ≠ .templateText) (hlast : ∀ t ∈ ts.getLast?, t.kind ≠ .lineComment) :
    ∃ u', Run u ts u' ∧ SharesFront tail (tab :: tail) v u' := by
  induction hrun generalizing u with
  | nil s => exact ⟨u, .nil u, h⟩
  | @cons s s₁ v t ts hnext hback ih =>
    obtain ⟨blanks, lexeme, ht⟩ := takes_of_next hnext
    obtain ⟨gs, hgs⟩ := hback.passes
    obtain ⟨front, hs₁, hu⟩ := h.split ht (hv ▸ hgs.length_le)
    have hend : EndsAlike t.kind (front ++ tab :: tail) (front ++ tail) := by
      refine hback.endsAlike hs₁ hv htab fun hnil => ?_
      subst hnil
      refine ⟨hlast t rfl, fun hkind => hplace ?_⟩
      -- a fragment leaves the text of its template open
      cases hback
      rw [ht.frames, hkind]
      exact (ht.fragment hkind).1
    obtain ⟨htakes, hpast⟩ := h.takes_of_endsAlike ht hs₁ hu hend
    obtain ⟨u', hrun', h'⟩ := ih hpast hv hplace fun t' ht' => hlast t' (by
      rw [List.getLast?_cons]
      simp [show ts.getLast? = some t' from ht'])
    exact ⟨u', .cons htakes.next hrun', h'⟩

end

/-! ## The tab is passed -/

section

variable {u v v' : Scanner} {g : Cluster} {gs : List Cluster}

theorem ahead_stopped_cons (hahead : u.cursor.ahead = g :: gs) :
    (u.stopped [g]).cursor.ahead = gs := by
  have hsplit : u.cursor.ahead = [g] ++ ([] ++ gs) := hahead
  exact ahead_stopped hsplit

/-- In code a call begins behind a blank as well as in front of it. -/
theorem next_of_blank (hplace : u.frames.place ≠ .templateText) (hahead : u.cursor.ahead = g :: gs)
    (hg : g.isBlank = true) : u.next = (u.stopped [g]).next := by
  have hstopped := ahead_stopped_cons hahead
  -- the call behind the blank skips the same blanks but for this one
  have hblanks : u.blanksIn u.cursor.ahead = g :: (u.stopped [g]).blanksIn gs := by
    rw [blanksIn_of_place hplace, blanksIn_of_place (s := u.stopped [g]) hplace, hahead,
      List.takeWhile_cons_of_pos (by simpa using hg)]
  rcases (u.stopped [g]).takes_or_fails with
    ⟨blanks, lexeme, t, s', ht⟩ | ⟨blanks, passed, fault, d, s', hf⟩
  · have hblank := ht.blanksIn
    rw [hstopped] at hblank
    have htakes : u.Takes (g :: blanks) lexeme t s' :=
      { ahead := by rw [hahead, ← hstopped, ht.ahead, List.cons_append]
        blanksIn := by rw [hblanks, hblank]
        read := ht.read
        position := ht.position
        after := ht.after }
    rw [ht.next, htakes.next]
  · have hblank := hf.blanksIn
    rw [hstopped] at hblank
    have hfails : u.Fails (g :: blanks) passed fault d s' :=
      { ahead := by rw [hahead, ← hstopped, hf.ahead, List.cons_append]
        blanksIn := by rw [hblanks, hblank]
        read := hf.read
        diagnostic := hf.diagnostic
        after := hf.after }
    rw [hf.next, hfails.next]

/-- A run may start from any scan whose next call is the same. -/
theorem Run.of_next_eq {ts : List Token} (hnext : u.next = v.next) (hwarnings : u.warnings = v.warnings)
    (hrun : Run v ts v') : ∃ u', Run u ts u' ∧ u'.next = v'.next ∧ u'.warnings = v'.warnings := by
  cases hrun with
  | nil => exact ⟨u, .nil u, hnext, hwarnings⟩
  | cons hfirst hback => exact ⟨v', .cons (hnext.trans hfirst) hback, rfl, rfl⟩

end

/-- Behind a tab that is ahead, a scan is pushed along. -/
theorem SharesFront.pushed {s u : Scanner}
    (h : SharesFront s.cursor.ahead (.ofChar '\t' :: s.cursor.ahead) s u)
    (hahead : u.cursor.ahead = .ofChar '\t' :: s.cursor.ahead)
    (hwarnings : ∀ w ∈ s.warnings, w.position.offset < s.position.offset) :
    Pushed s.position s (u.stopped [.ofChar '\t']) where
  options := h.options
  frames := h.frames
  ahead := ahead_stopped_cons hahead
  behind := .refl s.position
  position := by
    have hline : (Cluster.ofChar '\t').isLineBreak = false := by decide
    have hsize : (Cluster.ofChar '\t').size = 1 := by decide
    rw [Position.pushedAt_self hline hsize, ← h.position]
    rfl
  warnings := h.warnings.trans (Diagnostic.map_pushedAt hwarnings).symm

/-! ## The whole source -/

section

variable {source : String} {options : ScannerOptions} {gs : List Cluster} {s : Scanner}
  {ts : List Token}

/-- What is passed and what is ahead are the source. -/
theorem Passes.source_eq (h : (ofText source options).Passes gs s) :
    source.toList = Cluster.charsOf gs ++ Cluster.charsOf s.cursor.ahead := by
  have hahead : (ofText source options).cursor.ahead = Text.clusters source.toList :=
    Cursor.ahead_ofText source
  rw [← Cluster.charsOf_append, ← h.ahead, hahead, Text.chars_clusters]

/-- With a tab where a scan stands, a scan of the source has the tab ahead there. -/
theorem Passes.sharesFront (h : (ofText source options).Passes gs s) :
    SharesFront s.cursor.ahead (.ofChar '\t' :: s.cursor.ahead) (ofText source options)
      (ofText (String.ofList
        (Cluster.charsOf gs ++ '\t' :: Cluster.charsOf s.cursor.ahead)) options) where
  options := rfl
  frames := rfl
  position := rfl
  warnings := rfl
  ahead := by
    refine ⟨gs, h.ahead, ?_⟩
    have hclusters : Text.clusters source.toList = gs ++ s.cursor.ahead := by
      rw [← h.ahead]
      exact (Cursor.ahead_ofText source).symm
    show (Cursor.ofText _).ahead = _
    rw [Cursor.ahead_ofText, String.toList_ofList, Text.clusters_tab,
      Text.clusters_of_front ⟨_, hclusters.symm⟩, Text.clusters_of_suffix ⟨_, hclusters.symm⟩]

/-- The warnings of a run stand before where it has come to. -/
theorem Run.offset_lt_of_mem_warnings (h : Run (ofText source options) ts s) :
    ∀ w ∈ s.warnings, w.position.offset < s.position.offset := by
  intro w hw
  rw [h.warnings Nesting.holds_nil] at hw
  obtain ⟨t, ht, rfl⟩ := List.mem_map.mp ((List.nil_append _).symm ▸ hw)
  exact (h.offset_bounds t (mem_of_mem_tooDeep ht).1).2

/-- What a scan finds in two runs, with all that stands behind the first of them pushed along. -/
theorem pushedAt_scanToEnd {s' s'' : Scanner} {us : List Token} {d : Diagnostic}
    (hbefore : Run (ofText source options) ts s) (hbehind : Run s us s')
    (hd : s'.next = (.error d, s'')) :
    (scan source options).pushedAt s.position =
      { tokens := ts ++ us.map (Token.pushedAt s.position)
        error := if (d.pushedAt s.position).isEndOfInput then none
          else some (d.pushedAt s.position)
        warnings := s'.warnings.map (Diagnostic.pushedAt s.position) } := by
  have hscan : scan source options = _ := (hbefore.append hbehind).scanToEnd hd
  have hoffsets : ∀ t ∈ ts, t.position.offset < s.position.offset :=
    fun t ht => (hbefore.offset_bounds t ht).2
  rw [hscan, ScanOutput.pushedAt, List.map_append, Token.map_pushedAt hoffsets,
    error_map (f := Diagnostic.pushedAt s.position) rfl]

/-- **Where a run has come to, a tab pushes along what comes behind it.** -/
theorem Run.scan_tab {s' s'' : Scanner} {us : List Token} {d : Diagnostic}
    (hbefore : Run (ofText source options) ts s) (hbehind : Run s us s')
    (hd : s'.next = (.error d, s'')) (hgs : (ofText source options).Passes gs s)
    (hplace : s.frames.place ≠ .templateText) (hlast : ∀ t ∈ ts.getLast?, t.kind ≠ .lineComment) :
    scan (String.ofList (Cluster.charsOf gs ++ '\t' :: Cluster.charsOf s.cursor.ahead)) options
      = (scan source options).pushedAt s.position := by
  have htab : (Cluster.ofChar '\t').separates = true := by decide
  obtain ⟨u, hfront, hu⟩ := hgs.sharesFront.run_before hbefore rfl htab hplace hlast
  have hahead : u.cursor.ahead = .ofChar '\t' :: s.cursor.ahead :=
    hu.ahead_of_eq (List.nil_append _).symm
  obtain ⟨w, hpush, hw⟩ := (hu.pushed hahead hbefore.offset_lt_of_mem_warnings).run hbehind
  obtain ⟨blanks, passed, fault, hf⟩ := fails_of_next hd
  obtain ⟨u', hback, hnext, hwarned⟩ :=
    Run.of_next_eq (next_of_blank (hu.frames ▸ hplace) hahead rfl) rfl hpush
  have hscan : scan _ options = _ := (hfront.append hback).scanToEnd (hnext.trans (hw.fails hf).next)
  rw [hscan, hwarned, hw.warnings, pushedAt_scanToEnd hbefore hbehind hd]

end

/--
**A tab between two tokens changes nothing but positions.**

The tab is put in front of all tokens or behind the `k`-th one, which is not a comment, and behind
which no template text is open. What stands behind the tab is pushed along.
-/
theorem scan_insertTab (source : String) (options : ScannerOptions) {k : Nat}
    (hk : k ≤ (scan source options).tokens.length)
    (hplace : ((ofText source options).after k).frames.place ≠ .templateText)
    (hlast : ∀ t ∈ ((scan source options).tokens.take k).getLast?, t.kind ≠ .lineComment) :
    let p := ((ofText source options).after k).position
    ∃ front back, Text.takeBytes? p.offset source.toList = some front ∧
      Text.dropBytes? p.offset source.toList = some back ∧
      scan (String.ofList (front ++ '\t' :: back)) options
        = (scan source options).pushedAt p := by
  obtain ⟨s', d, s'', hrun, hd, -⟩ := exists_run_scan source options
  rw [← List.take_append_drop k (scan source options).tokens] at hrun
  obtain ⟨s, hbefore, hbehind⟩ := hrun.split
  have hs : (ofText source options).after k = s := by
    have hafter := hbefore.after_length
    rwa [List.length_take_of_le hk] at hafter
  rw [hs] at hplace ⊢
  obtain ⟨gs, hgs⟩ := hbefore.passes
  have hoffset : s.position.offset = Text.size (Cluster.charsOf gs) :=
    hgs.offset.trans (Nat.zero_add _)
  refine ⟨Cluster.charsOf gs, Cluster.charsOf s.cursor.ahead, ?_, ?_, ?_⟩
  · rw [hoffset, hgs.source_eq, Text.takeBytes?_append]
  · rw [hoffset, hgs.source_eq, Text.dropBytes?_append]
  · exact hbefore.scan_tab hbehind hd hgs hplace hlast

/-- In an interpolation a tab behind the minus sign pushes the error along, and not the warning. -/
theorem scan_insertTab_minus :
    scan (r"`${1-" ++ "\t.5 '") ⟨0⟩ = (scan r"`${1-.5 '" ⟨0⟩).pushedAt ⟨5, 1, 6⟩ ∧
      (scan (r"`${1-" ++ "\t.5 '") ⟨0⟩).error
        = some ((LexicalError.unterminated .rune).diagnostic ⟨10, 1, 11⟩) := by
  obtain ⟨front, back, hfront, hback, hscan⟩ := scan_insertTab r"`${1-.5 '" ⟨0⟩ (k := 4)
    (by decide +kernel) (by decide +kernel) (by decide +kernel)
  have hposition : ((ofText r"`${1-.5 '" ⟨0⟩).after 4).position = ⟨5, 1, 6⟩ := by decide +kernel
  rw [hposition] at hfront hback hscan
  obtain rfl : r"`${1-".toList = front :=
    Option.some.inj ((show some _ = _ by decide +kernel).trans hfront)
  obtain rfl : ".5 '".toList = back :=
    Option.some.inj ((show some _ = _ by decide +kernel).trans hback)
  have htext : String.ofList (r"`${1-".toList ++ '\t' :: ".5 '".toList)
      = r"`${1-" ++ "\t.5 '" := by decide +kernel
  rw [htext] at hscan
  refine ⟨hscan, ?_⟩
  rw [hscan]
  decide +kernel

end Scanner

end Lexis
