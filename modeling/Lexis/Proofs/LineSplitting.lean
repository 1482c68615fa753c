import Lexis.Proofs.LineStarts
import Mathlib.Data.List.Basic

/-!
# Lines between line feeds

A line index says of its text what splitting the text at the line feeds says
(`ofText_splitsAtFeeds`): it has a line for each part, the line's range holds the part without a
carriage return at its end, and the lines with their terminators put together are the text.

Each part is cut out of the text by whole lines before it, and a line feed or the end behind it
(`Cut`). That alone settles where the index lets its line start and end (`Cut.lineRange?`), also for
another text than the indexed one.
-/

namespace Lexis.LineIndex

/-- The parts of a text between its line feeds. -/
def partsOf (text : String) : List (List Char) := text.toList.splitOn '\n'

/-- A part without a carriage return at its end. -/
def withoutReturn (part : List Char) : List Char :=
  if part.getLast? = some '\r' then part.dropLast else part

/-- The carriage return at the end of a part, if there is one. -/
def returnOf (part : List Char) : List Char :=
  if part.getLast? = some '\r' then ['\r'] else []

theorem withoutReturn_append_returnOf (part : List Char) :
    withoutReturn part ++ returnOf part = part := by
  unfold withoutReturn returnOf
  split
  · next h =>
    exact List.dropLast_append_getLast? '\r' h
  · exact List.append_nil part

theorem withoutReturn_concat (cs : List Char) (c : Char) :
    withoutReturn (cs ++ [c]) = if c = '\r' then cs else cs ++ [c] := by
  unfold withoutReturn
  simp only [List.getLast?_concat, List.dropLast_concat, Option.some.injEq]

/-! ## Where a part stands -/

theorem splitOn_of_not_mem {cs : List Char} (h : '\n' ∉ cs) : cs.splitOn '\n' = [cs] := by
  refine List.splitOnP_eq_singleton fun c hc => ?_
  rw [beq_eq_false_iff_ne]
  rintro rfl
  exact h hc

/-- The first part ends at the first line feed. -/
theorem splitOn_append {cs : List Char} (h : '\n' ∉ cs) (ds : List Char) :
    (cs ++ '\n' :: ds).splitOn '\n' = cs :: ds.splitOn '\n' := by
  have happend : (cs ++ '\n' :: ds).splitOn '\n' = cs.splitOn '\n' ++ ds.splitOn '\n' :=
    List.splitOnP_append_cons cs ds (beq_self_eq_true '\n')
  rw [happend, splitOn_of_not_mem h]
  rfl

/-- There is one part more than there are line feeds. -/
theorem length_splitOn (cs : List Char) : (cs.splitOn '\n').length = cs.count '\n' + 1 := by
  induction cs with
  | nil => rfl
  | cons c cs ih =>
    have hcons : (c :: cs).splitOn '\n' = if (c == '\n') = true then [] :: cs.splitOn '\n'
        else (cs.splitOn '\n').modifyHead (c :: ·) := List.splitOnP_cons_eq_if_modifyHead c cs
    rw [hcons, List.count_cons]
    by_cases hc : (c == '\n') = true
    · rw [if_pos hc, if_pos hc, List.length_cons, ih]
    · rw [if_neg hc, if_neg hc, List.length_modifyHead, ih]

/-- The part with number `n` stands behind `n` whole lines, before a line feed or the end. -/
structure Cut (cs : List Char) (n : Nat) (before part after : List Char) : Prop where
  text : cs = before ++ part ++ after
  lines : before = [] ∨ ∃ ds, before = ds ++ ['\n']
  count : before.count '\n' = n
  noFeed : '\n' ∉ part
  ends : after = [] ∨ ∃ tail, after = '\n' :: tail

/-- Every part stands somewhere in the text. -/
theorem exists_cut {cs : List Char} {n : Nat} {part : List Char}
    (h : (cs.splitOn '\n')[n]? = some part) : ∃ before after, Cut cs n before part after := by
  induction n generalizing cs with
  | zero =>
    by_cases hfeed : '\n' ∈ cs
    · obtain ⟨line, tail, rfl, hline⟩ := List.eq_append_cons_of_mem hfeed
      rw [splitOn_append hline, List.getElem?_cons_zero, Option.some.injEq] at h
      exact ⟨[], '\n' :: tail, by rw [h]; rfl, .inl rfl, rfl, h ▸ hline, .inr ⟨tail, rfl⟩⟩
    · rw [splitOn_of_not_mem hfeed, List.getElem?_cons_zero, Option.some.injEq] at h
      exact ⟨[], [], by rw [h, List.append_nil]; rfl, .inl rfl, rfl, h ▸ hfeed, .inl rfl⟩
  | succ n ih =>
    by_cases hfeed : '\n' ∈ cs
    · obtain ⟨line, tail, rfl, hline⟩ := List.eq_append_cons_of_mem hfeed
      rw [splitOn_append hline, List.getElem?_cons_succ] at h
      obtain ⟨before, after, hcut⟩ := ih h
      refine ⟨line ++ '\n' :: before, after, ?_, .inr ?_, ?_, hcut.noFeed, hcut.ends⟩
      · rw [hcut.text]
        simp only [List.append_assoc, List.cons_append]
      · rcases hcut.lines with rfl | ⟨ds, rfl⟩
        · exact ⟨line, rfl⟩
        · exact ⟨line ++ '\n' :: ds, by simp only [List.append_assoc, List.cons_append]⟩
      · rw [List.count_append, List.count_eq_zero.mpr hline, List.count_cons_self, hcut.count,
          Nat.zero_add]
    · rw [splitOn_of_not_mem hfeed, List.getElem?_cons_succ, List.getElem?_nil] at h
      cases h

/-! ## The range of a part -/

section

variable {text : String} {n : Nat} {before part after : List Char}

/-- A line starts at the offset of its part. -/
theorem Cut.starts_getElem? (h : Cut text.toList n before part after) :
    (ofText text).starts[n]? = some (Text.size before) := by
  rw [← h.count]
  exact LineIndex.starts_getElem? (by rw [h.text, List.append_assoc]) h.lines

/-- The next line starts behind the line feed, or there is no next line. -/
theorem Cut.starts_getElem?_succ (h : Cut text.toList n before part after) :
    (ofText text).starts[n + 1]?
      = if after = [] then none else some (Text.size (before ++ part) + 1) := by
  rcases h.ends with rfl | ⟨tail, rfl⟩
  · rw [if_pos rfl, List.getElem?_eq_none_iff]
    have hlength : (startsFrom 0 text.toList).length = n := by
      rw [length_startsFrom, h.text, List.append_nil, List.count_append,
        List.count_eq_zero.mpr h.noFeed, h.count, Nat.add_zero]
    exact Nat.succ_le_succ (Nat.le_of_eq hlength)
  · rw [if_neg (List.cons_ne_nil _ _)]
    have hcount : (before ++ part ++ ['\n']).count '\n' = n + 1 := by
      rw [List.count_append, List.count_append, h.count, List.count_eq_zero.mpr h.noFeed]
      rfl
    have hsource : text.toList = before ++ part ++ ['\n'] ++ tail := by
      rw [h.text, List.append_assoc _ ['\n']]
      rfl
    have hstart := LineIndex.starts_getElem? hsource (.inr ⟨_, rfl⟩)
    rw [hcount, Text.size_append] at hstart
    exact hstart

/-- The line of a part runs to its end, less a carriage return that the text given has there. -/
theorem Cut.lineRange? (h : Cut text.toList n before part after) (other : String) :
    (ofText text).lineRange? other (n + 1) = some
      (if Text.size before < Text.size (before ++ part) &&
          Text.charAt? (Text.size (before ++ part) - 1) other.toList == some '\r'
        then (Text.size before, Text.size (before ++ part) - 1)
        else (Text.size before, Text.size (before ++ part))) := by
  rw [LineIndex.lineRange?, h.starts_getElem?, h.starts_getElem?_succ, Option.map_some]
  rcases h.ends with rfl | ⟨tail, rfl⟩
  · rw [if_pos rfl, show (ofText text).size = Text.size (before ++ part) by
      rw [ofText, h.text, List.append_nil]]
  · rw [if_neg (List.cons_ne_nil _ _)]
    rfl

/-- In the indexed text the line of a part is the part without a carriage return at its end. -/
theorem Cut.lineRange?_self (h : Cut text.toList n before part after) :
    (ofText text).lineRange? text (n + 1)
      = some (Text.size before, Text.size (before ++ withoutReturn part)) := by
  rw [h.lineRange?]
  rcases List.eq_nil_or_concat part with rfl | ⟨front, c, rfl⟩
  · rw [List.append_nil, decide_eq_false (Nat.lt_irrefl _), show withoutReturn [] = [] from rfl,
      List.append_nil]
    rfl
  · rw [List.concat_eq_append] at h ⊢
    have hpos := c.utf8Size_pos
    have hlt : Text.size before < Text.size (before ++ (front ++ [c])) := by
      rw [Text.size_append, Text.size_append, Text.size_cons]
      omega
    have hchar : Text.charAt? (Text.size (before ++ (front ++ [c])) - 1) text.toList
        = if c.utf8Size = 1 then some c else none := by
      rw [h.text, ← List.append_assoc, Text.charAt?_pred]
    rw [decide_eq_true hlt, hchar, withoutReturn_concat]
    by_cases hc : c = '\r'
    · subst hc
      have hsize : Text.size (before ++ (front ++ ['\r'])) - 1 = Text.size (before ++ front) := by
        rw [← List.append_assoc, Text.size_append _ ['\r']]
        rfl
      rw [hsize]
      rfl
    · rw [if_neg hc]
      by_cases hone : c.utf8Size = 1
      · rw [if_pos hone, beq_eq_false_iff_ne.mpr (fun he => hc (Option.some.inj he))]
        rfl
      · rw [if_neg hone]
        rfl

end

/-! ## The lines of a text -/

theorem length_starts (text : String) : (ofText text).starts.length = (partsOf text).length := by
  rw [partsOf, length_splitOn, ofText, List.length_cons, length_startsFrom]

/-- A range is given for lines of the indexed text only. -/
theorem exists_cut_of_lineRange? {text other : String} {n start stop : Nat}
    (h : (ofText text).lineRange? other n = some (start, stop)) :
    ∃ m before part after, n = m + 1 ∧ (partsOf text)[m]? = some part ∧
      Cut text.toList m before part after := by
  cases n with
  | zero => cases h
  | succ m =>
    obtain ⟨first, hfirst, _⟩ := Option.map_eq_some_iff.mp h
    have hm : m < (partsOf text).length := by
      rw [← length_starts]
      exact (List.getElem?_eq_some_iff.mp hfirst).1
    have hpart := List.getElem?_eq_getElem hm
    obtain ⟨before, after, hcut⟩ := exists_cut hpart
    exact ⟨m, before, _, after, rfl, hpart, hcut⟩

/-- The text of a line is its part without the carriage return. -/
theorem Cut.lineText?_self {text : String} {n : Nat} {before part after : List Char}
    (h : Cut text.toList n before part after) :
    Text.slice? (Text.size before) (Text.size (before ++ withoutReturn part)) text.toList
        = some (withoutReturn part) ∧
      (ofText text).lineText? text (n + 1) = some (String.ofList (withoutReturn part)) := by
  have hslice : Text.slice? (Text.size before) (Text.size (before ++ withoutReturn part))
      text.toList = some (withoutReturn part) := by
    rw [h.text, ← withoutReturn_append_returnOf part, Text.size_append]
    simp only [List.append_assoc]
    rw [← List.append_assoc, withoutReturn_append_returnOf, Text.slice?_append]
  refine ⟨hslice, ?_⟩
  rw [lineText?, h.lineRange?_self, Option.bind_some]
  exact congrArg (Option.map String.ofList) hslice

/-- A part ends before the next parts start. -/
theorem Cut.size_lt {cs before part after before' part' after' : List Char} {m n : Nat}
    (h : Cut cs m before part after) (h' : Cut cs n before' part' after') (hmn : m < n) :
    Text.size (before ++ part) < Text.size before' := by
  have hcount : (before ++ part).count '\n' = m := by
    rw [List.count_append, h.count, List.count_eq_zero.mpr h.noFeed, Nat.add_zero]
  have hfront : before ++ part <+: cs := ⟨after, h.text.symm⟩
  have hfront' : before' <+: cs := ⟨part' ++ after', by rw [h'.text, List.append_assoc]⟩
  rcases List.prefix_or_prefix_of_prefix hfront hfront' with ⟨more, hmore⟩ | hle
  · rw [← hmore, Text.size_append _ more]
    cases more with
    | nil =>
      rw [List.append_nil] at hmore
      rw [hmore, h'.count] at hcount
      omega
    | cons c more =>
      have := c.utf8Size_pos
      rw [Text.size_cons]
      omega
  · have := hle.sublist.count_le '\n'
    rw [hcount, h'.count] at this
    omega

theorem size_le_of_append (cs ds : List Char) : Text.size cs ≤ Text.size (cs ++ ds) := by
  rw [Text.size_append]
  exact Nat.le_add_right _ _

theorem size_withoutReturn_le (before part : List Char) :
    Text.size (before ++ withoutReturn part) ≤ Text.size (before ++ part) := by
  conv_rhs => rw [← withoutReturn_append_returnOf part, ← List.append_assoc]
  exact size_le_of_append _ _

/-- A range of the indexed text stands around a part without its return. -/
theorem exists_cut_of_lineRange?_self {text : String} {n start stop : Nat}
    (h : (ofText text).lineRange? text n = some (start, stop)) :
    ∃ m before part after, n = m + 1 ∧ (partsOf text)[m]? = some part ∧
      Cut text.toList m before part after ∧ start = Text.size before ∧
      stop = Text.size (before ++ withoutReturn part) := by
  obtain ⟨m, before, part, after, rfl, hpart, hcut⟩ := exists_cut_of_lineRange? h
  rw [hcut.lineRange?_self, Option.some.injEq, Prod.mk.injEq] at h
  exact ⟨m, before, part, after, rfl, hpart, hcut, h.1.symm, h.2.symm⟩

/-- A range of any other text stays within the indexed one. -/
theorem lineRange?_le_size {text other : String} {n start stop : Nat}
    (h : (ofText text).lineRange? other n = some (start, stop)) :
    start ≤ stop ∧ stop ≤ (ofText text).size := by
  obtain ⟨m, before, part, after, rfl, hpart, hcut⟩ := exists_cut_of_lineRange? h
  have hle : Text.size before ≤ Text.size (before ++ part) := size_le_of_append _ _
  have hsize : Text.size (before ++ part) ≤ (ofText text).size := by
    show _ ≤ Text.size text.toList
    rw [hcut.text]
    exact size_le_of_append _ _
  rw [hcut.lineRange?, Option.some.injEq] at h
  split at h
  · next hreturn =>
    rw [Bool.and_eq_true, decide_eq_true_eq] at hreturn
    rw [Prod.mk.injEq] at h
    omega
  · rw [Prod.mk.injEq] at h
    omega

/-- The lines are the parts without their returns. -/
theorem map_withoutReturn_partsOf (text : String) :
    ((partsOf text).map withoutReturn).map (fun line => some (String.ofList line))
      = (List.range (partsOf text).length).map (fun n => (ofText text).lineText? text (n + 1)) := by
  refine List.ext_getElem (by simp) fun n hn hn' => ?_
  rw [List.length_map, List.length_map] at hn
  obtain ⟨before, after, hcut⟩ := exists_cut (List.getElem?_eq_getElem hn)
  rw [List.getElem_map, List.getElem_map, List.getElem_map, List.getElem_range]
  exact hcut.lineText?_self.2.symm

/-- One carriage return at most belongs to the end of a line. -/
theorem returnOf_eq (part : List Char) : returnOf part = [] ∨ returnOf part = ['\r'] := by
  unfold returnOf
  split
  · exact .inr rfl
  · exact .inl rfl

/-- The parts with their returns, and line feeds between them, are the text. -/
theorem intercalate_zipWith_partsOf (text : String) :
    ['\n'].intercalate (List.zipWith (· ++ ·) ((partsOf text).map withoutReturn)
      ((partsOf text).map returnOf)) = text.toList := by
  rw [List.zipWith_map_left, List.zipWith_map_right, List.zipWith_self]
  simp only [withoutReturn_append_returnOf, List.map_id']
  exact List.intercalate_splitOn '\n'

/-- What a line index says of a text is what splitting the text at its line feeds says. -/
structure SplitsAtFeeds (index : LineIndex) (text : String) : Prop where
  /-- There is a line for every part, and no other. -/
  length : (partsOf text).length = text.toList.count '\n' + 1
  none_iff : ∀ n, index.lineRange? text n = none ↔ n = 0 ∨ (partsOf text).length < n
  /-- A range stands between scalars of the text, and holds the part without its return. -/
  range : ∀ n start stop, index.lineRange? text n = some (start, stop) →
    start ≤ stop ∧ stop ≤ Text.size text.toList ∧ ∃ part, (partsOf text)[n - 1]? = some part ∧
      Text.slice? start stop text.toList = some (withoutReturn part) ∧
      index.lineText? text n = some (String.ofList (withoutReturn part))
  /-- Ranges follow each other with something between them. -/
  apart : ∀ m n start stop start' stop', m < n → index.lineRange? text m = some (start, stop) →
    index.lineRange? text n = some (start', stop') → stop < start'
  noFeed : ∀ n line, index.lineText? text n = some line → '\n' ∉ line.toList
  /-- The lines with their returns, and line feeds between them, are the text. -/
  restored : ∃ lines returns : List (List Char), lines.length = returns.length ∧
    lines.map (fun line => some (String.ofList line))
      = (List.range (partsOf text).length).map (fun n => index.lineText? text (n + 1)) ∧
    (∀ r ∈ returns, r = [] ∨ r = ['\r']) ∧
    ['\n'].intercalate (List.zipWith (· ++ ·) lines returns) = text.toList
  /-- Whatever text is given, ranges stay within the indexed one. -/
  bounded : ∀ other n start stop, index.lineRange? other n = some (start, stop) →
    start ≤ stop ∧ stop ≤ index.size

/-- **A line index splits its text at the line feeds.** -/
theorem ofText_splitsAtFeeds (text : String) : (ofText text).SplitsAtFeeds text where
  length := length_splitOn text.toList
  none_iff n := by
    cases n with
    | zero =>
      -- lines count from one
      exact ⟨fun _ => .inl rfl, fun _ => rfl⟩
    | succ n =>
      rw [lineRange?, Option.map_eq_none_iff, List.getElem?_eq_none_iff, length_starts]
      omega
  range n start stop h := by
    obtain ⟨m, before, part, after, rfl, hpart, hcut, rfl, rfl⟩ := exists_cut_of_lineRange?_self h
    refine ⟨size_le_of_append _ _, ?_, part, hpart, hcut.lineText?_self⟩
    refine Nat.le_trans (size_withoutReturn_le before part) ?_
    rw [hcut.text]
    exact size_le_of_append _ _
  apart m n start stop start' stop' hmn h h' := by
    obtain ⟨m, before, part, after, rfl, -, hcut, rfl, rfl⟩ := exists_cut_of_lineRange?_self h
    obtain ⟨n, before', part', after', rfl, -, hcut', rfl, rfl⟩ := exists_cut_of_lineRange?_self h'
    exact Nat.lt_of_le_of_lt (size_withoutReturn_le before part)
      (hcut.size_lt hcut' (Nat.lt_of_succ_lt_succ hmn))
  noFeed n line h := by
    -- the line is a part without its carriage return, and the part has no line feed
    obtain ⟨⟨start, stop⟩, hrange, _⟩ := Option.bind_eq_some_iff.mp h
    obtain ⟨m, before, part, after, rfl, -, hcut⟩ := exists_cut_of_lineRange? hrange
    rw [hcut.lineText?_self.2, Option.some.injEq] at h
    rw [← h, String.toList_ofList]
    intro hmem
    refine hcut.noFeed ?_
    rw [← withoutReturn_append_returnOf part]
    exact List.mem_append_left _ hmem
  restored := by
    refine ⟨(partsOf text).map withoutReturn, (partsOf text).map returnOf, by simp,
      map_withoutReturn_partsOf text, ?_, intercalate_zipWith_partsOf text⟩
    intro r hr
    obtain ⟨part, _, rfl⟩ := List.mem_map.mp hr
    exact returnOf_eq part
  bounded other n start stop h := lineRange?_le_size h

end Lexis.LineIndex
