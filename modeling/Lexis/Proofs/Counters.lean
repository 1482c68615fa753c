import Lexis.Proofs.Places
import Lexis.Proofs.TemplateFrames

/-!
# Counters and bytes

A scan counts lines, columns, and the braces that are open in interpolations. Each of them counts
something that takes up a byte of its own, so none gets ahead of the offset (`after_counts`): line
and column together are two more at most, and the frames with their open braces are no more than the
bytes passed. So 32 bits are enough for each in a source of fewer than `UInt32.size - 1` bytes.
-/

namespace Lexis

theorem Cluster.size_pos {g : Cluster} (h : g.chars ≠ []) : 0 < g.size := by
  obtain ⟨c, cs, hc⟩ := List.exists_cons_of_ne_nil h
  rw [size, hc, Text.size_cons]
  exact Nat.add_pos_left c.utf8Size_pos _

/-! ## Lines and columns -/

namespace Position

/-- Lines and columns count from one, and together no faster than bytes. -/
structure Paced (p : Position) : Prop where
  line_pos : 1 ≤ p.line
  column_pos : 1 ≤ p.column
  bounded : p.line + p.column ≤ p.offset + 2

section

variable {p : Position} {g : Cluster} {gs : List Cluster} {source : String}

theorem paced_start : start.Paced := ⟨Nat.le_refl 1, Nat.le_refl 1, Nat.le_refl 2⟩

/-- A line break gives up a column at least for the line that it starts. -/
theorem Paced.next (h : p.Paced) (hg : g.chars ≠ []) : (p.next g).Paced := by
  obtain ⟨hline, hcolumn, hbounded⟩ := h
  have hsize := Cluster.size_pos hg
  unfold Position.next
  split
  · refine ⟨Nat.le_add_left 1 p.line, Nat.le_refl 1, ?_⟩
    show p.line + 1 + 1 ≤ p.offset + g.size + 2
    omega
  · refine ⟨hline, Nat.le_add_left 1 p.column, ?_⟩
    show p.line + (p.column + 1) ≤ p.offset + g.size + 2
    omega

theorem Paced.passing (h : p.Paced) (hgs : ∀ g ∈ gs, g.chars ≠ []) : (p.passing gs).Paced := by
  induction gs generalizing p with
  | nil => exact h
  | cons g gs ih =>
    rw [passing_cons]
    exact ih (h.next (hgs g (by simp))) fun k hk => hgs k (by simp [hk])

theorem IsBoundary.paced (h : p.IsBoundary source) : p.Paced := by
  obtain ⟨gs, hgs, rfl⟩ := h
  refine paced_start.passing ?_
  intro g hg
  exact Text.ne_nil_of_mem_clusters (hgs.mem hg)

/-- **Between the clusters of a short source, 32 bits hold the line and the column.** -/
theorem IsBoundary.counters_lt (h : p.IsBoundary source)
    (hsize : Text.size source.toList < UInt32.size - 1) :
    p.line < UInt32.size ∧ p.column < UInt32.size := by
  obtain ⟨hline, hcolumn, hbounded⟩ := h.paced
  have hoffset := h.agreesWith.bounded
  omega

end

end Position

/-! ## Frames and braces -/

namespace TemplateStack

/-- The braces open in all interpolations. -/
def openBraces : TemplateStack → Nat
  | [] => 0
  | .text :: frames => openBraces frames
  | .interpolation n :: frames => n + openBraces frames

/-- A token adds a frame or a brace at most. -/
theorem Changes.length_add_openBraces_le {k : TokenKind} {frames frames' : TemplateStack}
    (h : Changes k frames frames') :
    frames'.length + frames'.openBraces ≤ frames.length + frames.openBraces + 1 := by
  cases h with
  | nothing => exact Nat.le_succ _
  | _ =>
    simp only [openBraces, List.length_cons]
    omega

/-- Only braces count, and a new interpolation has none. -/
theorem Changes.keeps_counts {k : TokenKind} {frames frames' below : TemplateStack} {n : Nat}
    (h : Changes k frames frames') (hopen : k ≠ .punctuation .openBrace)
    (hclose : k ≠ .punctuation .closeBrace) (hs : .interpolation n :: below <:+ frames') :
    .interpolation n :: below <:+ frames ∨ (n = 0 ∧ below = frames) := by
  cases h with
  | openText =>
    rcases List.suffix_cons_iff.mp hs with heq | hs
    · exact absurd (List.cons.inj heq).1 (by simp)
    · exact .inl hs
  | openInterpolation =>
    rcases List.suffix_cons_iff.mp hs with heq | hs
    · obtain ⟨hzero, rfl⟩ := List.cons.inj heq
      exact .inr ⟨TemplateFrame.interpolation.inj hzero, rfl⟩
    · exact .inl hs
  | closeText => exact .inl (hs.trans (List.suffix_cons _ _))
  | openBrace => exact absurd rfl hopen
  | closeBrace | closeInterpolation => exact absurd rfl hclose
  | nothing => exact .inl hs

theorem le_openBraces {n : Nat} {below frames : TemplateStack}
    (h : .interpolation n :: below <:+ frames) : n ≤ frames.openBraces := by
  obtain ⟨above, rfl⟩ := h
  induction above with
  | nil => exact Nat.le_add_right n _
  | cons frame above ih =>
    cases frame with
    | text => exact ih
    | interpolation m => exact Nat.le_add_left_of_le ih

end TemplateStack

namespace Scanner

open TemplateStack

/-- Frames and open braces have taken up a byte each. -/
theorem frames_after_le {s : Scanner} (h : s.frames = []) (n : Nat) :
    (s.after n).frames.length + (s.after n).frames.openBraces ≤ (s.after n).cursor.offset := by
  induction n with
  | zero =>
    rw [after, h]
    exact Nat.zero_le _
  | succ n ih =>
    rw [after_succ]
    rcases (s.after n).next_changes with ⟨t, hnext, hchanges⟩ | hframes
    · obtain ⟨gs, hne, hgs⟩ := passes_of_next_ok hnext
      have hoffset := hgs.offset_lt hne
      have hcount := hchanges.length_add_openBraces_le
      omega
    · obtain ⟨gs, hgs⟩ := (s.after n).next_passes
      rw [hframes]
      exact Nat.le_trans ih hgs.offset_le

/-- In a short source 32 bits hold the braces that are open in an interpolation. -/
theorem braces_after_lt {source : String} (options : ScannerOptions) {n j : Nat}
    {below : TemplateStack} (hsize : Text.size source.toList < UInt32.size - 1)
    (h : .interpolation j :: below <:+ ((ofText source options).after n).frames) :
    j < UInt32.size := by
  have hframes := frames_after_le (s := ofText source options) rfl n
  have hbraces := le_openBraces h
  have hoffset : ((ofText source options).after n).cursor.offset ≤ Text.size source.toList :=
    (agreesWith_after source options n List.nil_prefix).bounded
  omega

/-- The counters of a scan of a source, and what a call does to the braces that it counts. -/
structure Counts (s : Scanner) (source : String) : Prop where
  /-- Lines and columns, here and wherever a cluster ahead leads. -/
  paced : ∀ gs, gs <+: s.cursor.ahead → (s.position.passing gs).Paced
  frames : s.frames.length + s.frames.openBraces ≤ s.cursor.offset
  /-- In a short source no cluster that is passed counts a line or a column beyond 32 bits. -/
  place_lt : Text.size source.toList < UInt32.size - 1 → ∀ gs, gs <+: s.cursor.ahead →
    (s.position.passing gs).line < UInt32.size ∧ (s.position.passing gs).column < UInt32.size
  /-- An opening brace counts up, in a short source not beyond 32 bits either. -/
  openBrace : ∀ n below t s', s.frames = .interpolation n :: below → s.next = (.ok t, s') →
    t.kind = .punctuation .openBrace → s'.frames = .interpolation (n + 1) :: below ∧
      (Text.size source.toList < UInt32.size - 1 → n + 1 < UInt32.size)
  /-- A closing brace counts down from one at least; at zero it ends the interpolation. -/
  closeBrace : ∀ n below t s', s.frames = .interpolation n :: below → s.next = (.ok t, s') →
    t.kind = .punctuation .closeBrace →
      (n = 0 ∧ s'.frames = below) ∨ (0 < n ∧ s'.frames = .interpolation (n - 1) :: below)
  /-- Nothing else changes a count, and a new one is zero. -/
  kept : ∀ r s', s.next = (r, s') →
    (∀ t, r = .ok t → t.kind ≠ .punctuation .openBrace ∧ t.kind ≠ .punctuation .closeBrace) →
      ∀ n below, .interpolation n :: below <:+ s'.frames →
        .interpolation n :: below <:+ s.frames ∨ (n = 0 ∧ below = s.frames)

/--
**Wherever calls have led, no counter has got ahead of the bytes that were passed.**

So in a source of fewer than `UInt32.size - 1` bytes none leaves 32 bits, and no braces are counted
down below zero.
-/
theorem after_counts (source : String) (options : ScannerOptions) (n : Nat) :
    ((ofText source options).after n).Counts source where
  paced gs hgs := (isBoundary_after source options n hgs).paced
  frames := frames_after_le rfl n
  place_lt hsize gs hgs := (isBoundary_after source options n hgs).counters_lt hsize
  openBrace j below t s' hframes hnext hkind := by
    have hchanges := changes_of_next hnext
    rw [hframes, hkind] at hchanges
    have hcounted := hchanges.eq_of_openBrace
    refine ⟨hcounted, ?_⟩
    -- the brace counts behind the call, so the bound is that of one call more
    intro hsize
    have hafter : ((ofText source options).after (n + 1)).frames
        = .interpolation (j + 1) :: below := by
      rw [after_succ, hnext]
      exact hcounted
    exact braces_after_lt options hsize ⟨[], hafter.symm⟩
  closeBrace j below t s' hframes hnext hkind := by
    have hchanges := changes_of_next hnext
    rw [hframes, hkind] at hchanges
    exact hchanges.eq_of_closeBrace
  kept r s' hnext hother j below h := by
    cases r with
    | error d => exact .inl (frames_of_next hnext ▸ h)
    | ok t =>
      obtain ⟨hopen, hclose⟩ := hother t rfl
      exact (changes_of_next hnext).keeps_counts hopen hclose h

end Scanner

end Lexis
