import Lexis.Proofs.Passing
import Mathlib.Logic.ExistsUnique

/-!
# How template frames stand on each other

A token changes the innermost frame and no other (`Changes`). So template text never stands on
template text, and an interpolation stands on the frames in which its mark was read, until a closing
brace leads back to them (`after_stacked`).

The mark of an interpolation is read in code as well as in template text. Frames alternate, with
template text at the bottom, exactly if the marks of all open interpolations were read in template
text; marks in code are enough to break this (`not_alternates_in_code`).
-/

namespace Lexis

namespace TemplateStack

/-! ## What one token does -/

/-- What a token of some kind does to the open frames. -/
inductive Changes : TokenKind → TemplateStack → TemplateStack → Prop where
  | openText {frames : TemplateStack} (place : frames.place ≠ .templateText) :
      Changes .templateQuote frames (.text :: frames)
  | closeText (below : TemplateStack) : Changes .templateQuote (.text :: below) below
  | openInterpolation (frames : TemplateStack) :
      Changes .interpolationStart frames (.interpolation 0 :: frames)
  | closeInterpolation (below : TemplateStack) :
      Changes (.punctuation .closeBrace) (.interpolation 0 :: below) below
  | openBrace (n : Nat) (below : TemplateStack) :
      Changes (.punctuation .openBrace)
        (.interpolation n :: below) (.interpolation (n + 1) :: below)
  | closeBrace (n : Nat) (below : TemplateStack) :
      Changes (.punctuation .closeBrace)
        (.interpolation (n + 1) :: below) (.interpolation n :: below)
  /-- Braces count in interpolations only, and other kinds have no part in the nesting. -/
  | nothing {k : TokenKind} {frames : TemplateStack} (quote : k ≠ .templateQuote)
      (mark : k ≠ .interpolationStart)
      (brace : k = .punctuation .openBrace ∨ k = .punctuation .closeBrace →
        frames.place ≠ .interpolation) :
      Changes k frames frames

theorem changes_quote (frames : TemplateStack) : Changes .templateQuote frames frames.quote := by
  cases frames with
  | nil => exact .openText (by decide)
  | cons frame below =>
    cases frame with
    | text => exact .closeText below
    | interpolation n => exact .openText (by simp [place])

theorem changes_openBrace (frames : TemplateStack) :
    Changes (.punctuation .openBrace) frames frames.openBrace := by
  cases frames with
  | nil => exact .nothing (by decide) (by decide) fun _ => by decide
  | cons frame below =>
    cases frame with
    | text => exact .nothing (by decide) (by decide) fun _ => by simp [place]
    | interpolation n => exact .openBrace n below

/-- A closing brace counts back, or ends the interpolation that is innermost. -/
theorem changes_closeBrace (frames : TemplateStack) :
    Changes (.punctuation .closeBrace) frames frames.closeBrace := by
  cases frames with
  | nil => exact .nothing (by decide) (by decide) fun _ => by decide
  | cons frame below =>
    cases frame with
    | text => exact .nothing (by decide) (by decide) fun _ => by simp [place]
    | interpolation n =>
      cases n with
      | zero => exact .closeInterpolation below
      | succ n => exact .closeBrace n below

/-- **Every kind of token changes the frames in one of the ways of `Changes`.** -/
theorem changes_afterToken (frames : TemplateStack) (k : TokenKind) :
    Changes k frames (frames.afterToken k) := by
  unfold afterToken
  split
  · exact changes_quote frames
  · exact .openInterpolation frames
  · exact changes_openBrace frames
  · exact changes_closeBrace frames
  · next hquote hmark hopen hclose =>
    exact .nothing hquote hmark (by rintro (rfl | rfl) <;> contradiction)

section

variable {k : TokenKind} {frames frames' below : TemplateStack} {frame : TemplateFrame}

/-- A frame after a token has just been put on all the others, or one of its sort stood there. -/
theorem Changes.stands (h : Changes k frames frames') (hs : frame :: below <:+ frames') :
    (below = frames ∧ frames' = frame :: frames) ∨
      ∃ former, (former = .text ↔ frame = .text) ∧ former :: below <:+ frames := by
  cases h with
  | openText | openInterpolation =>
    rcases List.suffix_cons_iff.mp hs with heq | hs
    · obtain ⟨rfl, rfl⟩ := List.cons.inj heq
      exact .inl ⟨rfl, rfl⟩
    · exact .inr ⟨frame, .rfl, hs⟩
  | closeText | closeInterpolation =>
    exact .inr ⟨frame, .rfl, hs.trans (List.suffix_cons _ _)⟩
  | openBrace | closeBrace =>
    rcases List.suffix_cons_iff.mp hs with heq | hs
    · -- the braces of an interpolation do not make it another one
      obtain ⟨rfl, rfl⟩ := List.cons.inj heq
      exact .inr ⟨_, by simp, List.suffix_rfl⟩
    · exact .inr ⟨frame, .rfl, hs.trans (List.suffix_cons _ _)⟩
  | nothing => exact .inr ⟨frame, .rfl, hs⟩

/-- Template text is opened outside template text only. -/
theorem Changes.place_of_text (h : Changes k frames (.text :: frames)) :
    frames.place ≠ .templateText := by
  cases h with
  | openText place => exact place

/-- Only the start of one puts an interpolation on the frames. -/
theorem Changes.kind_of_interpolation {n : Nat}
    (h : Changes k frames (.interpolation n :: frames)) : k = .interpolationStart := by
  cases h with
  | openInterpolation => rfl

/-- An opening brace counts up. -/
theorem Changes.eq_of_openBrace {n : Nat}
    (h : Changes (.punctuation .openBrace) (.interpolation n :: below) frames') :
    frames' = .interpolation (n + 1) :: below := by
  cases h with
  | openBrace => rfl
  | nothing _ _ brace => exact absurd rfl (brace (.inl rfl))

/-- A closing brace ends an interpolation without open braces, and counts down elsewhere. -/
theorem Changes.eq_of_closeBrace {n : Nat}
    (h : Changes (.punctuation .closeBrace) (.interpolation n :: below) frames') :
    (n = 0 ∧ frames' = below) ∨ (0 < n ∧ frames' = .interpolation (n - 1) :: below) := by
  cases h with
  | closeInterpolation => exact .inl ⟨rfl, rfl⟩
  | closeBrace n => exact .inr ⟨Nat.succ_pos n, rfl⟩
  | nothing _ _ brace => exact absurd rfl (brace (.inr rfl))

end

/-! ## Frames that alternate -/

/-- Template text at the bottom, and no two frames of a sort on each other. -/
structure Alternates (frames : TemplateStack) : Prop where
  bottom : ∀ frame, frames.getLast? = some frame → frame = .text
  texts : ∀ below, ¬.text :: .text :: below <:+ frames
  interpolations : ∀ m n below, ¬.interpolation m :: .interpolation n :: below <:+ frames

/-- Template text does not stand on template text. -/
def TextsApart (frames : TemplateStack) : Prop :=
  ∀ below : TemplateStack, .text :: below <:+ frames → below.place ≠ .templateText

theorem Changes.textsApart {k : TokenKind} {frames frames' : TemplateStack}
    (h : Changes k frames frames') (hs : frames.TextsApart) : frames'.TextsApart := by
  intro below hbelow
  rcases h.stands hbelow with ⟨rfl, rfl⟩ | ⟨former, hformer, hsuffix⟩
  · exact h.place_of_text
  · obtain rfl := hformer.mpr rfl
    exact hs below hsuffix

/-- **Where texts are apart, frames alternate if every interpolation stands on template text.** -/
theorem TextsApart.alternates_iff {frames : TemplateStack} (h : frames.TextsApart) :
    frames.Alternates ↔
      ∀ n (below : TemplateStack), .interpolation n :: below <:+ frames →
        below.place = .templateText := by
  constructor
  · intro halt n below hsuffix
    cases below with
    | nil =>
      obtain ⟨above, rfl⟩ := hsuffix
      exact absurd (halt.bottom _ List.getLast?_concat) (by simp)
    | cons frame below =>
      cases frame with
      | text => rfl
      | interpolation m => exact absurd hsuffix (halt.interpolations n m below)
  · intro hplace
    refine ⟨?_, ?_, ?_⟩
    · intro frame hlast
      obtain ⟨above, rfl⟩ := List.getLast?_eq_some_iff.mp hlast
      cases frame with
      | text => rfl
      | interpolation n => exact absurd (hplace n [] ⟨above, rfl⟩) (by decide)
    · intro below hsuffix
      exact h _ hsuffix rfl
    · intro m n below hsuffix
      exact absurd (hplace m _ hsuffix) (by simp [place])

end TemplateStack

namespace Scanner

open TemplateStack

/-! ## Calls -/

section

variable {s s' : Scanner}

/-- A call that gives a token changes the frames by its kind. -/
theorem changes_of_next {t : Token} (h : s.next = (.ok t, s')) :
    Changes t.kind s.frames s'.frames := by
  obtain ⟨blanks, lexeme, ht⟩ := takes_of_next h
  rw [ht.frames]
  exact changes_afterToken s.frames t.kind

/-- A call that fails leaves the frames. -/
theorem frames_of_next {d : Diagnostic} (h : s.next = (.error d, s')) : s'.frames = s.frames := by
  obtain ⟨blanks, passed, fault, hf⟩ := fails_of_next h
  rw [hf.after]
  rfl

/-- A token changes the frames, an error leaves them. -/
theorem next_changes (s : Scanner) :
    (∃ t, s.next = (.ok t, s.next.2) ∧ Changes t.kind s.frames s.next.2.frames) ∨
      s.next.2.frames = s.frames := by
  rcases hnext : s.next with ⟨d | t, s'⟩
  · exact .inr (frames_of_next hnext)
  · exact .inl ⟨t, rfl, changes_of_next hnext⟩

end

/--
The interpolation that stands on the frames `below` after `n` calls was marked by call `k`.

Calls are counted from zero. The interpolation has been open since.
-/
structure Marked (s : Scanner) (n : Nat) (below : TemplateStack) (k : Nat) : Prop where
  before : k < n
  mark : ∃ t s', (s.after k).next = (.ok t, s') ∧ t.kind = .interpolationStart
  frames : (s.after k).frames = below
  since : ∀ m, k < m → m ≤ n → ∃ j, .interpolation j :: below <:+ (s.after m).frames

section

variable {s : Scanner} {n k l : Nat} {below : TemplateStack}

theorem Marked.not_lt (h : s.Marked n below k) (h' : s.Marked n below l) : ¬k < l := by
  intro hlt
  -- the later call would have found the interpolation that it opens
  obtain ⟨j, hj⟩ := h.since l hlt (Nat.le_of_lt h'.before)
  have hlen := hj.length_le
  rw [h'.frames, List.length_cons] at hlen
  omega

/-- At most one call has marked an interpolation. -/
theorem Marked.unique (h : s.Marked n below k) (h' : s.Marked n below l) : k = l :=
  Nat.le_antisymm (Nat.not_lt.mp (h'.not_lt h)) (Nat.not_lt.mp (h.not_lt h'))

/-- A frame that is still there was put there by the same call. -/
theorem Marked.succ {j : Nat} (h : s.Marked n below k)
    (hs : .interpolation j :: below <:+ (s.after (n + 1)).frames) : s.Marked (n + 1) below k where
  before := Nat.lt_succ_of_lt h.before
  mark := h.mark
  frames := h.frames
  since m hkm hmn := by
    rcases Nat.le_succ_iff.mp hmn with hmn | rfl
    · exact h.since m hkm hmn
    · exact ⟨j, hs⟩

/-- Texts are apart after any number of calls. -/
theorem textsApart_after (h : s.frames = []) (n : Nat) : (s.after n).frames.TextsApart := by
  induction n with
  | zero =>
    intro below hbelow
    rw [after, h] at hbelow
    exact absurd (List.suffix_nil.mp hbelow) (by simp)
  | succ n ih =>
    rw [after_succ]
    rcases (s.after n).next_changes with ⟨t, -, hchanges⟩ | hframes
    · exact hchanges.textsApart ih
    · rw [hframes]
      exact ih

/-- **An open interpolation was marked by some call, and has been open ever since.** -/
theorem exists_marked (h : s.frames = []) {j : Nat}
    (hs : .interpolation j :: below <:+ (s.after n).frames) : ∃ k, s.Marked n below k := by
  induction n generalizing j with
  | zero =>
    rw [after, h] at hs
    exact absurd (List.suffix_nil.mp hs) (by simp)
  | succ n ih =>
    have hnow := hs
    rw [after_succ] at hnow
    rcases (s.after n).next_changes with ⟨t, hnext, hchanges⟩ | hframes
    · rcases hchanges.stands hnow with ⟨rfl, hopened⟩ | ⟨former, hformer, hbefore⟩
      · -- this very call has marked it
        rw [hopened] at hchanges
        refine ⟨n, Nat.lt_succ_self n, ⟨t, _, hnext, hchanges.kind_of_interpolation⟩, rfl, ?_⟩
        intro m hnm hmn
        obtain rfl := Nat.le_antisymm hmn hnm
        exact ⟨j, hs⟩
      · cases former with
        | text => exact absurd (hformer.mp rfl) (by simp)
        | interpolation i =>
          obtain ⟨k, hk⟩ := ih hbefore
          exact ⟨k, hk.succ hs⟩
    · rw [hframes] at hnow
      obtain ⟨k, hk⟩ := ih hnow
      exact ⟨k, hk.succ hs⟩

end

/-- How the frames stand on each other after `n` calls. -/
structure Stacked (s : Scanner) (n : Nat) : Prop where
  texts : ∀ below, ¬.text :: .text :: below <:+ (s.after n).frames
  /-- An interpolation stands on the frames in which its mark was read. -/
  marked : ∀ j below, .interpolation j :: below <:+ (s.after n).frames → ∃! k, s.Marked n below k
  /-- The frames alternate exactly if all that is open was marked in template text. -/
  alternates_iff : (s.after n).frames.Alternates ↔
    ∀ below k, s.Marked n below k → (s.after k).frames.place = .templateText
  /-- The brace that ends an interpolation leads back to where its mark was read. -/
  ended : ∀ below t s', (s.after n).frames = .interpolation 0 :: below →
    (s.after n).next = (.ok t, s') → t.kind = .punctuation .closeBrace →
      ∃ k, s.Marked n below k ∧ s'.frames = (s.after k).frames

/--
**Wherever calls have led, interpolations stand on the frames in which they were marked.**

The frames alternate exactly if all these marks stood in template text.
-/
theorem after_stacked (source : String) (options : ScannerOptions) (n : Nat) :
    (ofText source options).Stacked n := by
  have hstart : (ofText source options).frames = [] := rfl
  generalize ofText source options = s at hstart
  have hapart := textsApart_after hstart n
  refine ⟨?_, ?_, ?_, ?_⟩
  · intro below hsuffix
    exact hapart _ hsuffix rfl
  · intro j below hsuffix
    obtain ⟨k, hk⟩ := exists_marked hstart hsuffix
    refine ⟨k, hk, ?_⟩
    intro l hl
    exact hl.unique hk
  · rw [hapart.alternates_iff]
    constructor
    · intro hplace below k hk
      obtain ⟨j, hj⟩ := hk.since n hk.before (Nat.le_refl n)
      rw [hk.frames]
      exact hplace j below hj
    · intro hplace j below hsuffix
      obtain ⟨k, hk⟩ := exists_marked hstart hsuffix
      rw [← hk.frames]
      exact hplace below k hk
  · intro below t s' hframes hnext hkind
    have hsuffix : .interpolation 0 :: below <:+ (s.after n).frames := ⟨[], hframes.symm⟩
    obtain ⟨k, hk⟩ := exists_marked hstart hsuffix
    have hchanges := changes_of_next hnext
    rw [hframes, hkind] at hchanges
    rcases hchanges.eq_of_closeBrace with ⟨-, hbelow⟩ | ⟨hpos, -⟩
    · exact ⟨k, hk, hbelow.trans hk.frames.symm⟩
    · exact absurd hpos (Nat.lt_irrefl 0)

/-- In code, marks put interpolations at the bottom and on each other, and a brace leads back. -/
theorem not_alternates_in_code :
    ((ofText r"${${}x").after 2).frames = [.interpolation 0, .interpolation 0] ∧
      ¬((ofText r"${${}x").after 2).frames.Alternates ∧
      ((ofText r"${${}x").after 2).next.1.toOption.map Token.kind
        = some (.punctuation .closeBrace) ∧
      ((ofText r"${${}x").after 3).frames.place = .interpolation := by
  have hframes : ((ofText r"${${}x").after 2).frames
      = [.interpolation 0, .interpolation 0] := by decide +kernel
  refine ⟨hframes, ?_, by decide +kernel, by decide +kernel⟩
  intro halternates
  rw [hframes] at halternates
  exact absurd (halternates.bottom _ rfl) (by decide)

end Scanner

end Lexis
