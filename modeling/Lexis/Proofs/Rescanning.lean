import Lexis.Proofs.Following
import Lexis.Proofs.Nesting
import Lexis.Proofs.Partition
import Lexis.Proofs.TextWriting

/-!
# Tokens scan to themselves

The text of a token, taken as a source of its own, has that token and nothing else (`scan_text`),
unless it is decoded content or belongs to a template. Nothing of what stood around the token has
counted: its clusters are cut alike where they stand alone, and nothing is seen behind them. A number
is not read from its text but from clusters that may have more zeros in front; without these they are
the same number.
-/

namespace Lexis

/-- Kinds whose tokens are written as their text: it is not decoded, and no part of a template. -/
def TokenKind.standsAlone : TokenKind → Bool
  | .rune | .string | .templateQuote | .templateFragment | .interpolationStart => false
  | _ => true

/-! ## Zeros in front of a number -/

namespace Number

variable {first : Cluster} {gs : List Cluster} {form : NumberForm} {text : String}

theorem textOf_of_afterHead {radix : Radix} {integer : NumberForm} {head : List Char}
    (h : afterHead radix integer head gs = .ok ⟨form, text, []⟩) :
    text = Cluster.textOf (head.map .ofChar ++ gs) := by
  obtain ⟨cs, rfl, htext⟩ := afterHead_text h
  rw [show text = _ from htext, List.append_nil, ← List.map_append, Cluster.textOf,
    Cluster.charsOf_map_ofChar]

/-- **A number is read again from the clusters that its text has**, the last of those it was. -/
theorem read_again (hfirst : first.isDecimalDigit = true)
    (h : read first gs = .ok ⟨form, text, []⟩) :
    ∃ gs', first :: gs' <:+ first :: gs ∧ text = Cluster.textOf (first :: gs') ∧
      read first gs' = .ok ⟨form, text, []⟩ := by
  obtain ⟨d, rfl, -⟩ := Cluster.eq_ofChar_of_isOne hfirst
  by_cases hzero : d = '0'
  · subst hzero
    have hread : afterZero gs = .ok ⟨form, text, []⟩ := h
    rcases afterZero_ok_iff.mp hread with
      ⟨marker, radix, tail, rfl, -, htail⟩ | ⟨n, after, rfl, hstop, -, hmarker, hafter⟩
    · exact ⟨_, List.suffix_refl _, textOf_of_afterHead htail, h⟩
    · -- the zeros that are not written are those before the last
      refine ⟨after, ⟨(List.replicate n '0').map .ofChar, ?_⟩, textOf_of_afterHead hafter, ?_⟩
      · rw [← List.cons_append, ← List.map_cons, ← List.replicate_succ, List.replicate_succ',
          List.map_append, List.append_assoc]
        rfl
      · exact afterZero_ok_iff.mpr (.inr ⟨0, after, rfl, hstop, fun hn => absurd rfl hn, hmarker,
          hafter⟩)
  · have hread : afterHead .decimal .decimalInteger [d] gs = .ok ⟨form, text, []⟩ := by
      rwa [read, if_neg (by simpa using hzero)] at h
    exact ⟨gs, List.suffix_refl _, textOf_of_afterHead hread, h⟩

end Number

/-! ## A lexeme alone -/

section

variable {g : Cluster} {gs rest lexeme : List Cluster} {place : Place} {kind : TokenKind}
  {text : String}

/-- No token of code begins with a blank. -/
theorem Opening.of_blank (h : g.isBlank = true) (rest : List Cluster) : of g rest = .stray := by
  rcases eq_of_isBlank h with rfl | rfl | rfl <;> rfl

theorem Spells.eq_textOf (h : Spells kind lexeme text) (hkind : kind.standsAlone = true)
    (hnumber : kind.isNumber = false) : text = Cluster.textOf lexeme := by
  cases kind with
  | number => exact absurd hnumber (by simp [TokenKind.isNumber])
  | rune | string | templateFragment => exact absurd hkind (by decide)
  | _ => exact h

namespace Lexeme

theorem isBlank_of_readCode {x : Lexeme} (h : readCode place (g :: gs) = .ok x) :
    g.isBlank = false := by
  refine Bool.eq_false_iff.mpr fun hblank => ?_
  rw [readCode, Opening.of_blank hblank] at h
  simp at h

/-- Only what is said at the end of the input depends on the place. -/
theorem readCode_place {x : Lexeme} (h : readCode place gs = .ok x) (place' : Place) :
    readCode place' gs = .ok x := by
  cases gs with
  | nil => simp [readCode] at h
  | cons g gs => exact h

theorem isNumber_identifier (gs : List Cluster) : (identifier gs).kind.isNumber = false := by
  unfold identifier TokenKind.ofKeyword?
  simp only
  cases Keyword.ofSpelling? _ <;> rfl

/-- The kind of a number is given where a digit is ahead. -/
theorem number_of_readCode {x : Lexeme} (h : readCode place gs = .ok x)
    (hkind : x.kind.isNumber = true) :
    ∃ first rest, gs = first :: rest ∧ first.isDecimalDigit = true ∧ number first rest = .ok x := by
  cases gs with
  | nil => simp [readCode] at h
  | cons g rest =>
    have hfits := Opening.fits g rest
    rw [readCode] at h
    generalize Opening.of g rest = opening at h hfits
    cases opening with
    | number => exact ⟨g, rest, rfl, hfits, h⟩
    | rune | string =>
      rw [kind_of_quoted h] at hkind
      exact absurd hkind (by decide)
    | word =>
      obtain rfl := Except.ok.inj h
      exact absurd hkind (by simp [isNumber_identifier])
    | stray => simp at h
    | _ =>
      obtain rfl := Except.ok.inj h
      exact absurd hkind (by simp [TokenKind.isNumber, comment, punctuation])

/-- **What was read as a token of code is read again from the clusters of its text.** -/
theorem readCode_again (h : readCode place lexeme = .ok ⟨kind, text, []⟩)
    (hkind : kind.standsAlone = true) :
    ∃ ls, ls <:+ lexeme ∧ text = Cluster.textOf ls ∧
      readCode place ls = .ok ⟨kind, text, []⟩ := by
  by_cases hnumber : kind.isNumber = true
  · obtain ⟨first, rest, rfl, hfirst, hread⟩ := number_of_readCode h hnumber
    unfold number at hread
    split at hread
    · simp at hread
    · next found hfound =>
      obtain ⟨form, text, left⟩ := found
      obtain ⟨rfl, rfl, rfl⟩ := Lexeme.mk.inj (Except.ok.inj hread)
      obtain ⟨rest', hsuffix, htext, hagain⟩ := Number.read_again hfirst hfound
      refine ⟨first :: rest', hsuffix, htext, ?_⟩
      rw [readCode, Opening.of_digit hfirst, number, hagain]
  · obtain ⟨ls, hls, hspells⟩ := readCode_spells h
    obtain rfl : lexeme = ls := hls.trans (List.append_nil ls)
    exact ⟨lexeme, List.suffix_refl _, hspells.eq_textOf hkind (by simpa using hnumber), h⟩

end Lexeme

end

namespace Scanner

section

variable {s s' : Scanner} {t : Token} {blanks lexeme : List Cluster}

/-- A token that stands alone was read in code. -/
theorem Takes.place_ne (h : s.Takes blanks lexeme t s') (hkind : t.kind.standsAlone = true) :
    s.frames.place ≠ .templateText := by
  intro hplace
  rcases h.templateText hplace with hk | hk | hk
  · exact absurd hkind (by rw [hk]; decide)
  · exact absurd hkind (by rw [hk]; decide)
  · exact absurd hkind (by rw [hk]; decide)

/-- The clusters of a lexeme are cut alike where they stand alone. -/
theorem Takes.clusters_of_suffix (h : s.Takes blanks lexeme t s') {ls : List Cluster}
    (hls : ls <:+ lexeme) : Text.clusters (Cluster.charsOf ls) = ls := by
  obtain ⟨front, rfl⟩ := hls
  have hsuffix : ls ++ s'.cursor.ahead <:+ Text.clusters s.cursor.charsAhead := by
    refine ⟨blanks ++ front, ?_⟩
    rw [show Text.clusters s.cursor.charsAhead = _ from h.ahead]
    simp only [List.append_assoc]
  have hfront : ls <+: Text.clusters (Cluster.charsOf (ls ++ s'.cursor.ahead)) := by
    rw [Text.clusters_of_suffix hsuffix]
    exact List.prefix_append _ _
  exact Text.clusters_of_front hfront

end

/-- A token of code that stands alone leaves no frames open where none were. -/
theorem afterToken_nil {kind : TokenKind} (h : kind.standsAlone = true) :
    TemplateStack.afterToken [] kind = [] := by
  cases kind with
  | templateQuote | interpolationStart => exact absurd h (by decide)
  | punctuation p => cases p <;> rfl
  | _ => rfl

/-- A text whose clusters are one lexeme has one token. -/
theorem scan_lexeme {text : String} {kind : TokenKind}
    (hread : Lexeme.readCode .code (Text.clusters text.toList) = .ok ⟨kind, text, []⟩)
    (hkind : kind.standsAlone = true) (options : ScannerOptions) :
    scan text options = ⟨[⟨kind, .start, text⟩], none, []⟩ := by
  have hahead : (ofText text options).cursor.ahead = Text.clusters text.toList :=
    Cursor.ahead_ofText text
  have hblanks : (ofText text options).blanksIn (ofText text options).cursor.ahead = [] := by
    cases hclusters : Text.clusters text.toList with
    | nil =>
      rw [hahead, hclusters]
      rfl
    | cons g gs =>
      rw [hclusters] at hread hahead
      exact blanksIn_of_head hahead (Lexeme.isBlank_of_readCode hread)
  have hsplit : (ofText text options).cursor.ahead = [] ++ (Text.clusters text.toList ++ []) := by
    rw [hahead, List.append_nil, List.nil_append]
  have ht := takes_of_read hsplit hblanks (by rw [List.append_nil]; exact hread)
  -- no interpolation is opened, so there is nothing to warn of
  have hwarnings : warningsOf options (TemplateStack.afterToken [] kind) kind .start = [] := by
    rw [afterToken_nil hkind, warningsOf, if_neg]
    intro h
    obtain rfl := of_decide_eq_true (Bool.and_eq_true_iff.mp h).1
    exact absurd hkind (by decide)
  exact Ready.scanToEnd ⟨afterToken_nil hkind, ahead_past hsplit kind, hwarnings⟩
    (.cons ht.next (.nil _))

/--
**The text of a token, scanned on its own, gives the token and nothing else.**

The token may come from anywhere in a source; runes, strings, fragments and the marks of templates
are left out, whose text is not what was read or opens a template.
-/
theorem scan_text (source : String) (options : ScannerOptions) (n : Nat) {t : Token} {s' : Scanner}
    (h : ((ofText source options).after n).next = (.ok t, s')) (hkind : t.kind.standsAlone = true)
    (options' : ScannerOptions) :
    scan t.text options' = ⟨[⟨t.kind, .start, t.text⟩], none, []⟩ := by
  obtain ⟨blanks, lexeme, ht⟩ := takes_of_next h
  have hread := ht.read
  rw [Lexeme.read_eq_readCode (ht.place_ne hkind)] at hread
  -- nothing may follow the lexeme just as well
  have hnone : Replaces [] s'.cursor.ahead := .of_nil rfl _
  have halone := Lexeme.readCode_of_replaces hnone (fun _ _ => rfl) hread
  rw [List.append_nil] at halone
  obtain ⟨ls, hsuffix, htext, hagain⟩ :=
    Lexeme.readCode_again (Lexeme.readCode_place halone .code) hkind
  have hclusters : Text.clusters t.text.toList = ls := by
    rw [htext, Cluster.textOf, String.toList_ofList]
    exact ht.clusters_of_suffix hsuffix
  exact scan_lexeme (by rw [hclusters]; exact hagain) hkind options'

/-- A number inside an interpolation loses zeros, and has lost them when it is scanned again. -/
theorem scan_text_zeros : scan "0712" = ⟨[⟨.number .octalInteger, .start, "0712"⟩], none, []⟩ := by
  have hnext : ((ofText r"`${ 000712..").after 2).next
      = (.ok ⟨.number .octalInteger, ⟨4, 1, 5⟩, "0712"⟩,
          (ofText r"`${ 000712..").after 3) := by
    decide +kernel
  exact scan_text _ _ 2 hnext rfl {}

end Scanner

end Lexis
