import Lexis.Proofs.EndOfInput
import Lexis.Proofs.NestingGrammar
import Lexis.Proofs.TemplateText

/-!
# Templates, interpolations and braces nest

The frames of a scanner are those that its tokens have opened (`Run.nested`), so the kinds of the
tokens of a whole scan are derived from the grammar of nesting, and those before an error can be
completed to such a row (`scan_nested`). The lexical side of this is what template text admits: a
fragment that is not empty and that ends where the template or the next interpolation is marked, or
one of these marks.
-/

namespace Lexis

open Nesting

/-! ## Fragments stand in template text only -/

namespace Lexeme

/-- A literal has the kind it was read for. -/
theorem kind_of_quoted {kind : TokenKind} {form : TextForm} {gs : List Cluster} {x : Lexeme}
    (h : quoted kind form gs = .ok x) : x.kind = kind := by
  unfold quoted at h
  split at h
  · simp at h
  · obtain rfl := Except.ok.inj h
    rfl

theorem kind_of_number {first : Cluster} {gs : List Cluster} {x : Lexeme}
    (h : number first gs = .ok x) : ∃ form, x.kind = .number form := by
  unfold number at h
  split at h
  · simp at h
  · obtain rfl := Except.ok.inj h
    exact ⟨_, rfl⟩

/-- A word is no fragment. -/
theorem kind_of_identifier (gs : List Cluster) : (identifier gs).kind ≠ .templateFragment := by
  unfold identifier TokenKind.ofKeyword?
  simp only
  cases Keyword.ofSpelling? _ <;> simp

/-- Code has no template fragments. -/
theorem kind_of_readCode {place : Place} {gs : List Cluster} {x : Lexeme}
    (h : readCode place gs = .ok x) : x.kind ≠ .templateFragment := by
  cases gs with
  | nil => simp [readCode] at h
  | cons g rest =>
    rw [readCode] at h
    generalize Opening.of g rest = opening at h
    cases opening with
    | rune => simp [kind_of_quoted h]
    | string => simp [kind_of_quoted h]
    | number =>
      obtain ⟨form, hf⟩ := kind_of_number h
      simp [hf]
    | word =>
      obtain rfl := Except.ok.inj h
      exact kind_of_identifier _
    | stray => simp at h
    | _ =>
      obtain rfl := Except.ok.inj h
      simp [comment, punctuation]

end Lexeme

namespace Scanner

/-! ## One token -/

section

variable {s s' : Scanner} {t : Token} {blanks lexeme : List Cluster}

/-- A fragment is taken in template text, up to what ends it. -/
theorem Takes.fragment (h : s.Takes blanks lexeme t s') (hk : t.kind = .templateFragment) :
    s.frames.place = .templateText ∧ t.text ≠ "" ∧ ¬EndsText s.cursor.ahead ∧
      EndsText s'.cursor.ahead := by
  have hread := h.read
  cases hp : s.frames.place with
  | templateText =>
    have hblanks : blanks = [] := h.blanksIn.symm.trans (blanksIn_templateText hp _)
    have hahead : s.cursor.ahead = lexeme ++ s'.cursor.ahead := by
      rw [h.ahead, hblanks, List.nil_append]
    rw [hp, ← hahead] at hread
    rcases Lexeme.read_templateText (fun g hg => Cursor.ne_nil_of_mem_ahead hg) hread with
      ⟨-, hfragment⟩ | hq | hi
    · exact ⟨rfl, hfragment⟩
    · exact absurd (hk.symm.trans hq) (by decide)
    · exact absurd (hk.symm.trans hi) (by decide)
  | code =>
    rw [hp] at hread
    exact absurd hk (Lexeme.kind_of_readCode hread)
  | interpolation =>
    rw [hp] at hread
    exact absurd hk (Lexeme.kind_of_readCode hread)

/-- In template text there are fragments, quotes, and starts of interpolations. -/
theorem Takes.templateText (h : s.Takes blanks lexeme t s')
    (hp : s.frames.place = .templateText) :
    t.kind = .templateFragment ∨ t.kind = .templateQuote ∨ t.kind = .interpolationStart := by
  have hread := h.read
  rw [hp] at hread
  exact (Lexeme.read_templateText h.chars_ne_nil hread).imp_left And.left

end

/-! ## Runs -/

/-- The frames are those that the kinds have opened, and a fragment just read is at its end. -/
structure Nested (s : Scanner) (ks : List TokenKind) : Prop where
  within : Within s.frames ks
  ended : ks.getLast? = some .templateFragment → EndsText s.cursor.ahead

/-- Before the first token nothing is open. -/
theorem nested_ofText (source : String) (options : ScannerOptions) :
    (ofText source options).Nested [] where
  within := .code .topNil
  ended h := by simp at h

/-- A token keeps what is open in step with the kinds so far. -/
theorem Takes.nested {s s' : Scanner} {t : Token} {blanks lexeme : List Cluster}
    {ks : List TokenKind} (h : s.Takes blanks lexeme t s') (hs : s.Nested ks) :
    s'.Nested (ks ++ [t.kind]) where
  within := by
    rw [h.frames]
    refine hs.within.afterToken ?_ h.templateText
    -- a fragment that follows a fragment would stand where the text has ended
    intro hk
    obtain ⟨hp, -, hopen, -⟩ := h.fragment hk
    exact ⟨hp, fun hlast => hopen (hs.ended hlast)⟩
  ended hlast := by
    rw [List.getLast?_append, List.getLast?_singleton] at hlast
    exact (h.fragment (Option.some.inj hlast)).2.2.2

/-- **Along a run the frames are those that its tokens have opened.** -/
theorem Run.nested {s s' : Scanner} {ts : List Token} {ks : List TokenKind} (h : Run s ts s')
    (hs : s.Nested ks) : s'.Nested (ks ++ ts.map Token.kind) := by
  induction h generalizing ks with
  | nil s => simpa using hs
  | @cons s u s' t ts hnext _ ih =>
    obtain ⟨blanks, lexeme, ht⟩ := takes_of_next hnext
    have hu := ih (ht.nested hs)
    rwa [List.append_assoc] at hu

/-- Tokens that nest: in each case the kinds before a token say what encloses it. -/
structure WellNested (ts : List Token) : Prop where
  /-- The kinds are the front of a row that the grammar derives. -/
  complete : ∃ more, Derives .top (ts.map Token.kind ++ more)
  /-- A fragment is not empty, not followed by another, and stands in the text of a template. -/
  fragment : ∀ front t back, ts = front ++ t :: back → t.kind = .templateFragment →
    t.text ≠ "" ∧ back.head?.map Token.kind ≠ some .templateFragment ∧
      ∃ outer text, front.map Token.kind = outer ++ .templateQuote :: text ∧
        (framesAfter [] outer).place ≠ .templateText ∧ Derives .text text
  /-- A brace that ends an interpolation matches its mark. -/
  brace : ∀ front t back frames, ts = front ++ t :: back → t.kind = .punctuation .closeBrace →
    framesAfter [] (front.map Token.kind) = .interpolation 0 :: frames →
      ∃ outer body, front.map Token.kind = outer ++ .interpolationStart :: body ∧
        framesAfter [] outer = frames ∧ Derives .body body

/-- What a run from the front gives is well nested. -/
theorem Run.wellNested {s s' : Scanner} {ts : List Token} (h : Run s ts s') (hs : s.Nested []) :
    WellNested ts where
  complete := (h.nested hs).within.complete
  fragment front t back hsplit hk := by
    -- the run is split before the fragment
    subst hsplit
    obtain ⟨u, hfront, hback⟩ := h.split
    have hu := hfront.nested hs
    rw [List.nil_append] at hu
    cases hback with
    | @cons _ v _ _ _ hnext hrest =>
      obtain ⟨blanks, lexeme, ht⟩ := takes_of_next hnext
      obtain ⟨hp, hne, hopen, hend⟩ := ht.fragment hk
      refine ⟨hne, ?_, ?_⟩
      · -- the next token would be read where the text ends
        cases hrest with
        | nil => simp
        | cons hnext' _ =>
          obtain ⟨_, _, ht'⟩ := takes_of_next hnext'
          intro hhead
          exact (ht'.fragment (Option.some.inj hhead)).2.2.1 hend
      · have hwithin := hu.within
        cases hframes : u.frames with
        | nil => simp [hframes, TemplateStack.place] at hp
        | cons frame frames =>
          cases frame with
          | interpolation n => simp [hframes, TemplateStack.place] at hp
          | text =>
            rw [hframes] at hwithin
            obtain ⟨outer, text, hks, around, hplace, htext⟩ :=
              hwithin.of_text fun hlast => hopen (hu.ended hlast)
            refine ⟨outer, text, hks, ?_, htext⟩
            rwa [around.framesAfter_eq]
  brace front t back frames hsplit hk hframes := by
    subst hsplit
    obtain ⟨u, hfront, -⟩ := h.split
    have hwithin := (hfront.nested hs).within
    rw [List.nil_append] at hwithin
    rw [hwithin.framesAfter_eq] at hframes
    rw [hframes] at hwithin
    obtain ⟨outer, body, hks, around, hbody⟩ := hwithin.of_interpolation
    exact ⟨outer, body, hks, around.framesAfter_eq, hbody⟩

/--
**The tokens of every scan nest, and without an error the grammar derives their kinds.**
-/
theorem scan_nested (source : String) (options : ScannerOptions) :
    WellNested (scan source options).tokens ∧
      ((scan source options).error = none →
        Derives .top ((scan source options).tokens.map Token.kind)) := by
  obtain ⟨s', d, s'', hrun, hd, herror, -⟩ := exists_run_scan source options
  have hstart := nested_ofText source options
  refine ⟨hrun.wellNested hstart, ?_⟩
  intro hnone
  obtain ⟨hframes, -⟩ := ends_of_error_none hd (herror.symm.trans hnone)
  have hwithin := (hrun.nested hstart).within
  rw [hframes, List.nil_append] at hwithin
  cases hwithin with
  | code top => exact top

end Scanner

end Lexis
