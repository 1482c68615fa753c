import Lexis.Proofs.Following
import Lexis.Proofs.Nesting
import Lexis.Proofs.Passing

/-!
# The longest match

Which token code gives is said by three tables: the texts of punctuation, the texts of keywords, and
the clusters that identifiers admit. A comment comes first, then the longest fixed text that the
clusters ahead begin with (`LongestFixed`), then a word. The reader decides by cases of its own, on
three clusters at most; that it agrees with the tables is `Scanner.next_munches`.

Each table holds in the other direction too: a kind with a fixed text never carries another one, and
no identifier is written like a keyword (`TokenKind.Admits`). Keywords stand in two tables, one for
writing and one for reading them, which say the same (`TokenKind.ofKeyword?_eq_some_iff`).
-/

namespace Lexis

/-! ## What the clusters begin with -/

/-- The clusters begin with a text, one of them for each of its characters. -/
def BeginsWith (gs : List Cluster) (text : String) : Prop := text.toList.map Cluster.ofChar <+: gs

instance (gs : List Cluster) (text : String) : Decidable (BeginsWith gs text) :=
  inferInstanceAs (Decidable (_ <+: _))

/-- An entry of the table of fixed texts that the clusters begin with. -/
structure FixedAhead (gs : List Cluster) (kind : TokenKind) (text : String) : Prop where
  entry : kind.punctuationText? = some text
  begins : BeginsWith gs text

/-- The entry that is longer than all others that the clusters begin with. -/
structure LongestFixed (gs : List Cluster) (kind : TokenKind) (text : String) : Prop
    extends FixedAhead gs kind text where
  longest : ∀ k x, FixedAhead gs k x → k ≠ kind → x.length < text.length

section

variable {gs tail : List Cluster} {g : Cluster} {kind : TokenKind} {text : String} {p : Punctuator}

/-- Two slashes are told by two clusters. -/
theorem beginsWith_slashes :
    BeginsWith (g :: tail) "//" ↔ (g.is '/' && Cluster.nextIs tail '/') = true := by
  rw [Bool.and_eq_true_iff]
  constructor
  · rintro ⟨rest, hrest⟩
    obtain ⟨rfl, rfl⟩ := List.cons.inj hrest
    exact ⟨rfl, rfl⟩
  · rintro ⟨hg, hnext⟩
    obtain rfl := Cluster.eq_ofChar_of_is hg
    obtain ⟨rest, rfl⟩ := Cluster.eq_cons_of_nextIs hnext
    exact ⟨rest, rfl⟩

/-- A fixed text ahead is a mark, the quote of a template, or the start of an interpolation. -/
theorem FixedAhead.cases (h : FixedAhead gs kind text) :
    (∃ p, kind = .punctuation p ∧ text = p.spelling ∧ p.SpelledBy gs) ∨
      (kind = .templateQuote ∧ text = "`" ∧ ∃ tail, gs = .ofChar '`' :: tail) ∨
      (kind = .interpolationStart ∧ text = r"${" ∧
        ∃ tail, gs = .ofChar '$' :: .ofChar '{' :: tail) := by
  obtain ⟨hentry, hbegins⟩ := h
  cases kind with
  | punctuation p =>
    obtain rfl := Option.some.inj hentry
    exact .inl ⟨p, rfl, rfl, hbegins⟩
  | templateQuote =>
    obtain rfl := Option.some.inj hentry
    obtain ⟨rest, rfl⟩ := hbegins
    exact .inr (.inl ⟨rfl, rfl, rest, rfl⟩)
  | interpolationStart =>
    obtain rfl := Option.some.inj hentry
    obtain ⟨rest, rfl⟩ := hbegins
    exact .inr (.inr ⟨rfl, rfl, rest, rfl⟩)
  | _ => simp [TokenKind.punctuationText?] at hentry

/-! ## The longest of them -/

/-- Two marks that the same clusters spell are one, if they are equally long. -/
theorem Punctuator.SpelledBy.eq_of_length {q : Punctuator} (hp : p.SpelledBy gs)
    (hq : q.SpelledBy gs) (h : p.spelling.length = q.spelling.length) : p = q := by
  have hlen : p.clusters.length = q.clusters.length := by
    rw [length_clusters, length_clusters, h]
  have hclusters : p.clusters = q.clusters :=
    (List.prefix_of_prefix_length_le hp hq (Nat.le_of_eq hlen)).eq_of_length hlen
  have hread := ahead?_clusters p
  rw [hclusters, ahead?_clusters] at hread
  exact (Option.some.inj hread).symm

theorem longestFixed_mark (h : Punctuator.ahead? gs = some p) :
    LongestFixed gs (.punctuation p) p.spelling where
  entry := rfl
  begins := Punctuator.ahead?_spells h
  longest := by
    intro k x hk hne
    rcases hk.cases with ⟨q, rfl, rfl, hq⟩ | ⟨-, -, rest, rfl⟩ | ⟨-, -, rest, rfl⟩
    · obtain ⟨p', hp', hle⟩ := Punctuator.exists_of_spelledBy hq
      obtain rfl := Option.some.inj (h.symm.trans hp')
      refine Nat.lt_of_le_of_ne hle fun hlen => hne ?_
      rw [hq.eq_of_length (Punctuator.ahead?_spells h) hlen]
    · -- no mark begins with a quote
      exact absurd h (by simp [show Punctuator.ahead? (.ofChar '`' :: rest) = none from rfl])
    · exact absurd h (by
        simp [show Punctuator.ahead? (.ofChar '$' :: .ofChar '{' :: rest) = none from rfl])

theorem longestFixed_quote (tail : List Cluster) :
    LongestFixed (.ofChar '`' :: tail) .templateQuote "`" where
  entry := rfl
  begins := ⟨tail, rfl⟩
  longest := by
    intro k x hk hne
    rcases hk.cases with ⟨q, -, -, hq⟩ | ⟨rfl, -⟩ | ⟨-, -, rest, hrest⟩
    · obtain ⟨p', hp', -⟩ := Punctuator.exists_of_spelledBy hq
      exact absurd hp' (by simp [show Punctuator.ahead? (.ofChar '`' :: tail) = none from rfl])
    · exact absurd rfl hne
    · exact absurd (List.cons.inj hrest).1 (by decide)

theorem longestFixed_interpolation (tail : List Cluster) :
    LongestFixed (.ofChar '$' :: .ofChar '{' :: tail) .interpolationStart r"${" where
  entry := rfl
  begins := ⟨tail, rfl⟩
  longest := by
    intro k x hk hne
    rcases hk.cases with ⟨q, -, -, hq⟩ | ⟨-, -, rest, hrest⟩ | ⟨rfl, -⟩
    · obtain ⟨p', hp', -⟩ := Punctuator.exists_of_spelledBy hq
      exact absurd hp' (by
        simp [show Punctuator.ahead? (.ofChar '$' :: .ofChar '{' :: tail) = none from rfl])
    · exact absurd (List.cons.inj hrest).1 (by decide)
    · exact absurd rfl hne

/-- Where there is a fixed text ahead, one is the longest. -/
theorem FixedAhead.exists_longest (h : FixedAhead gs kind text) : ∃ k x, LongestFixed gs k x := by
  rcases h.cases with ⟨q, -, -, hq⟩ | ⟨-, -, rest, rfl⟩ | ⟨-, -, rest, rfl⟩
  · obtain ⟨p, hp, -⟩ := Punctuator.exists_of_spelledBy hq
    exact ⟨_, _, longestFixed_mark hp⟩
  · exact ⟨_, _, longestFixed_quote rest⟩
  · exact ⟨_, _, longestFixed_interpolation rest⟩

/-- Only one token is the longest. -/
theorem LongestFixed.unique {k : TokenKind} {x : String} (h : LongestFixed gs kind text)
    (h' : LongestFixed gs k x) : k = kind ∧ x = text := by
  by_cases hkind : k = kind
  · subst hkind
    exact ⟨rfl, Option.some.inj (h'.entry.symm.trans h.entry)⟩
  · have hlt := h.longest k x h'.toFixedAhead hkind
    have hgt := h'.longest kind text h.toFixedAhead fun he => hkind he.symm
    exact absurd hlt (Nat.lt_asymm hgt)

end

/-! ## What the reader finds -/

section

variable {g : Cluster} {rest gs : List Cluster} {place : Place} {kind : TokenKind} {text : String}

/-- A mark that is ahead is the opening, unless a comment is. -/
theorem Opening.of_mark {p : Punctuator} (h : Punctuator.ahead? (g :: rest) = some p)
    (hcomment : ¬BeginsWith (g :: rest) "//") : of g rest = .mark p := by
  have hline : ¬g.isLineBreak = true := by
    intro hline
    -- the first cluster belongs to the mark, and those of marks separate nothing
    obtain ⟨k, ks, hclusters⟩ := List.exists_cons_of_length_pos p.length_clusters_pos
    obtain ⟨tail, htail⟩ := Punctuator.ahead?_spells h
    rw [hclusters] at htail
    obtain ⟨rfl, -⟩ := List.cons.inj htail
    have hsep := p.separates_clusters k (by rw [hclusters]; exact List.mem_cons_self)
    rw [Cluster.separates_of_isLineBreak hline] at hsep
    exact absurd hsep (by decide)
  rw [of, if_neg hline, if_neg fun hs => hcomment (beginsWith_slashes.mpr hs), h]

/-- The characters that end identifiers are in none of their parts. -/
theorem Cluster.notMem_of_isIdentifierPart (h : g.isIdentifierPart = true) {c : Char}
    (hc : c ∈ Alphabet.identifierTerminators) : c ∉ g.chars := by
  intro hmem
  have hany : g.chars.any Alphabet.isIdentifierTerminator = true :=
    List.any_eq_true.mpr ⟨c, hmem, List.contains_iff_mem.mpr hc⟩
  rw [isIdentifierPart, hany, Bool.not_true, Bool.and_false] at h
  exact absurd h Bool.false_ne_true

/-- An identifier part begins a word, unless it is a digit or begins a fixed text. -/
theorem Opening.of_word (hcomment : ¬BeginsWith (g :: rest) "//")
    (hfixed : ¬∃ k x, FixedAhead (g :: rest) k x) (hpart : g.isIdentifierPart = true)
    (hdigit : g.isDecimalDigit = false) : of g rest = .word := by
  have hfits := Opening.fits g rest
  -- every other opening begins with a character that ends identifiers, or with a fixed text
  have hnone : ∀ {c}, c ∈ Alphabet.identifierTerminators → c ∉ g.chars :=
    Cluster.notMem_of_isIdentifierPart hpart
  generalize of g rest = opening at hfits
  cases opening with
  | lineBreak =>
    refine absurd ?_ (hnone (show '\n' ∈ _ by decide))
    rcases Bool.or_eq_true_iff.mp hfits with hchars | hchars
    · simp [show g.chars = ['\n'] by simpa using hchars]
    · simp [show g.chars = ['\r', '\n'] by simpa using hchars]
  | comment =>
    exact absurd (beginsWith_slashes.mpr (Bool.and_eq_true_iff.mpr hfits)) hcomment
  | mark p => exact absurd ⟨_, _, (longestFixed_mark hfits).toFixedAhead⟩ hfixed
  | templateQuote =>
    obtain rfl := Cluster.eq_ofChar_of_is hfits
    exact absurd ⟨_, _, (longestFixed_quote rest).toFixedAhead⟩ hfixed
  | interpolation =>
    obtain ⟨hg, hnext⟩ := hfits
    obtain rfl := Cluster.eq_ofChar_of_is hg
    obtain ⟨tail, rfl⟩ := Cluster.eq_cons_of_nextIs hnext
    exact absurd ⟨_, _, (longestFixed_interpolation tail).toFixedAhead⟩ hfixed
  | rune =>
    obtain rfl := Cluster.eq_ofChar_of_is hfits
    exact absurd List.mem_cons_self (hnone (by decide))
  | string =>
    obtain rfl := Cluster.eq_ofChar_of_is hfits
    exact absurd List.mem_cons_self (hnone (by decide))
  | number => exact absurd (hdigit.symm.trans hfits) Bool.false_ne_true
  | word => rfl
  | stray => exact absurd (hpart.symm.trans hfits) (Ne.symm Bool.false_ne_true)

namespace Lexeme

/-- **The longest fixed text ahead is read, unless a comment starts there.** -/
theorem readCode_of_longest (hcomment : ¬BeginsWith gs "//") (h : LongestFixed gs kind text) :
    ∃ rest, gs = text.toList.map .ofChar ++ rest ∧
      readCode place gs = .ok ⟨kind, text, rest⟩ := by
  rcases h.toFixedAhead.cases with
    ⟨q, -, -, hq⟩ | ⟨rfl, rfl, tail, rfl⟩ | ⟨rfl, rfl, tail, rfl⟩
  · obtain ⟨p, hp, -⟩ := Punctuator.exists_of_spelledBy hq
    obtain ⟨rfl, rfl⟩ := (longestFixed_mark hp).unique h
    obtain ⟨rest, rfl⟩ := Punctuator.ahead?_spells hp
    refine ⟨rest, rfl, ?_⟩
    obtain ⟨g, gs, hgs⟩ := List.exists_cons_of_length_pos p.length_clusters_pos
    rw [hgs, List.cons_append] at hp hcomment ⊢
    rw [readCode, Opening.of_mark hp hcomment]
    simp only [punctuation]
    rw [← List.cons_append, ← hgs, List.drop_left' p.length_clusters]
  · exact ⟨tail, rfl, rfl⟩
  · exact ⟨tail, rfl, rfl⟩

theorem readCode_of_slashes (h : BeginsWith gs "//") : readCode place gs = .ok (comment gs) := by
  obtain ⟨rest, rfl⟩ := h
  rfl

/-- Template text gives fragments, and what code gives. -/
theorem fragment_or_readCode {x : Lexeme} (h : read place gs = .ok x) :
    x.kind = .templateFragment ∨ readCode place gs = .ok x := by
  unfold read at h
  split at h
  · split at h
    · simp at h
    · split at h
      · exact .inr h
      · obtain rfl := Except.ok.inj h
        exact .inl rfl
  · exact .inr h

end Lexeme

end

/-! ## The tables the other way round -/

/-- A kind and a text that the tables allow together. -/
structure TokenKind.Admits (kind : TokenKind) (text : String) : Prop where
  punctuation : ∀ x, kind.punctuationText? = some x → text = x
  keyword : ∀ x, kind.keywordText? = some x → text = x
  /-- An identifier is not written like a keyword. -/
  identifier : kind = .identifier → ∀ w : Keyword, text ≠ w.spelling

/-- A kind in neither table admits every text. -/
theorem TokenKind.admits_of_free {kind : TokenKind} (hpunctuation : kind.punctuationText? = none)
    (hkeyword : kind.keywordText? = none) (hkind : kind ≠ .identifier) (text : String) :
    kind.Admits text where
  punctuation x hx := by simp [hpunctuation] at hx
  keyword x hx := by simp [hkeyword] at hx
  identifier h := absurd h hkind

namespace Lexeme

/-- A word that no keyword is written as is an identifier, and any other is that keyword. -/
theorem admits_identifier (gs : List Cluster) :
    (identifier gs).kind.Admits (identifier gs).text := by
  unfold identifier TokenKind.ofKeyword?
  simp only
  generalize Cluster.textOf (gs.takeWhile (·.isIdentifierPart)) = text
  cases hw : Keyword.ofSpelling? text with
  | none =>
    exact
      { punctuation := by simp [TokenKind.punctuationText?]
        keyword := by simp [TokenKind.keywordText?]
        identifier := fun _ => Keyword.ofSpelling?_eq_none_iff.mp hw }
  | some w =>
    exact
      { punctuation := by simp [TokenKind.punctuationText?]
        keyword := by simp [TokenKind.keywordText?, Keyword.ofSpelling?_eq_some_iff.mp hw]
        identifier := by simp }

theorem admits_of_readCode {place : Place} {gs : List Cluster} {x : Lexeme}
    (h : readCode place gs = .ok x) : x.kind.Admits x.text := by
  cases gs with
  | nil => simp [readCode] at h
  | cons g rest =>
    have hfits := Opening.fits g rest
    rw [readCode] at h
    generalize Opening.of g rest = opening at h hfits
    cases opening with
    | lineBreak =>
      obtain rfl := Except.ok.inj h
      show TokenKind.Admits .lineBreak g.text
      exact TokenKind.admits_of_free rfl rfl (by decide) _
    | comment =>
      obtain rfl := Except.ok.inj h
      show TokenKind.Admits .lineComment _
      exact TokenKind.admits_of_free rfl rfl (by decide) _
    | mark p =>
      obtain rfl := Except.ok.inj h
      exact
        { punctuation := fun x hx => Option.some.inj hx
          keyword := by simp [punctuation, TokenKind.keywordText?]
          identifier := by simp [punctuation] }
    | templateQuote =>
      obtain rfl := Except.ok.inj h
      obtain rfl := Cluster.eq_ofChar_of_is hfits
      exact
        { punctuation := fun x hx => Option.some.inj hx
          keyword := by simp [TokenKind.keywordText?]
          identifier := by simp }
    | interpolation =>
      obtain rfl := Except.ok.inj h
      exact
        { punctuation := fun x hx => Option.some.inj hx
          keyword := by simp [TokenKind.keywordText?]
          identifier := by simp }
    | rune | string =>
      rw [kind_of_quoted h]
      exact TokenKind.admits_of_free rfl rfl (by decide) _
    | number =>
      obtain ⟨form, hform⟩ := kind_of_number h
      rw [hform]
      exact TokenKind.admits_of_free rfl rfl (by simp) _
    | word =>
      obtain rfl := Except.ok.inj h
      exact admits_identifier _
    | stray => simp at h

/-- **Every token has a text that the tables allow for its kind.** -/
theorem admits_of_read {place : Place} {gs : List Cluster} {x : Lexeme}
    (h : read place gs = .ok x) : x.kind.Admits x.text := by
  rcases fragment_or_readCode h with hkind | hcode
  · rw [hkind]
    exact TokenKind.admits_of_free rfl rfl (by decide) _
  · exact admits_of_readCode hcode

end Lexeme

namespace Scanner

/-! ## One call -/

/-- What a call hands out that passes blanks and takes a lexeme. -/
def giving (s : Scanner) (blanks lexeme : List Cluster) (kind : TokenKind) (text : String) :
    Except Diagnostic Token × Scanner :=
  (.ok ⟨kind, s.position.passing blanks, text⟩, s.past blanks lexeme kind)

/-- The blanks at the front of what is ahead. -/
def blanksAhead (s : Scanner) : List Cluster := s.cursor.ahead.takeWhile (·.isBlank)

/-- The clusters ahead from the first one that is no blank. -/
def codeAhead (s : Scanner) : List Cluster := s.cursor.ahead.dropWhile (·.isBlank)

/-- The next call follows the tables: a comment, else the longest fixed text, else a word. -/
structure MunchesLongest (s : Scanner) : Prop where
  comment : BeginsWith s.codeAhead "//" →
    let lexeme := s.codeAhead.takeWhile (!·.isLineBreak)
    s.next = s.giving s.blanksAhead lexeme .lineComment (Cluster.textOf lexeme)
  fixed : ¬BeginsWith s.codeAhead "//" → (∃ k x, FixedAhead s.codeAhead k x) →
    ∃ kind text, LongestFixed s.codeAhead kind text ∧
      s.next = s.giving s.blanksAhead (text.toList.map .ofChar) kind text
  word : ¬BeginsWith s.codeAhead "//" → (¬∃ k x, FixedAhead s.codeAhead k x) →
    ∀ g ∈ s.codeAhead.head?, g.isIdentifierPart = true → g.isDecimalDigit = false →
      let lexeme := s.codeAhead.takeWhile (·.isIdentifierPart)
      s.next = s.giving s.blanksAhead lexeme
        ((TokenKind.ofKeyword? (Cluster.textOf lexeme)).getD .identifier) (Cluster.textOf lexeme)

theorem ahead_eq (s : Scanner) : s.cursor.ahead = s.blanksAhead ++ s.codeAhead :=
  List.takeWhile_append_dropWhile.symm

variable {s : Scanner}

/-- Code does not begin with a blank. -/
theorem isBlank_of_codeAhead {g : Cluster} {rest : List Cluster} (h : s.codeAhead = g :: rest) :
    g.isBlank = false := by
  have hstop := stops_dropWhile (q := (·.isBlank)) s.cursor.ahead
  rw [show s.cursor.ahead.dropWhile (·.isBlank) = g :: rest from h] at hstop
  simpa using hstop

/-- In code a call gives what is read behind the blanks. -/
theorem next_of_readCode {lexeme rest : List Cluster} {kind : TokenKind} {text : String}
    (hplace : s.frames.place ≠ .templateText) (hsplit : s.codeAhead = lexeme ++ rest)
    (hread : Lexeme.readCode s.frames.place s.codeAhead = .ok ⟨kind, text, rest⟩) :
    s.next = s.giving s.blanksAhead lexeme kind text := by
  have hahead : s.cursor.ahead = s.blanksAhead ++ (lexeme ++ rest) := by
    rw [← hsplit]
    exact s.ahead_eq
  rw [hsplit] at hread
  rw [← Lexeme.read_eq_readCode hplace] at hread
  exact (takes_of_read hahead (blanksIn_of_place hplace _) hread).next

/-- **In code every call follows the tables.** -/
theorem munchesLongest (hplace : s.frames.place ≠ .templateText) : s.MunchesLongest where
  comment h := next_of_readCode hplace List.takeWhile_append_dropWhile.symm
    (Lexeme.readCode_of_slashes h)
  fixed hcomment hfixed := by
    obtain ⟨k, x, hahead⟩ := hfixed
    obtain ⟨kind, text, hlongest⟩ := hahead.exists_longest
    obtain ⟨rest, hsplit, hread⟩ := Lexeme.readCode_of_longest hcomment hlongest
    exact ⟨kind, text, hlongest, next_of_readCode hplace hsplit hread⟩
  word hcomment hfixed g hg hpart hdigit := by
    obtain ⟨rest, hrest⟩ := List.head?_eq_some_iff.mp hg
    refine next_of_readCode hplace List.takeWhile_append_dropWhile.symm ?_
    rw [hrest] at hcomment hfixed ⊢
    rw [Lexeme.readCode, Opening.of_word hcomment hfixed hpart hdigit]
    rfl

theorem Takes.admits {s' : Scanner} {t : Token} {blanks lexeme : List Cluster}
    (h : s.Takes blanks lexeme t s') : t.kind.Admits t.text :=
  Lexeme.admits_of_read h.read

theorem Run.admits {s' : Scanner} {ts : List Token} (h : Run s ts s') :
    ∀ t ∈ ts, t.kind.Admits t.text := by
  induction h with
  | nil s => simp
  | cons hnext _ ih =>
    obtain ⟨blanks, lexeme, ht⟩ := takes_of_next hnext
    exact List.forall_mem_cons.mpr ⟨ht.admits, ih⟩

/--
**The next token of code is the one the tables name, and no token contradicts the tables.**

The table that keywords are read by is the one that they are written by, read backwards.
-/
theorem next_munches (source : String) (options : ScannerOptions) :
    (∀ n, ((ofText source options).after n).frames.place ≠ .templateText →
        ((ofText source options).after n).MunchesLongest) ∧
      (∀ n t s', ((ofText source options).after n).next = (.ok t, s') → t.kind.Admits t.text) ∧
      (∀ t ∈ (scan source options).tokens, t.kind.Admits t.text) ∧
      ∀ text kind, TokenKind.ofKeyword? text = some kind ↔ kind.keywordText? = some text := by
  refine ⟨fun n hplace => munchesLongest hplace, ?_, ?_,
    fun _ _ => TokenKind.ofKeyword?_eq_some_iff⟩
  · intro n t s' h
    obtain ⟨blanks, lexeme, ht⟩ := takes_of_next h
    exact ht.admits
  · obtain ⟨s', d, s'', hrun, -⟩ := exists_run_scan source options
    exact hrun.admits

/--
In an interpolation, behind a blank, a shift that assigns is longer than the marks it begins with,
and a keyword follows it.
-/
theorem next_munches_shift :
    ((ofText r"`${ <<=func").after 2).next.1.toOption
        = some ⟨.punctuation .lessThanLessThanEquals, ⟨4, 1, 5⟩, "<<="⟩ ∧
      ((ofText r"`${ <<=func").after 3).next.1.toOption
        = some ⟨.keyword .funcWord, ⟨7, 1, 8⟩, "func"⟩ := by
  obtain ⟨hmunches, -⟩ := next_munches r"`${ <<=func" {}
  constructor
  · have hmark : LongestFixed ((ofText r"`${ <<=func").after 2).codeAhead
        (.punctuation .lessThanLessThanEquals) "<<=" := longestFixed_mark (by decide +kernel)
    obtain ⟨kind, text, hlongest, hnext⟩ :=
      (hmunches 2 (by decide +kernel)).fixed (by decide +kernel) ⟨_, _, hmark.toFixedAhead⟩
    obtain ⟨rfl, rfl⟩ := hmark.unique hlongest
    rw [hnext]
    decide +kernel
  · have hahead : ((ofText r"`${ <<=func").after 3).codeAhead = "func".toList.map .ofChar := by
      decide +kernel
    have hfixed : ¬∃ k x, FixedAhead ((ofText r"`${ <<=func").after 3).codeAhead k x := by
      rintro ⟨k, x, hk⟩
      rw [hahead] at hk
      rcases hk.cases with ⟨q, -, -, hq⟩ | ⟨-, -, tail, htail⟩ | ⟨-, -, tail, htail⟩
      · obtain ⟨p, hp, -⟩ := Punctuator.exists_of_spelledBy hq
        have hnone : Punctuator.ahead? ("func".toList.map .ofChar) = none := by decide
        exact absurd (hp.symm.trans hnone) (by simp)
      · exact absurd (List.cons.inj htail).1 (by decide)
      · exact absurd (List.cons.inj htail).1 (by decide)
    have hnext := (hmunches 3 (by decide +kernel)).word (by decide +kernel) hfixed (.ofChar 'f')
      (by decide +kernel) (by decide) (by decide)
    rw [hnext]
    decide +kernel

end Scanner

end Lexis
