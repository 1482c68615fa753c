import Lexis.Proofs.TextItems
import Lexis.Proofs.EndOfInput
import Lexis.Proofs.Lookahead
import Mathlib.Tactic.Ring

/-!
# Writing text literals

Every scalar value can be written in a literal in several ways (`Spelling`): by a name, by
hexadecimal digits, or raw. Whichever way each one is written, the spellings do not run into each
other, and a scan of the literal finds its text again (`Scanner.scan_written`).
-/

namespace Lexis

/-! ## Printable text -/

namespace Text

/-- A printable character of ASCII, the space included. -/
def IsPrintable (c : Char) : Prop := 0x20 ≤ c.toNat ∧ c.toNat ≤ 0x7E

instance (c : Char) : Decidable (IsPrintable c) := inferInstanceAs (Decidable (_ ∧ _))

/-- Characters that neither join nor are joined are clusters of their own. -/
theorem clustersAfter_of_other {cs : List Char} (h : ∀ c ∈ cs, BreakClass.ofChar c = .other)
    (before : List BreakClass) : clustersAfter before cs = cs.map .ofChar := by
  fun_induction clustersAfter before cs with
  | case1 => rfl
  | case2 => rfl
  | case3 before c d cs here hjoins =>
    have hc : BreakClass.ofChar c = .other := h c (by simp)
    have hd : BreakClass.ofChar d = .other := h d (by simp)
    have hnone : joins (.other :: before) .other = false := rfl
    rw [show here = .other :: before from congrArg (· :: before) hc, hd, hnone] at hjoins
    exact absurd hjoins (by decide)
  | case4 before c d cs here _ ih =>
    rw [ih fun e he => h e (List.mem_cons_of_mem _ he)]
    rfl

theorem class_of_isPrintable {c : Char} (h : IsPrintable c) :
    BreakClass.ofChar c = .other := by
  obtain ⟨hlo, hhi⟩ := h
  rw [BreakClass.ofChar, if_pos (by omega), BreakClass.ofAscii, if_neg (by omega),
    if_neg (by omega), if_neg (by simp; omega)]

/-- Printable text is cut into its characters. -/
theorem clusters_of_isPrintable {cs : List Char} (h : ∀ c ∈ cs, IsPrintable c) :
    clusters cs = cs.map .ofChar :=
  clustersAfter_of_other (fun c hc => class_of_isPrintable (h c hc)) []

end Text

namespace TextLiteral

open TextForm
open Text (IsPrintable)

/-! ## Spellings -/

/-- The named escapes of a literal: the symbol after the backslash, and the scalar value. -/
def namedEscapes (form : TextForm) : List (Char × Char) :=
  [('n', '\n'), ('t', '\t'), ('\\', '\\'), ('\'', '\''), ('"', '"'), ('r', '\r'), ('a', '\x07'),
    ('b', '\x08'), ('f', '\x0c'), ('v', '\x0b'), ('0', '\x00')]
    ++ if form = template then [('`', '`'), ('$', '$')] else []

/-- The character `d` is the hexadecimal digit of the value `m`, in one of the letter cases. -/
def IsHexDigitOf (m : Nat) (d : Char) : Prop :=
  m < 16 ∧ (d = Nat.digitChar m ∨ d = (Nat.digitChar m).toUpper)

instance (m : Nat) (d : Char) : Decidable (IsHexDigitOf m d) :=
  inferInstanceAs (Decidable (_ ∧ _))

/-- Digits write a number in base sixteen, leading zeros included. -/
inductive WritesHex : Nat → List Char → Prop
  | nil : WritesHex 0 []
  | cons {n m k : Nat} {d : Char} {ds : List Char} (digit : IsHexDigitOf m d)
      (rest : WritesHex k ds) (value : n = m * 16 ^ ds.length + k) : WritesHex n (d :: ds)

/-- The ways to write a scalar value in a literal. -/
inductive Spelling (form : TextForm) : Char → List Char → Prop
  | named {symbol c : Char} (name : (symbol, c) ∈ namedEscapes form) :
      Spelling form c ['\\', symbol]
  | hex {letter c : Char} {digits : List Char} (length : hexLength? letter = some digits.length)
      (writes : WritesHex c.toNat digits) : Spelling form c ('\\' :: letter :: digits)
  | raw {c : Char} (printable : IsPrintable c) (backslash : c ≠ '\\')
      (delimiter : c ≠ form.delimiter) (dollar : form = template → c ≠ '$') : Spelling form c [c]

/-! ## Hexadecimal digits -/

section

variable {m n : Nat} {d : Char} {ds : List Char}

theorem IsHexDigitOf.reads (h : IsHexDigitOf m d) :
    Alphabet.isHexDigit d = true ∧ Alphabet.hexDigitValue d = m ∧ IsPrintable d := by
  obtain ⟨hm, rfl | rfl⟩ := h
  · revert m
    decide
  · revert m
    decide

theorem hexValue_cons (d : Char) (ds : List Char) :
    Alphabet.hexValue (d :: ds)
      = Alphabet.hexDigitValue d * 16 ^ ds.length + Alphabet.hexValue ds := by
  -- what was read before counts sixteen times as much for every further digit
  have hfold : ∀ a : Nat, ds.foldl (fun n c => n * 16 + Alphabet.hexDigitValue c) a
      = a * 16 ^ ds.length + Alphabet.hexValue ds := by
    induction ds with
    | nil => intro a; simp [Alphabet.hexValue]
    | cons e es ih =>
      intro a
      have htail : Alphabet.hexValue (e :: es)
          = (0 * 16 + Alphabet.hexDigitValue e) * 16 ^ es.length + Alphabet.hexValue es := ih _
      rw [List.foldl_cons, ih, htail, List.length_cons, Nat.pow_succ]
      ring
  rw [Alphabet.hexValue, List.foldl_cons, hfold, Nat.zero_mul, Nat.zero_add]

theorem WritesHex.hexValue (h : WritesHex n ds) : Alphabet.hexValue ds = n := by
  induction h with
  | nil => rfl
  | cons digit _ value ih => rw [hexValue_cons, digit.reads.2.1, ih, value]

theorem WritesHex.digit (h : WritesHex n ds) : ∀ d ∈ ds, ∃ m, IsHexDigitOf m d := by
  induction h with
  | nil => simp
  | cons digit _ _ ih => exact List.forall_mem_cons.mpr ⟨⟨_, digit⟩, ih⟩

/-- Every number that has so few digits can be written with so many of them. -/
theorem exists_writesHex (k : Nat) (h : n < 16 ^ k) : ∃ ds, ds.length = k ∧ WritesHex n ds := by
  induction k generalizing n with
  | zero =>
    obtain rfl : n = 0 := by simpa using h
    exact ⟨[], rfl, .nil⟩
  | succ k ih =>
    obtain ⟨ds, hlen, hds⟩ := ih (Nat.mod_lt n (Nat.pow_pos (by decide)))
    have hm : n / 16 ^ k < 16 := Nat.div_lt_of_lt_mul (by rwa [Nat.pow_succ] at h)
    refine ⟨Nat.digitChar (n / 16 ^ k) :: ds, by rw [List.length_cons, hlen],
      .cons ⟨hm, .inl rfl⟩ hds ?_⟩
    rw [hlen, Nat.mul_comm, Nat.div_add_mod]

theorem toNat_lt (c : Char) : c.toNat < 0x110000 := by
  have hvalid : c.toNat.isValidChar := c.valid
  rcases hvalid with h | ⟨-, h⟩
  · exact Nat.lt_trans h (by decide)
  · exact h

/-- Eight digits are more than a scalar value needs, so the first one is a zero. -/
theorem head?_of_writesHex {c : Char} (h : WritesHex c.toNat ds) (hlen : ds.length = 8) :
    ds.head? = some '0' := by
  have hlt := toNat_lt c
  generalize c.toNat = n at h hlt
  cases h with
  | nil => simp at hlen
  | @cons _ m k d ds digit rest value =>
    have hseven : ds.length = 7 := Nat.succ.inj hlen
    rw [hseven] at value
    obtain rfl : m = 0 := by omega
    obtain ⟨-, hd | hd⟩ := digit <;> rw [hd] <;> rfl

end

/-! ## What spellings stand for -/

section

variable {form : TextForm} {c : Char} {spelling : List Char} {cs : List Char}
  {spellings : List (List Char)}

theorem escape?_of_mem {symbol : Char} (h : (symbol, c) ∈ namedEscapes form) :
    escape? form symbol = some c := by
  have hall : ∀ form, ∀ p ∈ namedEscapes form, escape? form p.1 = some p.2 := by
    intro form
    cases form <;> decide
  exact hall form _ h

/-- **However a scalar value is written, its spelling is one item that stands for it.** -/
theorem Spelling.stands (h : Spelling form c spelling) (after : List Cluster) :
    ∃ item : Item, item.clusters = spelling.map .ofChar ∧ Stands form after item [c] := by
  cases h with
  | @named symbol _ name =>
    exact ⟨.escape [.ofChar symbol], rfl, .escape (.named (escape?_of_mem name))⟩
  | @hex letter _ digits length writes =>
    have hdigit : ∀ d ∈ digits, Alphabet.isHexDigit d = true := fun d hd =>
      (writes.digit d hd).elim fun m hm => hm.reads.1
    -- eight digits of a scalar value begin with a zero, which is asked for
    have hlong : letter = 'U' → digits.head? = some '0' := by
      rintro rfl
      exact head?_of_writesHex writes (Option.some.inj length).symm
    have hvalue : scalar? (Alphabet.hexValue digits) = some c := by
      have hvalid : c.toNat.isValidChar := c.valid
      rw [writes.hexValue, scalar?, if_pos hvalid, Char.ofNat_toNat]
    exact ⟨.escape (.ofChar letter :: digits.map .ofChar), rfl,
      .escape (.hex length hdigit hlong hvalue)⟩
  | raw printable backslash delimiter dollar =>
    have hne : ∀ {d : Char}, c ≠ d → Cluster.ofChar c ≠ .ofChar d := fun h hc =>
      h (by simpa [Cluster.ofChar] using hc)
    refine ⟨.raw (.ofChar c), rfl, .raw (hne backslash) (hne delimiter) ?_ ?_⟩
    · intro hform hc
      exact absurd hc (hne (dollar hform))
    · intro hline
      obtain rfl : c = '\n' := by simpa [Cluster.isLineBreak, Cluster.ofChar] using hline
      exact absurd printable.1 (by decide)

theorem items_of_spellings (h : List.Forall₂ (Spelling form) cs spellings) (after : List Cluster) :
    ∃ items, clustersOf items = spellings.flatten.map .ofChar ∧ Items form after items cs := by
  induction h with
  | nil => exact ⟨[], rfl, .nil⟩
  | cons hspelling _ ih =>
    obtain ⟨items, hclusters, hitems⟩ := ih
    obtain ⟨item, hitem, hstands⟩ := hspelling.stands (clustersOf items ++ after)
    exact ⟨item :: items, by simp [hitem, hclusters], .cons hstands hitems⟩

/-- Every text can be written in a literal of every form. -/
theorem exists_spellings (form : TextForm) (cs : List Char) :
    ∃ spellings, List.Forall₂ (Spelling form) cs spellings := by
  induction cs with
  | nil => exact ⟨[], .nil⟩
  | cons c cs ih =>
    obtain ⟨spellings, hspellings⟩ := ih
    obtain ⟨digits, hlen, hdigits⟩ := exists_writesHex (n := c.toNat) 8
      (Nat.lt_trans (toNat_lt c) (by decide))
    exact ⟨('\\' :: 'U' :: digits) :: spellings, .cons (.hex (by rw [hlen]; rfl) hdigits) hspellings⟩

theorem Spelling.printable (h : Spelling form c spelling) : ∀ d ∈ spelling, IsPrintable d := by
  have hslash : IsPrintable '\\' := by decide
  cases h with
  | @named symbol _ name =>
    have hall : ∀ form, ∀ p ∈ namedEscapes form, IsPrintable p.1 := by
      intro form
      cases form <;> decide
    simpa [hslash] using hall form _ name
  | @hex letter _ digits length writes =>
    have hletter : IsPrintable letter := by
      rcases eq_of_hexLength? length with ⟨rfl, -⟩ | ⟨rfl, -⟩ | ⟨rfl, -⟩ <;> decide
    refine List.forall_mem_cons.mpr ⟨hslash, List.forall_mem_cons.mpr ⟨hletter, fun d hd => ?_⟩⟩
    obtain ⟨m, hm⟩ := writes.digit d hd
    exact hm.reads.2.2
  | raw printable => simpa using printable

theorem isPrintable_of_spellings (h : List.Forall₂ (Spelling form) cs spellings) :
    ∀ d ∈ spellings.flatten, IsPrintable d := by
  induction h with
  | nil => simp
  | cons hspelling _ ih =>
    rw [List.flatten_cons]
    exact List.forall_mem_append.mpr ⟨hspelling.printable, ih⟩

end

end TextLiteral

/-! ## The scanner -/

namespace Scanner

open TextLiteral
open Text (IsPrintable)

/-- A scan that has given no warning: what is open, and what is ahead. -/
structure Ready (s : Scanner) (frames : TemplateStack) (gs : List Cluster) : Prop where
  frames : s.frames = frames
  ahead : s.cursor.ahead = gs
  warnings : s.warnings = []

/-- The kinds and texts of the tokens of template text: none if it is empty. -/
def fragmentTokens (cs : List Char) : List (TokenKind × String) :=
  if cs = [] then [] else [(.templateFragment, String.ofList cs)]

/-- The kinds and texts of the tokens of a literal. -/
def literalTokens : TextForm → List Char → List (TokenKind × String)
  | .template, cs => (.templateQuote, "`") :: (fragmentTokens cs ++ [(.templateQuote, "`")])
  | form, cs => [(form.kind, String.ofList cs)]

/-- The kind and the text of a token. -/
def spelled (t : Token) : TokenKind × String := (t.kind, t.text)

section

variable {s s' : Scanner} {frames : TemplateStack} {gs rest : List Cluster} {form : TextForm}
  {cs : List Char} {spellings : List (List Char)} {kind : TokenKind} {text : String}

/-- The next call gives what is read from the clusters ahead. -/
theorem Ready.next (h : s.Ready frames gs) (hblanks : s.blanksIn s.cursor.ahead = [])
    (hread : Lexeme.read frames.place gs = .ok ⟨kind, text, rest⟩)
    (hkind : kind ≠ .interpolationStart) :
    ∃ t s', s.next = (.ok t, s') ∧ spelled t = (kind, text) ∧
      s'.Ready (frames.afterToken kind) rest := by
  obtain ⟨rfl, rfl, hwarnings⟩ := h
  have hsuffix := Lexeme.suffix_read s.frames.place s.cursor.ahead
  rw [hread] at hsuffix
  obtain ⟨lexeme, hsplit⟩ : rest <:+ s.cursor.ahead := hsuffix
  have ht : s.Takes [] lexeme ⟨kind, s.position, text⟩ (s.past [] lexeme kind) :=
    takes_of_read hsplit.symm hblanks (by rw [hsplit, hread])
  refine ⟨_, _, ht.next, rfl, ht.frames, ahead_past hsplit.symm kind, ?_⟩
  rw [ht.warnings, hwarnings, warningsOf, if_neg (by simp [hkind])]
  rfl

/-- At the end of code the scan ends, and that is no error. -/
theorem Ready.scanToEnd {ts : List Token} (h : s'.Ready [] []) (hrun : Run s ts s') :
    s.scanToEnd.1 = ⟨ts, none, []⟩ := by
  obtain ⟨hframes, hahead, hwarnings⟩ := h
  have hblanks : s'.blanksIn s'.cursor.ahead = [] := by
    rw [hahead, Scanner.blanksIn, hframes]
    rfl
  have hread : Lexeme.read s'.frames.place ([] ++ []) = .error ⟨.endOfInput, []⟩ := by
    rw [hframes]
    rfl
  have hf : s'.Fails [] [] ⟨.endOfInput, []⟩ _ _ := fails_of_read hahead hblanks hread
  rw [hrun.scanToEnd hf.next, hwarnings, if_pos (hf.endOfInput_iff.mpr ⟨hframes, hahead⟩)]

/-- The clusters of a literal that is written with spellings. -/
theorem ready_written (h : List.Forall₂ (Spelling form) cs spellings) (options : ScannerOptions) :
    (ofText (String.ofList (form.delimiter :: (spellings.flatten ++ [form.delimiter])))
        options).Ready []
      (.ofChar form.delimiter :: (spellings.flatten.map .ofChar ++ [.ofChar form.delimiter])) := by
  have hdelimiter : IsPrintable form.delimiter := by cases form <;> decide
  have hflatten := isPrintable_of_spellings h
  have hall : ∀ d ∈ form.delimiter :: (spellings.flatten ++ [form.delimiter]), IsPrintable d := by
    simpa [or_imp, forall_and, hdelimiter] using hflatten
  refine ⟨rfl, ?_, rfl⟩
  rw [ofText, Cursor.ahead_ofText, String.toList_ofList, Text.clusters_of_isPrintable hall,
    List.map_cons, List.map_append]
  rfl

/-- The clusters between the delimiters of a literal are read as what the spellings stand for. -/
theorem content_written (h : List.Forall₂ (Spelling form) cs spellings) :
    content form (spellings.flatten.map .ofChar ++ [.ofChar form.delimiter])
      = .ok (cs, [.ofChar form.delimiter]) := by
  obtain ⟨items, hclusters, hitems⟩ := items_of_spellings h [.ofChar form.delimiter]
  rw [← hclusters]
  exact content_ok_iff.mpr ⟨items, rfl, hitems, .delimiter form []⟩

/-- In template text the next call gives the fragment, unless it is empty. -/
theorem Ready.fragment (h : s.Ready [.text] gs) (hcontent : content .template gs = .ok (cs, rest)) :
    ∃ ts s', Run s ts s' ∧ ts.map spelled = fragmentTokens cs ∧ s'.Ready [.text] rest := by
  by_cases hempty : cs = []
  · subst hempty
    have hgs : ∀ g ∈ gs, g.chars ≠ [] := fun g hg => Cursor.ne_nil_of_mem_ahead (h.ahead ▸ hg)
    obtain rfl := eq_of_content_nil hcontent hgs
    exact ⟨[], s, .nil s, rfl, h⟩
  · have hread : Lexeme.read .templateText gs = .ok ⟨.templateFragment, String.ofList cs, rest⟩ := by
      rw [read_fragment, hcontent, Except.bind, if_neg hempty]
    obtain ⟨t, s', hnext, htoken, hready⟩ :=
      h.next (blanksIn_templateText (by rw [h.frames]; rfl) _) hread (by decide)
    refine ⟨[t], s', .cons hnext (.nil s'), ?_, hready⟩
    rw [fragmentTokens, if_neg hempty, List.map_singleton, htoken]

/-- A quote where template text ends closes the template. -/
theorem Ready.closingQuote (h : s.Ready [.text] (.ofChar '`' :: gs)) :
    ∃ t s', s.next = (.ok t, s') ∧ spelled t = (.templateQuote, "`") ∧ s'.Ready [] gs := by
  have hends : EndsText (.ofChar '`' :: gs) := ⟨_, _, rfl, rfl⟩
  have hread : Lexeme.read .templateText (.ofChar '`' :: gs) = .ok ⟨.templateQuote, "`", gs⟩ := by
    rw [read_fragment, content_of_endsText hends]
    rfl
  exact h.next (blanksIn_templateText (by rw [h.frames]; rfl) _) hread (by decide)

/-- Where a literal is ahead, its tokens are given. -/
theorem Ready.literal (h : s.Ready [] (.ofChar form.delimiter :: gs))
    (hcontent : content form gs = .ok (cs, .ofChar form.delimiter :: rest)) :
    ∃ ts s', Run s ts s' ∧ ts.map spelled = literalTokens form cs ∧ s'.Ready [] rest := by
  have hblanks : s.blanksIn s.cursor.ahead = [] :=
    blanksIn_of_head h.ahead (by cases form <;> decide)
  by_cases hform : form = .template
  · -- three calls: the quote, the fragment if there is one, the quote
    subst hform
    obtain ⟨opening, s₁, hopening, hopened, h₁⟩ := h.next hblanks rfl (by decide)
    obtain ⟨ts, s₂, hrun, hfragment, h₂⟩ := h₁.fragment hcontent
    obtain ⟨closing, s₃, hclosing, hclosed, h₃⟩ := h₂.closingQuote
    refine ⟨opening :: (ts ++ [closing]), s₃,
      .cons hopening (hrun.append (.cons hclosing (.nil s₃))), ?_, h₃⟩
    rw [List.map_cons, List.map_append, List.map_singleton, hopened, hfragment, hclosed]
    rfl
  · have hread : Lexeme.read .code (.ofChar form.delimiter :: gs)
        = .ok ⟨form.kind, String.ofList cs, rest⟩ := by
      rw [read_quoted (by decide) hform, hcontent]
      rfl
    obtain ⟨t, s', hnext, htoken, hready⟩ := h.next hblanks hread (by cases form <;> decide)
    have hframes : TemplateStack.afterToken [] form.kind = [] := by cases form <;> rfl
    refine ⟨[t], s', .cons hnext (.nil s'), ?_, hframes ▸ hready⟩
    rw [List.map_singleton, htoken]
    cases form with
    | template => exact absurd rfl hform
    | _ => rfl

/--
**However the text of a literal is written, a scan finds the text again.**

A rune or string gives one token; a template gives its text between its quotes, and none for the
empty text.
-/
theorem scan_written (h : List.Forall₂ (Spelling form) cs spellings) (options : ScannerOptions) :
    ∃ ts, ts.map spelled = literalTokens form cs ∧
      scan (String.ofList (form.delimiter :: (spellings.flatten ++ [form.delimiter]))) options
        = ⟨ts, none, []⟩ := by
  obtain ⟨ts, s', hrun, htokens, hready⟩ := (ready_written h options).literal (content_written h)
  exact ⟨ts, htokens, hready.scanToEnd hrun⟩

end

/-- An escaped dollar sign opens no interpolation, and a quote may be written by its number. -/
theorem scan_written_marks :
    List.Forall₂ (Spelling .template) ['$', '{', '`', '\x00']
        [['\\', '$'], ['{'], ['\\', 'u', '0', '0', '6', '0'], ['\\', '0']] ∧
      ∃ ts, ts.map spelled
          = [(.templateQuote, "`"), (.templateFragment, r"${`" ++ "\x00"), (.templateQuote, "`")] ∧
        scan (String.ofList ['`', '\\', '$', '{', '\\', 'u', '0', '0', '6', '0', '\\', '0', '`']) {}
          = ⟨ts, none, []⟩ :=
  have hquote : WritesHex ('`').toNat ['0', '0', '6', '0'] :=
    .cons (m := 0) (k := 96) (by decide) (.cons (m := 0) (k := 96) (by decide)
      (.cons (m := 6) (k := 0) (by decide) (.cons (m := 0) (k := 0) (by decide) .nil rfl) rfl) rfl) rfl
  have hspellings := .cons (.named (by decide)) (.cons (.raw (by decide) (by decide) (by decide)
    (by decide)) (.cons (.hex rfl hquote) (.cons (.named (by decide)) .nil)))
  ⟨hspellings, scan_written hspellings {}⟩

end Scanner

end Lexis
