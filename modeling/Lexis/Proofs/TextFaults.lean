import Lexis.Proofs.TextItems

/-!
# Why text literals are rejected

A literal is rejected for the first thing in it that is no item (`content_error_iff`): behind the
longest row of items stands something `Broken`, which says what the error names and what is left
where it is noticed. The scanner reports it there (`Scanner.next_text_error_iff`).
-/

namespace Lexis

namespace TextLiteral

open TextForm

/--
Digits that a hexadecimal escape may begin with behind its letter, which needs `count` of them.
-/
structure HexStart (letter : Char) (count : Nat) (digits : List Char) : Prop where
  length : hexLength? letter = some count
  digit : ∀ d ∈ digits, Alphabet.isHexDigit d = true
  /-- A long escape begins with a zero. -/
  long : letter = 'U' → ∀ d, digits.head? = some d → d = '0'

/-- Why no item of a literal stands in front of the clusters, and what is left where that shows. -/
inductive Broken (form : TextForm) : List Cluster → Fault → Prop
  | ended : Broken form [] ⟨.unterminated form, []⟩
  | backslash : Broken form [.ofChar '\\'] ⟨.unterminated form, []⟩
  | digitsEnd {letter : Char} {count : Nat} {digits : List Char}
      (start : HexStart letter count digits) (few : digits.length < count) :
      Broken form (.ofChar '\\' :: .ofChar letter :: digits.map .ofChar) ⟨.unterminated form, []⟩
  | lineBreak {g : Cluster} {rest : List Cluster} (line : g.isLineBreak = true)
      (single : form ≠ template) : Broken form (g :: rest) ⟨.unexpectedLineBreak, g :: rest⟩
  | symbol {g : Cluster} {rest : List Cluster}
      (unnamed : ∀ c, g = .ofChar c → escape? form c = none ∧ hexLength? c = none) :
      Broken form (.ofChar '\\' :: g :: rest) ⟨.invalidEscape g, .ofChar '\\' :: g :: rest⟩
  | firstDigit {g : Cluster} {rest : List Cluster} (nonzero : g ≠ .ofChar '0') :
      Broken form (.ofChar '\\' :: .ofChar 'U' :: g :: rest)
        ⟨.invalidFirstDigitOfLongEscape, g :: rest⟩
  | digit {letter : Char} {count : Nat} {digits : List Char} {g : Cluster} {rest : List Cluster}
      (start : HexStart letter count digits) (few : digits.length < count)
      (first : letter = 'U' → digits ≠ []) (bad : g.isHexDigit = false) :
      Broken form (.ofChar '\\' :: .ofChar letter :: (digits.map .ofChar ++ g :: rest))
        ⟨.invalidHexDigit g, g :: rest⟩
  | codePoint {letter : Char} {digits : List Char} {rest : List Cluster}
      (start : HexStart letter digits.length digits)
      (value : scalar? (Alphabet.hexValue digits) = none) :
      Broken form (.ofChar '\\' :: .ofChar letter :: (digits.map .ofChar ++ rest))
        ⟨.invalidCodePoint (String.ofList digits), rest⟩

/-- No row of items at the front of the clusters `gs` is longer. -/
structure LongestItems (form : TextForm) (gs : List Cluster) (items : List Item) (cs : List Char)
    (after : List Cluster) : Prop where
  split : gs = clustersOf items ++ after
  row : Items form after items cs
  longest : ∀ items' cs' after', gs = clustersOf items' ++ after' → Items form after' items' cs' →
    items'.length ≤ items.length

section

variable {form : TextForm} {count : Nat} {gs after rest : List Cluster} {item : Item}
  {items : List Item} {chars cs digits : List Char} {letter : Char} {fault : Fault}

theorem Broken.split (h : Broken form gs fault) : ∃ passed, gs = passed ++ fault.rest := by
  cases h with
  | ended => exact ⟨[], rfl⟩
  | backslash => exact ⟨_, (List.append_nil _).symm⟩
  | digitsEnd => exact ⟨_, (List.append_nil _).symm⟩
  | lineBreak => exact ⟨[], rfl⟩
  | symbol => exact ⟨[], rfl⟩
  | firstDigit => exact ⟨[_, _], rfl⟩
  | digit => exact ⟨_ :: _ :: _, rfl⟩
  | codePoint => exact ⟨_ :: _ :: _, rfl⟩

/-! ## Digits -/

/-- Where a digit is missing: the input ends, or another cluster stands there. -/
def missingDigit (form : TextForm) : List Cluster → Fault
  | [] => ⟨.unterminated form, []⟩
  | g :: rest => ⟨.invalidHexDigit g, g :: rest⟩

/-- The clusters begin with digits, fewer than needed, and `rest` goes on with none. -/
structure Misses (count : Nat) (gs : List Cluster) (digits : List Char) (rest : List Cluster) :
    Prop where
  split : gs = digits.map .ofChar ++ rest
  few : digits.length < count
  digit : ∀ d ∈ digits, Alphabet.isHexDigit d = true
  stops : rest.head?.any Cluster.isHexDigit = false

theorem Misses.hexDigits (h : Misses count gs digits rest) :
    hexDigits form count gs = .error (missingDigit form rest) := by
  obtain ⟨rfl, hfew, hdigit, hstop⟩ := h
  induction digits generalizing count with
  | nil =>
    obtain ⟨k, rfl⟩ := Nat.exists_eq_succ_of_ne_zero (Nat.ne_of_gt hfew)
    cases rest with
    | nil => rfl
    | cons g rest => exact if_neg (by simpa using hstop)
  | cons d digits ih =>
    obtain ⟨k, rfl⟩ := Nat.exists_eq_succ_of_ne_zero (Nat.ne_zero_of_lt hfew)
    obtain ⟨hd, hdigits⟩ := List.forall_mem_cons.mp hdigit
    have hg : (Cluster.ofChar d).isHexDigit = true := hd
    rw [List.map_cons, List.cons_append, TextLiteral.hexDigits, if_pos hg,
      ih (Nat.lt_of_succ_lt_succ hfew) hdigits]

theorem misses_of_hexDigits (h : hexDigits form count gs = .error fault) :
    ∃ digits rest, Misses count gs digits rest ∧ fault = missingDigit form rest := by
  fun_induction TextLiteral.hexDigits form count gs with
  | case1 => simp at h
  | case2 count => exact ⟨[], [], ⟨rfl, Nat.succ_pos _, by simp, rfl⟩, (Except.error.inj h).symm⟩
  | case3 count g tail hg found hfound ih =>
    obtain ⟨digits, rest, ⟨rfl, hfew, hdigit, hstop⟩, rfl⟩ := ih (hfound.trans h)
    obtain ⟨c, rfl, hc⟩ := Cluster.eq_ofChar_of_isOne hg
    have hall : ∀ d ∈ c :: digits, Alphabet.isHexDigit d = true :=
      List.forall_mem_cons.mpr ⟨hc, hdigit⟩
    exact ⟨c :: digits, rest, ⟨rfl, Nat.succ_lt_succ hfew, hall, hstop⟩, rfl⟩
  | case4 => simp at h
  | case5 count g tail hg =>
    have hstop : ((g :: tail).head?.any Cluster.isHexDigit) = false := by simpa using hg
    exact ⟨[], g :: tail, ⟨rfl, Nat.succ_pos _, by simp, hstop⟩, (Except.error.inj h).symm⟩

/-- The digits of an escape are missing, or write no scalar value. -/
theorem hexEscape_error_iff :
    hexEscape form count gs = .error fault ↔
      hexDigits form count gs = .error fault ∨
        ∃ digits rest, hexDigits form count gs = .ok (digits, rest) ∧
          scalar? (Alphabet.hexValue digits) = none ∧
          fault = ⟨.invalidCodePoint (String.ofList digits), rest⟩ := by
  unfold hexEscape
  cases hd : hexDigits form count gs with
  | error found => simp
  | ok found =>
    obtain ⟨digits, rest⟩ := found
    cases hv : scalar? (Alphabet.hexValue digits) with
    | none => simp [hv, eq_comm]
    | some c => simp [hv]

/-! ## Escapes -/

theorem hexLength?_of_escape? {c : Char} (h : hexLength? c = some count) : escape? form c = none := by
  rcases eq_of_hexLength? h with ⟨rfl, _⟩ | ⟨rfl, _⟩ | ⟨rfl, _⟩ <;> cases form <;> decide

/-- A letter that takes digits has them read; a long escape looks at the first one itself. -/
theorem escape_letter (hl : hexLength? letter = some count) (backslash : Cluster) :
    escape form backslash (.ofChar letter :: gs)
      = if letter = 'U' then longEscape form gs else hexEscape form count gs := by
  have hnamed : escape? form letter = none := hexLength?_of_escape? hl
  rcases eq_of_hexLength? hl with ⟨rfl, rfl⟩ | ⟨rfl, rfl⟩ | ⟨rfl, rfl⟩ <;>
    simp [escape, hnamed]

/-- Digits are read behind a letter that takes them, if a long escape begins with a zero. -/
theorem escape_hexEscape (hl : hexLength? letter = some count)
    (hlong : letter = 'U' → ∃ tail, gs = .ofChar '0' :: tail) (backslash : Cluster) :
    escape form backslash (.ofChar letter :: gs) = hexEscape form count gs := by
  rw [escape_letter hl]
  by_cases hu : letter = 'U'
  · obtain ⟨tail, rfl⟩ := hlong hu
    subst hu
    obtain rfl : 8 = count := Option.some.inj hl
    rfl
  · rw [if_neg hu]

theorem escape_other {symbol : Cluster}
    (h : ∀ c, symbol = .ofChar c → escape? form c = none ∧ hexLength? c = none)
    (backslash : Cluster) (rest : List Cluster) :
    escape form backslash (symbol :: rest)
      = .error ⟨.invalidEscape symbol, backslash :: symbol :: rest⟩ := by
  have hnamed : symbol.single?.bind (escape? form) = none := by
    cases hs : symbol.single? with
    | none => rfl
    | some c => exact (h c (Cluster.eq_ofChar_of_single? hs)).1
  have hletter : ∀ c, hexLength? c ≠ none → ¬symbol.is c = true := fun c hc hs =>
    hc (h c (Cluster.eq_ofChar_of_is hs)).2
  simp only [escape, hnamed]
  rw [if_neg (hletter 'x' (by decide)), if_neg (hletter 'u' (by decide)),
    if_neg (hletter 'U' (by decide))]

/-- What the reader of digits rejects is broken, where it has looked at the zero of a long escape. -/
theorem broken_of_hexEscape (hl : hexLength? letter = some count)
    (hlong : letter = 'U' → ∃ tail, gs = .ofChar '0' :: tail)
    (h : hexEscape form count gs = .error fault) :
    Broken form (.ofChar '\\' :: .ofChar letter :: gs) fault := by
  have hzero : ∀ {digits : List Char} {rest : List Cluster}, gs = digits.map .ofChar ++ rest →
      letter = 'U' → ∀ d, digits.head? = some d → d = '0' := by
    intro digits rest hsplit hu d hd
    obtain ⟨tail, htail⟩ := hlong hu
    obtain ⟨ds, rfl⟩ := List.head?_eq_some_iff.mp hd
    simpa [Cluster.ofChar] using (List.cons.inj (hsplit.symm.trans htail)).1
  rcases hexEscape_error_iff.mp h with hd | ⟨digits, rest, hd, hv, rfl⟩
  · obtain ⟨digits, rest, ⟨rfl, hfew, hall, hstop⟩, rfl⟩ := misses_of_hexDigits hd
    have hstart : HexStart letter count digits := ⟨hl, hall, hzero rfl⟩
    cases rest with
    | nil =>
      rw [List.append_nil]
      exact .digitsEnd hstart hfew
    | cons g rest =>
      refine .digit hstart hfew ?_ (by simpa using hstop)
      rintro hu rfl
      -- the first cluster is the zero itself, so it is no bad digit
      obtain ⟨tail, htail⟩ := hlong hu
      obtain ⟨rfl, -⟩ := List.cons.inj htail
      rw [List.head?_cons, Option.any_some] at hstop
      exact absurd hstop (by decide)
  · obtain ⟨rfl, hlen, hall⟩ := hexDigits_eq hd
    exact .codePoint ⟨hlen ▸ hl, hall, hzero rfl⟩ hv

theorem broken_of_escape (h : escape form (.ofChar '\\') gs = .error fault) :
    Broken form (.ofChar '\\' :: gs) fault := by
  cases gs with
  | nil =>
    obtain rfl := Except.error.inj h
    exact .backslash
  | cons symbol rest =>
    by_cases hletter : ∃ letter count, symbol = .ofChar letter ∧ hexLength? letter = some count
    · obtain ⟨letter, count, rfl, hl⟩ := hletter
      by_cases hlong : letter = 'U' → ∃ tail, rest = .ofChar '0' :: tail
      · rw [escape_hexEscape hl hlong] at h
        exact broken_of_hexEscape hl hlong h
      · -- the eight digits begin with a zero, or the first of them is wrong
        obtain ⟨rfl, hzero⟩ := Classical.not_imp.mp hlong
        rw [escape_letter hl, if_pos rfl] at h
        cases rest with
        | nil =>
          obtain rfl := Except.error.inj h
          have hstart : HexStart 'U' 8 [] := ⟨rfl, by simp, by simp⟩
          exact .digitsEnd hstart (Nat.succ_pos 7)
        | cons g rest =>
          have hg : g ≠ .ofChar '0' := fun hg => hzero ⟨rest, by rw [hg]⟩
          rw [longEscape, if_neg fun h0 => hg (Cluster.eq_ofChar_of_is h0)] at h
          obtain rfl := Except.error.inj h
          exact .firstDigit hg
    · -- an escape with a name would have been read
      have hunnamed : ∀ c, symbol = .ofChar c → escape? form c = none ∧ hexLength? c = none := by
        rintro c rfl
        constructor
        · refine Option.eq_none_iff_forall_ne_some.mpr fun d hd => ?_
          have hread := escape_of_escape (Escape.named hd) (.ofChar '\\') rest
          rw [List.singleton_append, h] at hread
          cases hread
        · exact Option.eq_none_iff_forall_ne_some.mpr fun n hn => hletter ⟨c, n, rfl, hn⟩
      rw [escape_other hunnamed] at h
      obtain rfl := Except.error.inj h
      exact .symbol hunnamed

theorem HexStart.escape {digits : List Char} (h : HexStart letter count digits)
    (hfirst : letter = 'U' → digits ≠ []) (rest : List Cluster) :
    escape form (.ofChar '\\') (.ofChar letter :: (digits.map .ofChar ++ rest))
      = hexEscape form count (digits.map .ofChar ++ rest) := by
  refine escape_hexEscape h.length (fun hu => ?_) _
  obtain ⟨d, ds, rfl⟩ := List.exists_cons_of_ne_nil (hfirst hu)
  rw [h.long hu d rfl]
  exact ⟨_, rfl⟩

theorem Broken.escape (h : Broken form (.ofChar '\\' :: gs) fault) :
    escape form (.ofChar '\\') gs = .error fault := by
  cases h with
  | backslash => rfl
  | @digitsEnd letter count digits start few =>
    by_cases hfirst : letter = 'U' → digits ≠ []
    · have hread : TextLiteral.escape form (.ofChar '\\') _ = _ := start.escape hfirst []
      rw [List.append_nil] at hread
      rw [hread, hexEscape_error_iff]
      exact .inl (Misses.hexDigits ⟨(List.append_nil _).symm, few, start.digit, rfl⟩)
    · obtain ⟨rfl, hnil⟩ := Classical.not_imp.mp hfirst
      obtain rfl := not_not.mp hnil
      rw [escape_letter start.length]
      rfl
  | lineBreak line => exact absurd line (by decide)
  | symbol unnamed => exact escape_other unnamed _ _
  | firstDigit nonzero =>
    rw [escape_letter rfl, if_pos rfl, longEscape,
      if_neg fun h0 => nonzero (Cluster.eq_ofChar_of_is h0)]
  | @digit letter count digits g rest start few first bad =>
    rw [start.escape first, hexEscape_error_iff]
    have hstop : (g :: rest).head?.any Cluster.isHexDigit = false := by simpa using bad
    exact .inl (Misses.hexDigits ⟨rfl, few, start.digit, hstop⟩)
  | @codePoint letter digits rest start value =>
    have hne : letter = 'U' → digits ≠ [] := by
      rintro rfl rfl
      exact absurd start.length (by decide)
    rw [start.escape hne, hexEscape_error_iff]
    exact .inr ⟨digits, rest, hexDigits_of_isHexDigit form digits rest start.digit, value, rfl⟩

/-! ## Content -/

/-- **Content starts with an item, ends at once, or is broken.** -/
theorem content_cases (form : TextForm) (gs : List Cluster) :
    (∃ item chars after, gs = item.clusters ++ after ∧ Stands form after item chars) ∨
      Ends form gs ∨ ∃ fault, Broken form gs fault := by
  cases gs with
  | nil => exact .inr (.inr ⟨_, .ended⟩)
  | cons g rest =>
    by_cases hends : Ends form (g :: rest)
    · exact .inr (.inl hends)
    · by_cases hslash : g = .ofChar '\\'
      · subst hslash
        cases he : TextLiteral.escape form (.ofChar '\\') rest with
        | error fault => exact .inr (.inr ⟨fault, broken_of_escape he⟩)
        | ok found =>
          obtain ⟨code, rfl, hcode⟩ := escape_decodes he
          exact .inl ⟨.escape code, _, _, rfl, .escape hcode⟩
      · by_cases hline : g.isLineBreak = true → form = template
        · have hopen := Bool.eq_false_iff.mpr (mt ends_cons_iff.mpr hends)
          exact .inl ⟨.raw g, _, rest, rfl, stands_raw_iff.mpr ⟨hslash, hopen, hline⟩⟩
        · obtain ⟨hg, hform⟩ := Classical.not_imp.mp hline
          exact .inr (.inr ⟨_, .lineBreak hg hform⟩)

/-- What is broken is no content. -/
theorem Broken.content (h : Broken form gs fault) : content form gs = .error fault := by
  cases gs with
  | nil =>
    cases h with
    | ended => rw [TextLiteral.content]
  | cons g rest =>
    by_cases hslash : g = .ofChar '\\'
    · subst hslash
      rw [content_backslash, h.escape, Except.bind]
    · cases h with
      | lineBreak line single =>
        have hopen : ¬closes form g rest = true := by
          rw [closes_eq_true_iff]
          rintro (rfl | ⟨htemplate, -⟩)
          · cases form <;> exact absurd line (by decide)
          · exact single htemplate
        rw [TextLiteral.content, if_neg hopen, if_pos (by simp [line, single])]
      | _ => exact absurd rfl hslash

theorem Items.snoc {last : List Char} (h : Items form (item.clusters ++ after) items cs)
    (hitem : Stands form after item last) : Items form after (items ++ [item]) (cs ++ last) := by
  induction h with
  | nil =>
    have hone : Items form after [item] (last ++ []) := .cons hitem .nil
    rwa [List.append_nil] at hone
  | @cons first items chars cs stands _ ih =>
    rw [List.cons_append, List.append_assoc]
    refine .cons ?_ ih
    rwa [clustersOf_append, clustersOf_cons, clustersOf_nil, List.append_nil, List.append_assoc]

/-- Behind the longest row no item stands. -/
theorem LongestItems.not_stands (h : LongestItems form gs items cs after) :
    ¬∃ item chars rest, after = item.clusters ++ rest ∧ Stands form rest item chars := by
  rintro ⟨item, chars, rest, rfl, hitem⟩
  have hlonger := h.longest (items ++ [item]) _ rest (by simp [h.split]) (h.row.snoc hitem)
  rw [List.length_append] at hlonger
  exact Nat.not_succ_le_self _ hlonger

theorem exists_longestItems (form : TextForm) (gs : List Cluster) :
    ∃ items cs after, LongestItems form gs items cs after := by
  -- on the length, as an item takes several clusters at once
  induction hn : gs.length using Nat.strongRecOn generalizing gs with
  | ind n ih =>
    by_cases hitem : ∃ item chars after, gs = item.clusters ++ after ∧ Stands form after item chars
    · obtain ⟨item, chars, after, rfl, hstands⟩ := hitem
      have hlt : after.length < n := by
        have := List.length_pos_iff.mpr item.clusters_ne_nil
        rw [List.length_append] at hn
        omega
      obtain ⟨items, cs, rest, hlongest⟩ := ih _ hlt after rfl
      obtain rfl := hlongest.split
      refine ⟨item :: items, chars ++ cs, rest, by simp, .cons hstands hlongest.row, ?_⟩
      intro items' cs' after' hsplit hrow
      cases hrow with
      | nil => simp
      | cons hstands' hrow' =>
        -- every other row begins with the same item
        rw [clustersOf_cons, List.append_assoc] at hsplit
        obtain ⟨rfl, rfl, hrest⟩ := hstands.unique hstands' hsplit
        exact Nat.succ_le_succ (hlongest.longest _ _ _ hrest hrow')
    · refine ⟨[], [], gs, rfl, .nil, ?_⟩
      intro items' cs' after' hsplit hrow
      cases hrow with
      | nil => simp
      | cons hstands' _ =>
        rw [clustersOf_cons, List.append_assoc] at hsplit
        exact absurd ⟨_, _, _, hsplit, hstands'⟩ hitem

/-- **A literal is rejected for what is broken behind its longest row of items.** -/
theorem content_error_iff :
    content form gs = .error fault ↔
      ∃ items cs after, LongestItems form gs items cs after ∧ Broken form after fault := by
  constructor
  · intro h
    obtain ⟨items, cs, after, hlongest⟩ := exists_longestItems form gs
    refine ⟨items, cs, after, hlongest, ?_⟩
    rw [hlongest.split, content_items hlongest.row] at h
    rcases content_cases form after with hitem | hends | ⟨found, hbroken⟩
    · exact absurd hitem hlongest.not_stands
    · rw [hends.content] at h
      cases h
    · rw [hbroken.content] at h
      obtain rfl := Except.error.inj h
      exact hbroken
  · rintro ⟨items, cs, after, hlongest, hbroken⟩
    rw [hlongest.split, content_items hlongest.row, hbroken.content]
    rfl

end

end TextLiteral

/-! ## The scanner -/

namespace Scanner

open TextLiteral

section

variable {s s' : Scanner} {d : Diagnostic} {form : TextForm} {opening gs : List Cluster}
  {fault : Fault}

/-- Reading a literal fails as its content does. -/
theorem Reads.read_error_iff (h : s.Reads form opening gs) :
    Lexeme.read s.frames.place s.cursor.ahead = .error fault ↔
      content form gs = .error fault := by
  cases h with
  | quoted code plain ahead =>
    rw [ahead, read_quoted code plain]
    cases content form gs <;> simp [Except.map]
  | fragment text =>
    rw [text, read_fragment]
    cases hc : content .template s.cursor.ahead with
    | error found => simp [Except.bind]
    | ok found =>
      obtain ⟨cs, rest⟩ := found
      rw [Except.bind]
      by_cases hempty : cs = []
      · -- the mark that ends the text can be read
        subst hempty
        have hends := endsText_of_content_nil hc fun g => Cursor.ne_nil_of_mem_ahead
        obtain ⟨_, _, _, -, hmark, -⟩ := Lexeme.readCode_of_endsText hends .templateText
        simp [hmark]
      · simp [hempty]

/--
**A literal is reported for what is broken behind its longest row of items, and where that shows.**

The error is placed behind the opening, the items, and what was passed of the broken item; the scan
stops there.
-/
theorem next_text_error_iff (h : s.Reads form opening gs) :
    s.next = (.error d, s') ↔
      ∃ items cs after passed fault, LongestItems form gs items cs after ∧
        Broken form after fault ∧ after = passed ++ fault.rest ∧
        d = fault.cause.diagnostic
          (s.position.passing (opening ++ (clustersOf items ++ passed))) ∧
        s' = s.stopped (opening ++ (clustersOf items ++ passed)) := by
  have hsplit : ∀ {items cs passed rest}, LongestItems form gs items cs (passed ++ rest) →
      s.cursor.ahead = (opening ++ (clustersOf items ++ passed)) ++ rest := by
    intro items cs passed rest hlongest
    rw [h.ahead, hlongest.split, List.append_assoc, List.append_assoc]
  rw [next_eq_error_iff h.blanksIn]
  constructor
  · rintro ⟨front, fault, hahead, hread, rfl, rfl⟩
    obtain ⟨items, cs, after, hlongest, hbroken⟩ :=
      content_error_iff.mp (h.read_error_iff.mp hread)
    obtain ⟨passed, rfl⟩ := hbroken.split
    obtain rfl := List.append_cancel_right (hahead.symm.trans (hsplit hlongest))
    exact ⟨items, cs, _, passed, fault, hlongest, hbroken, rfl, rfl, rfl⟩
  · rintro ⟨items, cs, after, passed, fault, hlongest, hbroken, rfl, rfl, rfl⟩
    have hread := h.read_error_iff.mpr (content_error_iff.mpr ⟨items, cs, _, hlongest, hbroken⟩)
    exact ⟨_, fault, hsplit hlongest, hread, rfl, rfl⟩

end

/-- The second digit of an escape is none. -/
theorem next_text_error_iff_digit :
    ∃ items cs after passed fault,
      LongestItems .string ("a\\x4z\"".toList.map .ofChar) items cs after ∧
        Broken .string after fault ∧ after = passed ++ fault.rest ∧
        (LexicalError.invalidHexDigit (.ofChar 'z')).diagnostic ⟨5, 1, 6⟩
          = fault.cause.diagnostic ((ofText "\"a\\x4z\"").position.passing
            ([.ofChar '"'] ++ (clustersOf items ++ passed))) ∧
        (ofText "\"a\\x4z\"").next.2
          = (ofText "\"a\\x4z\"").stopped ([.ofChar '"'] ++ (clustersOf items ++ passed)) :=
  (next_text_error_iff (s := ofText "\"a\\x4z\"")
    (.quoted (by decide) (by decide) (by decide +kernel))).mp (by decide +kernel)

end Scanner

end Lexis
