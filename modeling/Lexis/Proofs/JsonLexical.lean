import Lexis.Proofs.JsonGrammar

/-!
# Reading words and strings of JSON

Each reader of a part that holds no other values takes exactly what the grammar calls that part:
what it takes is one, and it takes one whatever stands behind (`readString_ok_iff`,
`skipString_ok_iff`).
-/

namespace Lexis.Json

/-! ## Blanks -/

@[simp] theorem blank_nil : Blank [] := fun _ hc => absurd hc List.not_mem_nil

/-- Blanks in front change nothing of what is skipped to. -/
theorem skipBlanks_append {before : List Char} (h : Blank before) (cs : List Char) :
    skipBlanks (before ++ cs) = skipBlanks cs := List.dropWhile_append_of_pos h

theorem skipBlanks_cons {c : Char} (h : isBlank c = false) (cs : List Char) :
    skipBlanks (c :: cs) = c :: cs := by
  rw [skipBlanks, List.dropWhile_cons, h]
  rfl

/-- Behind blanks the reader goes on at the first character that is none. -/
theorem skipBlanks_append_cons {before : List Char} {c : Char} (h : Blank before)
    (hc : isBlank c = false) (cs : List Char) : skipBlanks (before ++ c :: cs) = c :: cs := by
  rw [skipBlanks_append h, skipBlanks_cons hc]

theorem exists_blank (cs : List Char) : ∃ before, Blank before ∧ cs = before ++ skipBlanks cs :=
  ⟨cs.takeWhile isBlank, List.all_eq_true.mp List.all_takeWhile,
    List.takeWhile_append_dropWhile.symm⟩

/-- What is skipped before anything else is blank. -/
theorem exists_blank_of_skipBlanks {cs rest : List Char} (h : skipBlanks cs = rest) :
    ∃ before, Blank before ∧ cs = before ++ rest := by
  rw [← h]
  exact exists_blank cs

/-! ## Words -/

/-- A word is passed letter by letter. -/
theorem passWord_ok_iff {letters cs rest : List Char} :
    passWord letters cs = .ok rest ↔ cs = letters ++ rest := by
  fun_induction passWord letters cs with
  | case1 cs => simp [eq_comm]
  | case2 => simp [refuseBefore]
  | case3 w ws cs ih => rw [ih, List.cons_append, List.cons.injEq, and_iff_right rfl]
  | case4 w ws c cs hne => simp [refuseUpon, hne]

/-! ## Escapes -/

/-- The letters of escapes are those of the grammar. -/
theorem letterEscape?_eq_some_iff {e c : Char} :
    letterEscape? e = some c ↔ (e, c) ∈ shortEscapes := by
  unfold letterEscape? shortEscapes
  split <;> simp_all [eq_comm]

/-- Four hex digits are read to the number that they write. -/
theorem readHex4_ok_iff {cs rest : List Char} {n : Nat} :
    readHex4 cs = .ok (n, rest) ↔ ∃ ds, Hex4 ds n ∧ cs = ds ++ rest := by
  constructor
  · intro h
    unfold readHex4 at h
    split at h
    · next a b c d tail =>
      split at h
      · next hdigits =>
        simp only [Except.ok.injEq, Prod.mk.injEq] at h
        obtain ⟨rfl, rfl⟩ := h
        exact ⟨[a, b, c, d], ⟨rfl, List.all_eq_true.mp hdigits, rfl⟩, rfl⟩
      · cases h
    · split at h <;> cases h
  · rintro ⟨ds, ⟨hlength, hdigit, rfl⟩, rfl⟩
    match ds, hlength with
    | [a, b, c, d], _ =>
      have hdigits : [a, b, c, d].all Alphabet.isHexDigit = true := List.all_eq_true.mpr hdigit
      simp only [List.cons_append, List.nil_append, readHex4, hdigits, if_true]

theorem hexDigitValue_lt {d : Char} (h : Alphabet.isHexDigit d = true) :
    Alphabet.hexDigitValue d < 16 := by
  unfold Alphabet.isHexDigit Alphabet.isDecimalDigit at h
  unfold Alphabet.hexDigitValue Alphabet.isDecimalDigit
  simp only [Bool.or_eq_true, Bool.and_eq_true, decide_eq_true_eq, Char.le_def,
    UInt32.le_iff_toNat_le] at h ⊢
  have h0 : '0'.val.toNat = 48 := rfl
  have h9 : '9'.val.toNat = 57 := rfl
  have ha : 'a'.val.toNat = 97 := rfl
  have hf : 'f'.val.toNat = 102 := rfl
  have hA : 'A'.val.toNat = 65 := rfl
  have hF : 'F'.val.toNat = 70 := rfl
  have hd : d.toNat = d.val.toNat := rfl
  have hz : '0'.toNat = 48 := rfl
  have hza : 'a'.toNat = 97 := rfl
  have hzA : 'A'.toNat = 65 := rfl
  split
  · omega
  · split
    · omega
    · omega

/-- Four digits write a number below the first that needs five. -/
theorem Hex4.lt {ds : List Char} {n : Nat} (h : Hex4 ds n) : n < 0x10000 := by
  obtain ⟨hlength, hdigit, rfl⟩ := h
  match ds, hlength with
  | [a, b, c, d], _ =>
    have ha := hexDigitValue_lt (hdigit a (by simp))
    have hb := hexDigitValue_lt (hdigit b (by simp))
    have hc := hexDigitValue_lt (hdigit c (by simp))
    have hd := hexDigitValue_lt (hdigit d (by simp))
    simp only [Alphabet.hexValue, List.foldl_cons, List.foldl_nil]
    omega

/-- Two surrogates make a scalar value. -/
theorem isValidChar_pairValue {n n' : Nat} (hn : n ≤ 0xDBFF) (hn' : n' ≤ 0xDFFF) :
    (pairValue n n').isValidChar := by
  unfold pairValue Nat.isValidChar
  omega

theorem toNat_ofNat {n : Nat} (h : n.isValidChar) : (Char.ofNat n).toNat = n := by
  rw [Char.ofNat, dif_pos h]
  rfl

/-- The second half of a pair is read to the scalar value of both. -/
theorem readTrail_ok_iff {n : Nat} (hn : n ≤ 0xDBFF) {cs rest : List Char} {c : Char} :
    readTrail n cs = .ok (c, rest) ↔ ∃ ds n', Hex4 ds n' ∧ (0xDC00 ≤ n' ∧ n' ≤ 0xDFFF) ∧
      c.toNat = 0x10000 + (n - 0xD800) * 0x400 + (n' - 0xDC00) ∧
      cs = '\\' :: 'u' :: ds ++ rest := by
  constructor
  · intro h
    unfold readTrail at h
    split at h
    · cases h
    · cases h
    · next tail =>
      split at h
      · cases h
      · next n' rest' hread =>
        obtain ⟨ds, hds, rfl⟩ := readHex4_ok_iff.mp hread
        split at h
        · next htrail =>
          have hn' : 0xDC00 ≤ n' ∧ n' ≤ 0xDFFF := by simpa [isTrailSurrogate] using htrail
          rw [Except.ok.injEq, Prod.mk.injEq] at h
          obtain ⟨hc, rfl⟩ := h
          refine ⟨ds, n', hds, hn', ?_, rfl⟩
          rw [← hc]
          exact toNat_ofNat (isValidChar_pairValue hn hn'.2)
        · cases h
    · cases h
    · cases h
  · rintro ⟨ds, n', hds, hn', hc, rfl⟩
    have htrail : isTrailSurrogate n' = true := by simpa [isTrailSurrogate] using hn'
    have hpair : c.toNat = pairValue n n' := hc
    simp only [List.cons_append, readTrail, readHex4_ok_iff.mpr ⟨ds, hds, rfl⟩, htrail, if_true,
      ← hpair, Char.ofNat_toNat]

/-- A number of four digits that is no surrogate is a scalar value. -/
theorem isValidChar_of_lt {n : Nat} (hlt : n < 0x10000) (ht : isTrailSurrogate n = false)
    (hl : isLeadSurrogate n = false) : n.isValidChar := by
  simp only [isTrailSurrogate, isLeadSurrogate, Bool.and_eq_false_iff, decide_eq_false_iff_not]
    at ht hl
  unfold Nat.isValidChar
  omega

/-- A scalar value is no half of a pair. -/
theorem not_surrogate (c : Char) :
    isTrailSurrogate c.toNat = false ∧ isLeadSurrogate c.toNat = false := by
  have hc : c.toNat < 0xD800 ∨ 0xDFFF < c.toNat ∧ c.toNat < 0x110000 := c.valid
  simp only [isTrailSurrogate, isLeadSurrogate, Bool.and_eq_false_iff, decide_eq_false_iff_not]
  omega

/-- The digits of an escape are read as the character that they stand for, those of a surrogate
together with its other half. -/
theorem readCodeUnits_ok_iff {cs rest : List Char} {c : Char} :
    readCodeUnits cs = .ok (c, rest) ↔
      ∃ item, Stands ('\\' :: 'u' :: item) c ∧ cs = item ++ rest := by
  constructor
  · intro h
    unfold readCodeUnits at h
    split at h
    · cases h
    · next n rest' hread =>
      obtain ⟨ds, hds, rfl⟩ := readHex4_ok_iff.mp hread
      split at h
      · cases h
      · next ht =>
        split at h
        · next hl =>
          have hn : 0xD800 ≤ n ∧ n ≤ 0xDBFF := by simpa [isLeadSurrogate] using hl
          obtain ⟨ds', n', hds', hn', hc, rfl⟩ := (readTrail_ok_iff hn.2).mp h
          exact ⟨ds ++ '\\' :: 'u' :: ds', .pair hds hds' hn hn' hc, by simp⟩
        · next hl =>
          simp only [Except.ok.injEq, Prod.mk.injEq] at h
          obtain ⟨rfl, rfl⟩ := h
          have hvalid : n.isValidChar :=
            isValidChar_of_lt hds.lt (by simpa using ht) (by simpa using hl)
          refine ⟨ds, .code ?_, rfl⟩
          rwa [toNat_ofNat hvalid]
  · rintro ⟨item, hitem, rfl⟩
    -- Only the escapes with digits start with this letter.
    generalize hall : '\\' :: 'u' :: item = all at hitem
    cases hitem with
    | plain h => cases hall
    | short h =>
      cases hall
      exact absurd (letterEscape?_eq_some_iff.mpr h) (by simp [letterEscape?])
    | @code ds _ h =>
      cases hall
      obtain ⟨ht, hl⟩ := not_surrogate c
      simp only [readCodeUnits, readHex4_ok_iff.mpr ⟨_, h, rfl⟩, ht, hl, Bool.false_eq_true,
        if_false, Char.ofNat_toNat]
    | @pair ds ds' n n' _ h h' hn hn' hc =>
      cases hall
      have hl : isLeadSurrogate n = true := by simpa [isLeadSurrogate] using hn
      have ht : isTrailSurrogate n = false := by
        simp only [isTrailSurrogate, Bool.and_eq_false_iff, decide_eq_false_iff_not]
        omega
      have hread : readHex4 (ds ++ '\\' :: 'u' :: ds' ++ rest) =
          .ok (n, '\\' :: 'u' :: ds' ++ rest) :=
        readHex4_ok_iff.mpr ⟨ds, h, List.append_assoc _ _ _⟩
      show readCodeUnits (ds ++ '\\' :: 'u' :: ds' ++ rest) = _
      simp only [readCodeUnits, hread, ht, hl, Bool.false_eq_true, if_false, if_true]
      exact (readTrail_ok_iff hn.2).mpr ⟨ds', n', h', hn', hc, rfl⟩

/-- An escape that is read stands for a character, whatever stands behind it. -/
theorem readEscape_ok_iff {cs rest : List Char} {c : Char} :
    readEscape cs = .ok (c, rest) ↔ ∃ item, Stands ('\\' :: item) c ∧ cs = item ++ rest := by
  constructor
  · intro h
    unfold readEscape at h
    split at h
    · cases h
    · next e tail =>
      split at h
      · next he =>
        simp only [Except.ok.injEq, Prod.mk.injEq] at h
        obtain ⟨rfl, rfl⟩ := h
        exact ⟨[e], .short (letterEscape?_eq_some_iff.mp he), rfl⟩
      · split at h
        · next hu =>
          subst hu
          obtain ⟨item, hitem, rfl⟩ := readCodeUnits_ok_iff.mp h
          exact ⟨'u' :: item, hitem, rfl⟩
        · cases h
  · rintro ⟨item, hitem, rfl⟩
    generalize hall : '\\' :: item = all at hitem
    cases hitem with
    | plain h =>
      cases hall
      exact absurd rfl h.2.1
    | short h =>
      cases hall
      simp only [List.cons_append, List.nil_append, readEscape, letterEscape?_eq_some_iff.mpr h]
    | code h =>
      cases hall
      exact readCodeUnits_ok_iff.mpr ⟨_, .code h, rfl⟩
    | pair h h' hn hn' hc =>
      cases hall
      exact readCodeUnits_ok_iff.mpr ⟨_, .pair h h' hn hn' hc, rfl⟩

/-- An escape that is skipped is well-formed, whatever stands behind it. -/
theorem skipEscape_ok_iff {cs rest : List Char} :
    skipEscape cs = .ok rest ↔ ∃ item, IsItem ('\\' :: item) ∧ cs = item ++ rest := by
  constructor
  · intro h
    unfold skipEscape at h
    split at h
    · cases h
    · next e tail =>
      split at h
      · next he =>
        cases h
        exact ⟨[e], .short (letterEscape?_eq_some_iff.mp he), rfl⟩
      · split at h
        · next hu =>
          -- the four digits are not put together with others, as a reader of the text would do
          subst hu
          split at h
          · cases h
          · next n rest' hread =>
            cases h
            obtain ⟨ds, hds, rfl⟩ := readHex4_ok_iff.mp hread
            exact ⟨'u' :: ds, .code hds, rfl⟩
        · cases h
  · rintro ⟨item, hitem, rfl⟩
    generalize hall : '\\' :: item = all at hitem
    cases hitem with
    | plain h =>
      cases hall
      exact absurd rfl h.2.1
    | short h =>
      cases hall
      simp only [List.cons_append, List.nil_append, skipEscape, letterEscape?_eq_some_iff.mpr h]
    | code h =>
      cases hall
      rw [List.cons_append]
      have hu : letterEscape? 'u' = none := rfl
      simp only [skipEscape, hu, if_true, readHex4_ok_iff.mpr ⟨_, h, rfl⟩]

/-! ## Strings -/

/-- What stands for itself is no quote, no backslash and no control character. -/
theorem plain_iff {c : Char} : Plain c ↔ c ≠ '"' ∧ c ≠ '\\' ∧ isControl c = false := by
  unfold Plain isControl
  rw [decide_eq_false_iff_not, Nat.not_lt]

/-- An item is a character that stands for itself, or begins with a backslash. -/
theorem Stands.plain_or {item : List Char} {c : Char} (h : Stands item c) :
    Plain c ∧ item = [c] ∨ ∃ tail, item = '\\' :: tail := by
  cases h with
  | plain h => exact .inl ⟨h, rfl⟩
  | short _ => exact .inr ⟨_, rfl⟩
  | code _ => exact .inr ⟨_, rfl⟩
  | pair _ _ _ _ _ => exact .inr ⟨_, rfl⟩

theorem IsItem.plain_or {item : List Char} (h : IsItem item) :
    (∃ c, Plain c ∧ item = [c]) ∨ ∃ tail, item = '\\' :: tail := by
  cases h with
  | plain h => exact .inl ⟨_, h, rfl⟩
  | short _ => exact .inr ⟨_, rfl⟩
  | code _ => exact .inr ⟨_, rfl⟩

/-- An item is read as the character that it stands for. -/
theorem readString_append {item cs text rest : List Char} {c : Char} (h : Stands item c)
    (hs : readString cs = .ok (text, rest)) :
    readString (item ++ cs) = .ok (c :: text, rest) := by
  obtain ⟨hc, rfl⟩ | ⟨tail, rfl⟩ := h.plain_or
  · obtain ⟨hquote, hslash, hcontrol⟩ := plain_iff.mp hc
    rw [List.singleton_append, readString]
    simp only [hquote, hslash, hcontrol, hs, Bool.false_eq_true, if_false]
  · have hread : readEscape (tail ++ cs) = .ok (c, cs) := readEscape_ok_iff.mpr ⟨tail, h, rfl⟩
    have hquote : '\\' ≠ '"' := by decide
    rw [List.cons_append, readString, if_neg hquote, if_pos rfl]
    split
    · next hr =>
      rw [hread] at hr
      cases hr
    · next hr =>
      rw [hread] at hr
      cases hr
      rw [hs]

/-- An item is skipped. -/
theorem skipString_append {item : List Char} (h : IsItem item) (cs : List Char) :
    skipString (item ++ cs) = skipString cs := by
  obtain ⟨c, hc, rfl⟩ | ⟨tail, rfl⟩ := h.plain_or
  · obtain ⟨hquote, hslash, hcontrol⟩ := plain_iff.mp hc
    rw [List.singleton_append, skipString]
    simp only [hquote, hslash, hcontrol, Bool.false_eq_true, if_false]
  · have hskip : skipEscape (tail ++ cs) = .ok cs := skipEscape_ok_iff.mpr ⟨tail, h, rfl⟩
    have hquote : '\\' ≠ '"' := by decide
    rw [List.cons_append, skipString, if_neg hquote, if_pos rfl]
    split
    · next hr =>
      rw [hskip] at hr
      cases hr
    · next hr =>
      rw [hskip] at hr
      cases hr
      rfl

/-- A string that is read spells the text, whatever stands behind its closing quote. -/
theorem readString_ok_iff {cs text rest : List Char} :
    readString cs = .ok (text, rest) ↔ ∃ sp, Spells sp text ∧ cs = sp ++ '"' :: rest := by
  constructor
  · intro h
    fun_induction readString cs generalizing text rest with
    | case1 => cases h
    | case2 cs =>
      cases h
      exact ⟨[], .nil, rfl⟩
    | case3 => cases h
    | case4 => cases h
    | case5 cs e tail hescape text' rest' hstring _ ih =>
      cases h
      obtain ⟨item, hitem, rfl⟩ := readEscape_ok_iff.mp hescape
      obtain ⟨sp, hsp, rfl⟩ := ih hstring
      exact ⟨'\\' :: item ++ sp, .cons hitem hsp, by simp⟩
    | case6 => cases h
    | case7 => cases h
    | case8 c cs hquote hslash hcontrol text' rest' hstring ih =>
      cases h
      obtain ⟨sp, hsp, rfl⟩ := ih hstring
      have hc : Plain c := plain_iff.mpr ⟨hquote, hslash, by simpa using hcontrol⟩
      exact ⟨c :: sp, .cons (.plain hc) hsp, rfl⟩
  · rintro ⟨sp, hsp, rfl⟩
    induction hsp with
    | nil => simp [readString]
    | cons hitem _ ih =>
      rw [List.append_assoc]
      exact readString_append hitem ih

/-- A spelling is read up to its closing quote. -/
theorem Spells.readString {sp text : List Char} (h : Spells sp text) (rest : List Char) :
    readString (sp ++ '"' :: rest) = .ok (text, rest) := readString_ok_iff.mpr ⟨sp, h, rfl⟩

/-- A string that is skipped is well-formed, whatever stands behind its closing quote. -/
theorem skipString_ok_iff {cs rest : List Char} :
    skipString cs = .ok rest ↔ ∃ sp, IsString sp ∧ cs = sp ++ '"' :: rest := by
  constructor
  · intro h
    fun_induction skipString cs with
    | case1 => cases h
    | case2 cs =>
      cases h
      exact ⟨[], .nil, rfl⟩
    | case3 => cases h
    | case4 cs tail hescape _ ih =>
      obtain ⟨item, hitem, rfl⟩ := skipEscape_ok_iff.mp hescape
      obtain ⟨sp, hsp, rfl⟩ := ih h
      exact ⟨'\\' :: item ++ sp, .cons hitem hsp, by simp⟩
    | case5 => cases h
    | case6 c cs hquote hslash hcontrol ih =>
      obtain ⟨sp, hsp, rfl⟩ := ih h
      have hc : Plain c := plain_iff.mpr ⟨hquote, hslash, by simpa using hcontrol⟩
      exact ⟨c :: sp, .cons (.plain hc) hsp, rfl⟩
  · rintro ⟨sp, hsp, rfl⟩
    induction hsp with
    | nil => simp [skipString]
    | cons hitem _ ih =>
      rw [List.append_assoc, skipString_append hitem]
      exact ih

end Lexis.Json
