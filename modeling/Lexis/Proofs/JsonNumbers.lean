import Lexis.Proofs.JsonLexical

/-!
# Reading numbers of JSON

A number that is skipped is one of the grammar, and each of them is skipped where nothing follows
that could be a part of it (`skipNumber_append`, `exists_of_skipNumber`). A number that is read as a
whole one is a row of digits that fits 64 bits, and each of these is read so (`readNumber_append`,
`exists_of_readNumber`).
-/

namespace Lexis.Json

/-! ## Digits -/

/-- A test that the ten digits pass is passed by every digit. -/
theorem of_isDigit {p : Char → Bool}
    (hall : ['0', '1', '2', '3', '4', '5', '6', '7', '8', '9'].all p = true) {d : Char}
    (h : isDigit d = true) : p d = true :=
  List.all_eq_true.mp hall d (Alphabet.mem_of_isDecimalDigit h)

/-! ## Where a number ends -/

@[simp] theorem delimits_nil : Delimits [] := fun _ hc => by cases hc

/-- What may stand behind a value: a blank, a comma or a closing bracket. -/
theorem delimits_cons_iff {c : Char} {cs : List Char} :
    Delimits (c :: cs) ↔ isBlank c = true ∨ c = ',' ∨ c = ']' ∨ c = '}' := by
  simp [Delimits]

/-- What delimits a number starts no part of one. -/
theorem Delimits.ends {c : Char} {cs : List Char} (h : Delimits (c :: cs)) :
    isDigit c = false ∧ c ≠ '.' ∧ isExponentMarker c = false := by
  rw [delimits_cons_iff] at h
  simp only [isBlank, Bool.or_eq_true, decide_eq_true_eq] at h
  rcases h with (((rfl | rfl) | rfl) | rfl) | rfl | rfl | rfl <;> decide

/-- No delimiter continues a number. -/
theorem Delimits.not_startsWithDigit {cs : List Char} (h : Delimits cs) :
    startsWithDigit cs = false := by
  cases cs with
  | nil => rfl
  | cons c cs => exact h.ends.1

/-- Blanks delimit, and keep what delimits apart from a number as well. -/
theorem Delimits.append {before cs : List Char} (hb : Blank before) (h : Delimits cs) :
    Delimits (before ++ cs) := by
  cases before with
  | nil => exact h
  | cons b before => exact delimits_cons_iff.mpr (.inl (hb b List.mem_cons_self))

theorem Bracket.not_isBlank_close (b : Bracket) : isBlank b.close = false := by
  cases b <;> rfl

theorem Bracket.close_ne_comma (b : Bracket) : b.close ≠ ',' := by
  cases b <;> decide

/-- What follows the value of an entry delimits it: the bracket that closes, or a comma. -/
theorem Blank.delimits_close {after : List Char} (ha : Blank after) (b : Bracket)
    (rest : List Char) : Delimits (after ++ b.close :: rest) := by
  refine Delimits.append ha (delimits_cons_iff.mpr (.inr (.inr ?_)))
  cases b with
  | list => exact .inl rfl
  | object => exact .inr rfl

theorem Blank.delimits_comma {after : List Char} (ha : Blank after) (rest : List Char) :
    Delimits (after ++ ',' :: rest) :=
  Delimits.append ha (delimits_cons_iff.mpr (.inr (.inl rfl)))

/-- Digits have a first one. -/
theorem Digits.exists_cons {ds : List Char} (h : Digits ds) :
    ∃ d tail, ds = d :: tail ∧ isDigit d = true := by
  obtain ⟨hne, hds⟩ := h
  cases ds with
  | nil => exact absurd rfl hne
  | cons d tail => exact ⟨d, tail, rfl, hds d List.mem_cons_self⟩

theorem Digits.startsWithDigit {ds : List Char} (h : Digits ds) (rest : List Char) :
    startsWithDigit (ds ++ rest) = true := by
  obtain ⟨d, tail, rfl, hd⟩ := h.exists_cons
  exact hd

/-- Dropping digits stops where the row of them ends. -/
theorem dropWhile_isDigit {ds rest : List Char} (hds : ∀ d ∈ ds, isDigit d = true)
    (hrest : startsWithDigit rest = false) : (ds ++ rest).dropWhile isDigit = rest := by
  rw [List.dropWhile_append_of_pos hds]
  cases rest with
  | nil => rfl
  | cons c rest =>
    have hc : ¬isDigit c = true := by simpa [startsWithDigit] using hrest
    rw [List.dropWhile_cons_of_neg hc]

/-- Digits that are dropped are a row of them. -/
theorem exists_digits {cs : List Char} (h : startsWithDigit cs = true) :
    ∃ ds, Digits ds ∧ cs = ds ++ cs.dropWhile isDigit := by
  cases cs with
  | nil => cases h
  | cons c cs =>
    have hc : isDigit c = true := h
    refine ⟨(c :: cs).takeWhile isDigit, ⟨?_, List.all_eq_true.mp List.all_takeWhile⟩,
      List.takeWhile_append_dropWhile.symm⟩
    rw [List.takeWhile_cons_of_pos hc]
    exact List.cons_ne_nil _ _

/-! ## Skipping -/

/-- A sign is passed, and none is missed. -/
theorem exponentSign_append {sign ds : List Char} (hsign : sign = [] ∨ sign = ['+'] ∨ sign = ['-'])
    (hds : Digits ds) (rest : List Char) : (exponentSign (sign ++ ds ++ rest)).2 = ds ++ rest := by
  obtain ⟨d, tail, rfl, hd⟩ := hds.exists_cons
  rcases hsign with rfl | rfl | rfl
  · have hplus : d ≠ '+' := by rintro rfl; exact absurd hd (by decide)
    have hminus : d ≠ '-' := by rintro rfl; exact absurd hd (by decide)
    simp only [List.nil_append, List.cons_append]
    unfold exponentSign
    split
    · next h => exact absurd (List.cons.inj h).1 hplus
    · next h => exact absurd (List.cons.inj h).1 hminus
    · rfl
  · rfl
  · rfl

/-- The digits of an exponent are skipped up to the delimiter. -/
theorem skipExponent_append {sign ds rest : List Char}
    (hsign : sign = [] ∨ sign = ['+'] ∨ sign = ['-']) (hds : Digits ds) (hrest : Delimits rest) :
    skipExponent (sign ++ ds ++ rest) = .ok rest := by
  rw [skipExponent, exponentSign_append hsign hds]
  simp only [hds.startsWithDigit, if_true, dropWhile_isDigit hds.2 hrest.not_startsWithDigit]

theorem isExponentMarker_iff {e : Char} : isExponentMarker e = true ↔ e = 'e' ∨ e = 'E' := by
  simp [isExponentMarker]

/-- An exponent is skipped, or its absence is noticed at the delimiter. -/
theorem skipAfterFraction_append {exponent rest : List Char} (h : IsExponent exponent)
    (hrest : Delimits rest) : skipAfterFraction (exponent ++ rest) = .ok rest := by
  cases h with
  | none =>
    cases rest with
    | nil => rfl
    | cons c rest => simp only [List.nil_append, skipAfterFraction, hrest.ends.2.2,
        Bool.false_eq_true, if_false]
  | some he hsign hds =>
    simp only [List.cons_append, skipAfterFraction, isExponentMarker_iff.mpr he, if_true]
    exact skipExponent_append hsign hds hrest

/-- An exponent begins with its letter, so the digits before it are all there are. -/
theorem IsExponent.not_startsWithDigit {exponent rest : List Char} (h : IsExponent exponent)
    (hrest : Delimits rest) : startsWithDigit (exponent ++ rest) = false := by
  cases h with
  | none => exact hrest.not_startsWithDigit
  | some he _ _ => rcases he with rfl | rfl <;> rfl

/-- A fraction begins with its point, so the digits before it are all there are. -/
theorem IsFraction.not_startsWithDigit {fraction rest : List Char} (h : IsFraction fraction)
    (hrest : startsWithDigit rest = false) : startsWithDigit (fraction ++ rest) = false := by
  cases h with
  | none => exact hrest
  | some _ => rfl

/-- Behind the whole part a fraction and an exponent are skipped. -/
theorem skipAfterWhole_append {fraction exponent rest : List Char} (hf : IsFraction fraction)
    (he : IsExponent exponent) (hrest : Delimits rest) :
    skipAfterWhole (fraction ++ (exponent ++ rest)) = .ok rest := by
  cases hf with
  | none =>
    cases he with
    | none =>
      cases rest with
      | nil => rfl
      | cons c rest =>
        obtain ⟨-, hpoint, hmarker⟩ := hrest.ends
        simp only [List.nil_append, skipAfterWhole, hpoint, hmarker, Bool.false_eq_true, if_false]
    | @some e sign ds he hsign hds =>
      have hpoint : e ≠ '.' := by rcases he with rfl | rfl <;> decide
      simp only [List.nil_append, List.cons_append, skipAfterWhole, hpoint,
        isExponentMarker_iff.mpr he, if_false, if_true]
      exact skipExponent_append hsign hds hrest
  | some hds =>
    simp only [List.cons_append, skipAfterWhole, if_true, hds.startsWithDigit,
      dropWhile_isDigit hds.2 (he.not_startsWithDigit hrest)]
    exact skipAfterFraction_append he hrest

/-- A number is skipped where nothing follows that could be a part of it. -/
theorem skipNumber_append {cs rest : List Char} (h : IsUnsigned cs) (hrest : Delimits rest) :
    skipNumber (cs ++ rest) = .ok rest := by
  obtain ⟨whole, fraction, exponent, hwhole, hf, he, rfl⟩ := h
  have hstop := hf.not_startsWithDigit (he.not_startsWithDigit hrest)
  rw [List.append_assoc, List.append_assoc]
  cases hwhole with
  | zero =>
    simp only [List.cons_append, List.nil_append, skipNumber, if_true, hstop, Bool.false_eq_true,
      if_false]
    exact skipAfterWhole_append hf he hrest
  | digits hd h0 hds =>
    simp only [List.cons_append, skipNumber, h0, hd, if_false, if_true,
      dropWhile_isDigit hds hstop]
    exact skipAfterWhole_append hf he hrest

/-- What is skipped as an exponent is a sign or none, and digits. -/
theorem exists_of_skipExponent {cs rest : List Char} (h : skipExponent cs = .ok rest) :
    ∃ sign ds, (sign = [] ∨ sign = ['+'] ∨ sign = ['-']) ∧ Digits ds ∧
      cs = sign ++ ds ++ rest := by
  obtain ⟨sign, hsign, hcs⟩ : ∃ sign, (sign = [] ∨ sign = ['+'] ∨ sign = ['-']) ∧
      cs = sign ++ (exponentSign cs).2 := by
    unfold exponentSign
    split
    · exact ⟨['+'], by simp, rfl⟩
    · exact ⟨['-'], by simp, rfl⟩
    · exact ⟨[], by simp, rfl⟩
  unfold skipExponent at h
  simp only at h
  split at h
  · next hd =>
    obtain ⟨ds, hds, hdrop⟩ := exists_digits hd
    rw [Except.ok.injEq] at h
    rw [h] at hdrop
    refine ⟨sign, ds, hsign, hds, ?_⟩
    rw [List.append_assoc, ← hdrop]
    exact hcs
  · cases h

/-- What is skipped behind a fraction is an exponent or nothing. -/
theorem exists_of_skipAfterFraction {cs rest : List Char} (h : skipAfterFraction cs = .ok rest) :
    ∃ exponent, IsExponent exponent ∧ cs = exponent ++ rest := by
  unfold skipAfterFraction at h
  split at h
  · cases h
    exact ⟨[], .none, rfl⟩
  · split at h
    · next e tail he =>
      obtain ⟨sign, ds, hsign, hds, rfl⟩ := exists_of_skipExponent h
      exact ⟨_, .some (isExponentMarker_iff.mp he) hsign hds, rfl⟩
    · cases h
      exact ⟨[], .none, rfl⟩

/-- What is skipped behind the whole part is a fraction and an exponent, or less. -/
theorem exists_of_skipAfterWhole {cs rest : List Char} (h : skipAfterWhole cs = .ok rest) :
    ∃ fraction exponent, IsFraction fraction ∧ IsExponent exponent ∧
      cs = fraction ++ (exponent ++ rest) := by
  unfold skipAfterWhole at h
  split at h
  · cases h
    exact ⟨[], [], .none, .none, rfl⟩
  · next c tail =>
    split at h
    · next hc =>
      subst hc
      split at h
      · next hd =>
        obtain ⟨ds, hds, hdrop⟩ := exists_digits hd
        obtain ⟨exponent, he, htail⟩ := exists_of_skipAfterFraction h
        rw [htail] at hdrop
        exact ⟨'.' :: ds, exponent, .some hds, he, by rw [hdrop]; rfl⟩
      · cases h
    · split at h
      · next he =>
        obtain ⟨sign, ds, hsign, hds, rfl⟩ := exists_of_skipExponent h
        exact ⟨[], _, .none, .some (isExponentMarker_iff.mp he) hsign hds, rfl⟩
      · cases h
        exact ⟨[], [], .none, .none, rfl⟩

/-- What is skipped as a number is one. -/
theorem exists_of_skipNumber {cs rest : List Char} (h : skipNumber cs = .ok rest) :
    ∃ ds, IsUnsigned ds ∧ cs = ds ++ rest := by
  unfold skipNumber at h
  split at h
  · cases h
  · next c tail =>
    split at h
    · next hc =>
      subst hc
      split at h
      · cases h
      · obtain ⟨fraction, exponent, hf, he, rfl⟩ := exists_of_skipAfterWhole h
        exact ⟨_, ⟨_, _, _, .zero, hf, he, rfl⟩, by simp⟩
    · next h0 =>
      split at h
      · next hd =>
        obtain ⟨fraction, exponent, hf, he, hdrop⟩ := exists_of_skipAfterWhole h
        have hds : ∀ d ∈ tail.takeWhile isDigit, isDigit d = true :=
          List.all_eq_true.mp List.all_takeWhile
        refine ⟨_, ⟨_, _, _, .digits hd h0 hds, hf, he, rfl⟩, ?_⟩
        rw [List.append_assoc, List.append_assoc, ← hdrop, List.cons_append,
          List.takeWhile_append_dropWhile]
      · cases h

/-! ## Reading whole numbers -/

section NotWhole

variable {negative minus : Bool} {digits value count : Nat} {start exponent : Int}
variable {cs rest : List Char} {n : Nat}

/-- A float is no whole number, and no function that goes on to one gives a whole number. -/
theorem floatOf_ne_whole : floatOf negative digits exponent cs ≠ .ok (.whole n, rest) := by
  unfold floatOf
  split <;> simp [refuseBefore]

theorem exponentDigits_ne_whole :
    exponentDigits negative digits start minus value cs ≠ .ok (.whole n, rest) := by
  fun_induction exponentDigits negative digits start minus value cs with
  | case1 => exact floatOf_ne_whole
  | case2 => simp [refuseBefore]
  | case3 => simp
  | case4 _ _ _ _ _ _ ih => exact ih
  | case5 => exact floatOf_ne_whole

theorem readExponent_ne_whole :
    readExponent negative digits start cs ≠ .ok (.whole n, rest) := by
  unfold readExponent
  simp only
  split
  · simp [refuseBefore]
  · split
    · exact exponentDigits_ne_whole
    · simp [refuseUpon]

theorem afterFraction_ne_whole :
    afterFraction negative digits exponent cs ≠ .ok (.whole n, rest) := by
  unfold afterFraction
  split
  · exact floatOf_ne_whole
  · split
    · exact readExponent_ne_whole
    · exact floatOf_ne_whole

theorem fraction_ne_whole :
    fraction negative digits exponent count cs ≠ .ok (.whole n, rest) := by
  fun_induction fraction negative digits exponent count cs with
  | case1 => simp [refuseBefore]
  | case2 => exact floatOf_ne_whole
  | case3 => exact afterFraction_ne_whole
  | case4 _ _ _ _ _ _ _ ih => exact ih
  | case5 => simp [refuseUpon]
  | case6 => exact afterFraction_ne_whole

theorem longWhole_ne_whole : longWhole negative digits cs ≠ .ok (.whole n, rest) := by
  unfold longWhole
  simp only
  split
  · exact floatOf_ne_whole
  · split
    · exact fraction_ne_whole
    · split
      · exact readExponent_ne_whole
      · exact floatOf_ne_whole

/-- Only numbers without a minus sign are whole. -/
theorem settle_eq_whole (h : settle negative digits = .whole n) :
    negative = false ∧ n = digits := by
  unfold settle at h
  cases negative with
  | false => exact ⟨rfl, (Number.whole.inj h).symm⟩
  | true =>
    rw [if_neg (by decide)] at h
    split at h <;> cases h

/-- Gathered digits are a whole number only without a sign, and if nothing more is taken. -/
theorem afterWhole_eq_whole (h : afterWhole negative digits cs = .ok (.whole n, rest)) :
    negative = false ∧ n = digits ∧ rest = cs := by
  unfold afterWhole at h
  split at h
  · rw [Except.ok.injEq, Prod.mk.injEq] at h
    obtain ⟨hneg, hn⟩ := settle_eq_whole h.1
    exact ⟨hneg, hn, h.2.symm⟩
  · split at h
    · exact absurd h fraction_ne_whole
    · split at h
      · exact absurd h readExponent_ne_whole
      · rw [Except.ok.injEq, Prod.mk.injEq] at h
        obtain ⟨hneg, hn⟩ := settle_eq_whole h.1
        exact ⟨hneg, hn, h.2.symm⟩

end NotWhole

/-- What a row of digits makes of the number written so far. -/
def gathered (digits : Nat) (ds : List Char) : Nat := Nat.ofDigitChars 10 ds digits

theorem gathered_nil (digits : Nat) : gathered digits [] = digits := Nat.ofDigitChars_nil

theorem gathered_cons (digits : Nat) (d : Char) (ds : List Char) :
    gathered digits (d :: ds) = gathered (digits * 10 + digitValue d) ds := by
  rw [gathered, Nat.ofDigitChars_cons, Nat.mul_comm 10]
  rfl

/-- More digits make no smaller number. -/
theorem le_gathered (digits : Nat) (ds : List Char) : digits ≤ gathered digits ds := by
  induction ds generalizing digits with
  | nil => exact Nat.le_of_eq (gathered_nil digits).symm
  | cons d ds ih =>
    rw [gathered_cons]
    have := ih (digits * 10 + digitValue d)
    omega

/-- The number that a row of digits writes. -/
def decimal (ds : List Char) : Nat := gathered 0 ds

/-- The first digit starts the number that the others are added to. -/
theorem decimal_cons (d : Char) (ds : List Char) :
    decimal (d :: ds) = gathered (digitValue d) ds := by
  rw [decimal, gathered_cons, Nat.zero_mul, Nat.zero_add]

/-- A whole number gathers its digits one by one and stays below the bound. -/
theorem wholeDigits_eq_whole {negative : Bool} {digits n : Nat} {cs rest : List Char}
    (hmax : digits ≤ maxWhole) (h : wholeDigits negative digits cs = .ok (.whole n, rest)) :
    negative = false ∧ n ≤ maxWhole ∧
      ∃ ds, (∀ d ∈ ds, isDigit d = true) ∧ n = gathered digits ds ∧ cs = ds ++ rest := by
  fun_induction wholeDigits negative digits cs with
  | case1 digits =>
    obtain ⟨hneg, rfl, rfl⟩ := afterWhole_eq_whole h
    exact ⟨hneg, hmax, [], by simp, (gathered_nil _).symm, rfl⟩
  | case2 => exact absurd h longWhole_ne_whole
  | case3 digits d cs hd next hnext ih =>
    obtain ⟨hneg, hn, ds, hds, rfl, rfl⟩ := ih (Nat.not_lt.mp hnext) h
    exact ⟨hneg, hn, d :: ds, List.forall_mem_cons.mpr ⟨hd, hds⟩, (gathered_cons _ _ _).symm, rfl⟩
  | case4 digits c cs _ =>
    obtain ⟨hneg, rfl, rfl⟩ := afterWhole_eq_whole h
    exact ⟨hneg, hmax, [], by simp, (gathered_nil _).symm, rfl⟩

/-- A digit that is read fits 64 bits. -/
theorem digitValue_le {d : Char} (h : isDigit d = true) : digitValue d ≤ maxWhole :=
  of_decide_eq_true (of_isDigit (p := fun d => decide (digitValue d ≤ maxWhole)) rfl h)

/-- A number that is read as a whole one has no sign and fits 64 bits. -/
theorem exists_of_readNumber {negative : Bool} {n : Nat} {cs rest : List Char}
    (h : readNumber negative cs = .ok (.whole n, rest)) :
    negative = false ∧ n ≤ maxWhole ∧ ∃ ds, IsWhole ds ∧ decimal ds = n ∧ cs = ds ++ rest := by
  unfold readNumber at h
  split at h
  · cases h
  · next c tail =>
    split at h
    · next hc =>
      subst hc
      split at h
      · cases h
      · obtain ⟨hneg, rfl, rfl⟩ := afterWhole_eq_whole h
        exact ⟨hneg, Nat.zero_le _, ['0'], .zero, rfl, rfl⟩
    · next h0 =>
      split at h
      · next hd =>
        obtain ⟨hneg, hn, ds, hds, rfl, rfl⟩ := wholeDigits_eq_whole (digitValue_le hd) h
        exact ⟨hneg, hn, c :: ds, .digits hd h0 hds, decimal_cons _ _, rfl⟩
      · cases h

theorem afterWhole_of_delimits {digits : Nat} {rest : List Char} (hrest : Delimits rest) :
    afterWhole false digits rest = .ok (.whole digits, rest) := by
  cases rest with
  | nil => rfl
  | cons c rest =>
    obtain ⟨-, hpoint, hmarker⟩ := hrest.ends
    simp only [afterWhole, hpoint, hmarker, Bool.false_eq_true, if_false]
    rfl

/-- Digits of a number below the bound are gathered up to the delimiter. -/
theorem wholeDigits_append {digits : Nat} {ds rest : List Char}
    (hds : ∀ d ∈ ds, isDigit d = true) (hmax : gathered digits ds ≤ maxWhole)
    (hrest : Delimits rest) :
    wholeDigits false digits (ds ++ rest) = .ok (.whole (gathered digits ds), rest) := by
  induction ds generalizing digits with
  | nil =>
    rw [gathered_nil, List.nil_append]
    cases rest with
    | nil => rfl
    | cons c rest =>
      rw [wholeDigits, if_neg (by simp [hrest.ends.1])]
      exact afterWhole_of_delimits hrest
  | cons d ds ih =>
    obtain ⟨hd, hds⟩ := List.forall_mem_cons.mp hds
    rw [gathered_cons] at hmax ⊢
    have hnext : ¬maxWhole < digits * 10 + digitValue d :=
      Nat.not_lt.mpr (Nat.le_trans (le_gathered _ _) hmax)
    rw [List.cons_append, wholeDigits, if_pos hd]
    simp only [hnext, if_false]
    exact ih hds hmax

/-- Digits that fit 64 bits are read as the whole number that they write. -/
theorem readNumber_append {ds rest : List Char} (h : IsWhole ds) (hmax : decimal ds ≤ maxWhole)
    (hrest : Delimits rest) :
    readNumber false (ds ++ rest) = .ok (.whole (decimal ds), rest) := by
  cases h with
  | zero =>
    simp only [List.cons_append, List.nil_append, readNumber, if_true,
      hrest.not_startsWithDigit, Bool.false_eq_true, if_false]
    exact afterWhole_of_delimits hrest
  | digits hd h0 hds =>
    rw [decimal_cons] at hmax ⊢
    simp only [List.cons_append, readNumber, h0, hd, if_false, if_true]
    exact wholeDigits_append hds hmax hrest

end Lexis.Json
