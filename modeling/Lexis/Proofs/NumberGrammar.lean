import Lexis.Proofs.Numeral
import Mathlib.Data.List.Basic
import Mathlib.Tactic.Push

/-!
# The grammar of numbers

What a number may be (`Writes`), where it stops (`StopsBefore`) and which form it has (`formOf`). The
digits, the markers and the forms are written out here, and nothing is said through the reader: that
the reader knows the same ones is shown first (`Radix.accepts_iff`, `Radix.ofMarker?_eq_some_iff`).
A number without a marker is decimal and may have a fraction and an exponent; one with a marker may
have a fraction, and its digits may be missing.
-/

namespace Lexis.Number

/-! ## The grammar -/

/-- The digits that a radix has. -/
def Radix.digits : Radix → List Char
  | binary => ['0', '1']
  | octal => ['0', '1', '2', '3', '4', '5', '6', '7']
  | decimal => ['0', '1', '2', '3', '4', '5', '6', '7', '8', '9']
  | hex => ['0', '1', '2', '3', '4', '5', '6', '7', '8', '9',
      'a', 'b', 'c', 'd', 'e', 'f', 'A', 'B', 'C', 'D', 'E', 'F']

/-- The letters that choose a radix behind a zero. Nothing chooses decimals. -/
def Radix.markers : Radix → List Char
  | binary => ['b', 'B']
  | octal => ['o', 'O']
  | decimal => []
  | hex => ['x', 'X']

/-- All letters that choose a radix. -/
def markers : List Char := ['b', 'B', 'o', 'O', 'x', 'X']

/-- What may follow a lone zero, but not several of them. -/
def loneZeroOnly : List Char := markers ++ ['.', 'e']

/-- Digits of a radix. -/
def Digits (radix : Radix) (ds : List Char) : Prop := ∀ d ∈ ds, d ∈ radix.digits

/-- Two zeros or more, and nothing else. -/
def SeveralZeros (ds : List Char) : Prop := 2 ≤ ds.length ∧ ∀ d ∈ ds, d = '0'

/-- An exponent: its letter, a sign or none, and at least one digit. -/
inductive Exponent : List Char → Prop
  | mk {sign es : List Char} : sign ∈ signs → Digits .decimal es → es ≠ [] →
      Exponent ('e' :: (sign ++ es))

/-- What may follow the whole part of a number: a fraction, an exponent, or both. -/
inductive Tail : Radix → List Char → Prop
  | nothing {radix : Radix} : Tail radix []
  | fraction {radix : Radix} {fs : List Char} : Digits radix fs → Tail radix ('.' :: fs)
  | exponent {xs : List Char} : Exponent xs → Tail .decimal xs
  | fractionExponent {fs xs : List Char} : Digits .decimal fs → fs ≠ [] → Exponent xs →
      Tail .decimal ('.' :: (fs ++ xs))

/-- The numbers of a radix. Those that are written without a marker are decimal. -/
inductive Writes : Radix → List Char → Prop
  | unmarked {whole tail : List Char} : Digits .decimal whole → whole ≠ [] → Tail .decimal tail →
      (SeveralZeros whole → tail = []) → Writes .decimal (whole ++ tail)
  | marked {radix : Radix} {marker : Char} {whole tail : List Char} :
      marker ∈ radix.markers → Digits radix whole → Tail radix tail →
      Writes radix ('0' :: marker :: (whole ++ tail))

/-- A number stops before these clusters. -/
structure StopsBefore (radix : Radix) (w : List Char) (rest : List Cluster) : Prop where
  digit : ∀ d ∈ radix.digits, Cluster.nextIs rest d = false
  exponent : radix ≠ .hex → Cluster.nextIs rest 'e' = false
  /-- A point follows only in front of another one, and not behind one. -/
  point : Cluster.nextIs rest '.' = true →
    w.getLast? ≠ some '.' ∧ Cluster.nextIs rest.tail '.' = true
  marker : w = ['0'] → ∀ c ∈ markers, Cluster.nextIs rest c = false
  zeros : SeveralZeros w → ∀ c ∈ loneZeroOnly, Cluster.nextIs rest c = false

/-- The form of a number of a radix, with the one it has if it is an integer. -/
def formWith (radix : Radix) (integer : NumberForm) (w : List Char) : NumberForm :=
  if radix = .decimal ∧ 'e' ∈ w then .exponent
  else if '.' ∈ w then .float
  else integer

/-- The form of an integer: one without a marker is octal if it starts with a zero. -/
def integerOf (radix : Radix) (w : List Char) : NumberForm :=
  match radix with
  | .binary => .binaryInteger
  | .octal => .octalInteger
  | .decimal => if w.head? = some '0' then .octalInteger else .decimalInteger
  | .hex => .hexInteger

/-- The form of a number. -/
def formOf (radix : Radix) (w : List Char) : NumberForm := formWith radix (integerOf radix w) w

/-- The clusters `gs` begin with the number `w` of a radix, and it stops before `rest`. -/
structure StartsWith (gs : List Cluster) (radix : Radix) (w : List Char) (rest : List Cluster) :
    Prop where
  split : gs = w.map .ofChar ++ rest
  writes : Writes radix w
  stops : StopsBefore radix w rest

/-! ## What the reader knows of digits and markers -/

/-- **The reader takes the digits of a radix for digits, and nothing else.** -/
theorem Radix.accepts_iff {radix : Radix} {d : Char} :
    radix.accepts (.ofChar d) = true ↔ d ∈ radix.digits := by
  constructor
  · intro h
    cases radix with
    | binary => exact Alphabet.mem_of_isBinaryDigit h
    | octal => exact Alphabet.mem_of_isOctalDigit h
    | decimal => exact Alphabet.mem_of_isDecimalDigit h
    | hex => exact Alphabet.mem_of_isHexDigit h
  · -- the digits are gone through one by one, which a statement on all characters would not be
    have hall : radix.digits.Forall fun e => radix.accepts (.ofChar e) = true := by
      cases radix <;> decide
    exact List.forall_iff_forall_mem.mp hall d

/-- **A letter chooses the radix that it is a marker of.** -/
theorem Radix.ofMarker?_eq_some_iff {radix : Radix} {c : Char} :
    ofMarker? c = some radix ↔ c ∈ radix.markers := by
  constructor
  · intro h
    simp only [ofMarker?, Bool.or_eq_true, decide_eq_true_eq] at h
    repeat' split at h
    · next hc =>
      obtain rfl := Option.some.inj h
      simpa [markers] using hc
    · next hc =>
      obtain rfl := Option.some.inj h
      simpa [markers] using hc
    · next hc =>
      obtain rfl := Option.some.inj h
      simpa [markers] using hc
    · simp at h
  · have hall : radix.markers.Forall fun e => ofMarker? e = some radix := by cases radix <;> decide
    exact List.forall_iff_forall_mem.mp hall c

section

variable {radix : Radix} {gs : List Cluster}

/-- No cluster of a class comes next if none of its characters does. -/
theorem any_head?_eq_false_iff {p : Cluster → Bool} {cs : List Char}
    (hp : ∀ g : Cluster, p g = true ↔ ∃ c ∈ cs, g = .ofChar c) :
    gs.head?.any p = false ↔ ∀ c ∈ cs, Cluster.nextIs gs c = false := by
  rw [← Bool.not_eq_true, Option.any_eq_true]
  constructor
  · intro h c hc
    refine Bool.eq_false_iff.mpr fun hnext => ?_
    obtain ⟨tail, rfl⟩ := Cluster.eq_cons_of_nextIs hnext
    exact h ⟨.ofChar c, rfl, (hp _).mpr ⟨c, hc, rfl⟩⟩
  · rintro h ⟨g, hg, hclass⟩
    obtain ⟨c, hc, rfl⟩ := (hp g).mp hclass
    obtain ⟨tail, rfl⟩ := List.head?_eq_some_iff.mp hg
    exact absurd (h c hc) (by simp [Cluster.nextIs])

/-- No digit of a radix comes next. -/
theorem any_accepts_eq_false_iff : gs.head?.any radix.accepts = false ↔
    ∀ d ∈ radix.digits, Cluster.nextIs gs d = false := by
  refine any_head?_eq_false_iff fun g => ⟨fun hg => ?_, ?_⟩
  · obtain ⟨d, rfl⟩ := eq_ofChar_of_accepts hg
    exact ⟨d, Radix.accepts_iff.mp hg, rfl⟩
  · rintro ⟨d, hd, rfl⟩
    exact Radix.accepts_iff.mpr hd

/-- The reader takes the letters of all radixes for markers. -/
theorem isRadixMarker_iff {g : Cluster} :
    g.isRadixMarker = true ↔ ∃ c ∈ markers, g = .ofChar c := by
  constructor
  · intro hg
    obtain ⟨c, rfl, hc⟩ := Cluster.eq_ofChar_of_isOne hg
    exact ⟨c, List.contains_iff_mem.mp hc, rfl⟩
  · rintro ⟨c, hc, rfl⟩
    exact List.contains_iff_mem.mpr hc

/-- No marker comes next. -/
theorem any_isRadixMarker_eq_false_iff : gs.head?.any Cluster.isRadixMarker = false ↔
    ∀ c ∈ markers, Cluster.nextIs gs c = false :=
  any_head?_eq_false_iff fun _ => isRadixMarker_iff

/-- What the reader rejects several zeros for is what may follow a lone zero only. -/
theorem rejectsZeros_eq_false_iff : rejectsZeros gs = false ↔
    ∀ c ∈ loneZeroOnly, Cluster.nextIs gs c = false := by
  refine any_head?_eq_false_iff fun g => ⟨fun hg => ?_, ?_⟩
  · rcases Bool.or_eq_true_iff.mp hg with hg | hletter
    · rcases Bool.or_eq_true_iff.mp hg with hmarker | hpoint
      · obtain ⟨c, hc, rfl⟩ := isRadixMarker_iff.mp hmarker
        exact ⟨c, List.mem_append_left _ hc, rfl⟩
      · exact ⟨'.', by decide, Cluster.eq_ofChar_of_is hpoint⟩
    · exact ⟨'e', by decide, Cluster.eq_ofChar_of_is hletter⟩
  · have hall : loneZeroOnly.Forall fun c => ((Cluster.ofChar c).isRadixMarker
        || (Cluster.ofChar c).is '.' || (Cluster.ofChar c).is 'e') = true := by decide
    rintro ⟨c, hc, rfl⟩
    exact List.forall_iff_forall_mem.mp hall c hc

/-- The same the other way: what the reader rejects several zeros for. -/
theorem rejectsZeros_eq_true_iff : rejectsZeros gs = true ↔
    ∃ c ∈ loneZeroOnly, Cluster.nextIs gs c = true := by
  rw [← Bool.not_eq_false, rejectsZeros_eq_false_iff]
  push Not
  simp only [Bool.not_eq_false]

end

/-! ## Digits -/

section

variable {radix : Radix} {ds : List Char}

/-- A point is a digit of no radix. -/
theorem point_notMem_digits (radix : Radix) : '.' ∉ radix.digits := by
  cases radix <;> decide

/-- The letter of exponents is a digit of hexadecimals only. -/
theorem letter_notMem_digits (h : radix ≠ .hex) : 'e' ∉ radix.digits := by
  cases radix with
  | binary => decide
  | octal => decide
  | decimal => decide
  | hex => exact absurd rfl h

/-- No reader of digits takes a point. -/
theorem accepts_point (radix : Radix) : radix.accepts (.ofChar '.') = false :=
  Bool.eq_false_iff.mpr fun h => point_notMem_digits radix (Radix.accepts_iff.mp h)

theorem is_point_of_accepts {g : Cluster} (h : radix.accepts g = true) : g.is '.' = false := by
  refine Bool.eq_false_iff.mpr fun hg => ?_
  rw [Cluster.eq_ofChar_of_is hg, accepts_point] at h
  exact Bool.false_ne_true h

theorem is_letter_of_accepts {g : Cluster} (hr : radix ≠ .hex) (h : radix.accepts g = true) :
    g.is 'e' = false := by
  refine Bool.eq_false_iff.mpr fun hg => ?_
  rw [Cluster.eq_ofChar_of_is hg] at h
  exact letter_notMem_digits hr (Radix.accepts_iff.mp h)

/-- Decimal digits may follow any number of zeros. -/
theorem notMem_loneZeroOnly_of_digit {d : Char} (h : d ∈ Radix.decimal.digits) :
    d ∉ loneZeroOnly := by
  have hall : Radix.decimal.digits.Forall fun e => e ∉ loneZeroOnly := by decide
  exact List.forall_iff_forall_mem.mp hall d h

/-- Decimal digits choose no radix. -/
theorem notMem_markers_of_digit {d : Char} (h : d ∈ Radix.decimal.digits) : d ∉ markers :=
  fun hmem => notMem_loneZeroOnly_of_digit h (List.mem_append_left _ hmem)

/-- A character is none of those that it is not among. -/
theorem is_eq_false_of_notMem {cs : List Char} {d : Char} (h : d ∉ cs) :
    ∀ c ∈ cs, (Cluster.ofChar d).is c = false := by
  intro c hc
  rw [Cluster.is_ofChar, beq_eq_false_iff_ne]
  rintro rfl
  exact h hc

/-- The reader takes every digit of a row of them. -/
theorem Digits.accepts {d : Char} (h : Digits radix ds) (hd : d ∈ ds) :
    radix.accepts (.ofChar d) = true :=
  Radix.accepts_iff.mpr (h d hd)

theorem Digits.point_notMem (h : Digits radix ds) : '.' ∉ ds :=
  fun hmem => point_notMem_digits radix (h '.' hmem)

theorem Digits.letter_notMem (hr : radix ≠ .hex) (h : Digits radix ds) : 'e' ∉ ds :=
  fun hmem => letter_notMem_digits hr (h 'e' hmem)

/-- Digits behind digits are digits. -/
theorem Digits.append {es : List Char} (hds : Digits radix ds) (hes : Digits radix es) :
    Digits radix (ds ++ es) := by
  intro d hd
  rcases List.mem_append.mp hd with hd | hd
  · exact hds d hd
  · exact hes d hd

theorem digits_cons {d : Char} {whole : List Char} (hd : d ∈ Radix.decimal.digits)
    (h : Digits .decimal whole) : Digits .decimal (d :: whole) :=
  List.forall_mem_cons.mpr ⟨hd, h⟩

theorem digits_replicate (n : Nat) : Digits .decimal (List.replicate n '0') := by
  intro d hd
  rw [List.eq_of_mem_replicate hd]
  decide

end

/-! ## Fractions and exponents -/

section

variable {radix : Radix} {front tail xs : List Char}

/-- An exponent has its letter. -/
theorem Exponent.letter_mem (h : Exponent xs) : 'e' ∈ xs := by
  cases h with
  | mk => exact List.mem_cons_self

/-- An exponent has no point. -/
theorem Exponent.point_notMem (h : Exponent xs) : '.' ∉ xs := by
  cases h with
  | mk hsign hes _ =>
    have hpoint : ∀ sign ∈ signs, '.' ∉ sign := by decide
    simp [hpoint _ hsign, hes.point_notMem]

/-- What follows the whole part begins with a point or with the letter of exponents. -/
theorem Tail.eq_nil_or (h : Tail radix tail) :
    tail = [] ∨ ∃ c cs, tail = c :: cs ∧ (c = '.' ∨ c = 'e') := by
  cases h with
  | nothing => exact .inl rfl
  | fraction => exact .inr ⟨_, _, rfl, .inl rfl⟩
  | exponent hx =>
    cases hx with
    | mk => exact .inr ⟨_, _, rfl, .inr rfl⟩
  | fractionExponent => exact .inr ⟨_, _, rfl, .inl rfl⟩

/-- Behind something without a point no text ends in one. -/
theorem getLast?_ne_point {ys : List Char} (hne : ys ≠ []) (h : '.' ∉ ys) :
    (xs ++ ys).getLast? ≠ some '.' := by
  rw [List.getLast?_append, List.getLast?_eq_some_getLast hne, Option.some_or]
  intro hlast
  exact h (Option.some.inj hlast ▸ List.getLast_mem hne)

/-- A number ends in a point only if its fraction is empty. -/
theorem getLast?_eq_point_iff (hfront : '.' ∉ front) (h : Tail radix tail) :
    (front ++ tail).getLast? = some '.' ↔ tail = ['.'] := by
  constructor
  · intro hlast
    cases h with
    | nothing =>
      rw [List.append_nil] at hlast
      exact absurd (List.mem_of_getLast? hlast) hfront
    | @fraction _ fs hfs =>
      cases fs with
      | nil => rfl
      | cons d fs =>
        rw [List.append_cons] at hlast
        exact absurd hlast (getLast?_ne_point (List.cons_ne_nil d fs) hfs.point_notMem)
    | exponent hx =>
      have hne := List.ne_nil_of_mem hx.letter_mem
      exact absurd hlast (getLast?_ne_point hne hx.point_notMem)
    | fractionExponent _ _ hx =>
      -- the exponent stands last, and it has no point
      have hne := List.ne_nil_of_mem hx.letter_mem
      rw [List.append_cons, ← List.append_assoc] at hlast
      exact absurd hlast (getLast?_ne_point hne hx.point_notMem)
  · rintro rfl
    rw [List.getLast?_append]
    rfl

end

/-! ## Leading zeros and radix markers -/

/-- A zero and zeros behind it are several if there is one behind it. -/
theorem severalZeros_replicate (n : Nat) : SeveralZeros ('0' :: List.replicate n '0') ↔ n ≠ 0 := by
  constructor
  · rintro ⟨hlen, -⟩
    simp only [List.length_cons, List.length_replicate] at hlen
    omega
  · intro hn
    refine ⟨?_, ?_⟩
    · simp only [List.length_cons, List.length_replicate]
      omega
    · intro d hd
      rcases List.mem_cons.mp hd with rfl | hd
      · rfl
      · exact List.eq_of_mem_replicate hd

theorem not_severalZeros {ds : List Char} {d : Char} (hmem : d ∈ ds) (hd : d ≠ '0') :
    ¬SeveralZeros ds :=
  fun h => hd (h.2 d hmem)

/-- The zeros at the front of digits, and the rest. -/
theorem exists_zeros (ds : List Char) :
    ∃ n ds', ds = List.replicate n '0' ++ ds' ∧ ds'.head? ≠ some '0' := by
  induction ds with
  | nil => exact ⟨0, [], rfl, by simp⟩
  | cons d ds ih =>
    by_cases hd : d = '0'
    · obtain ⟨n, ds', rfl, hds'⟩ := ih
      exact ⟨n + 1, ds', by rw [hd, List.replicate_succ, List.cons_append], hds'⟩
    · exact ⟨0, d :: ds, rfl, by simpa using hd⟩

/-- A number with a marker is not decimal. -/
theorem ne_decimal_of_marker {marker : Char} {radix : Radix} (h : marker ∈ radix.markers) :
    radix ≠ .decimal := by
  rintro rfl
  exact absurd h List.not_mem_nil

/-- Neither the zero nor the marker is a point. -/
theorem point_notMem_marked {marker : Char} {radix : Radix} (hm : marker ∈ radix.markers) :
    '.' ∉ ['0', marker] := by
  have hall : radix.markers.Forall fun e => '.' ∉ ['0', e] := by cases radix <;> decide
  exact List.forall_iff_forall_mem.mp hall marker hm

/-- A marker of some radix is a marker. -/
theorem mem_markers {marker : Char} {radix : Radix} (hm : marker ∈ radix.markers) :
    marker ∈ markers := by
  have hall : radix.markers.Forall fun e => e ∈ markers := by cases radix <;> decide
  exact List.forall_iff_forall_mem.mp hall marker hm

/-- A marker is no zero, so a number with one does not begin with several. -/
theorem marker_ne_zero {marker : Char} {radix : Radix} (hm : marker ∈ radix.markers) :
    marker ≠ '0' := by
  have hall : radix.markers.Forall fun e => e ≠ '0' := by cases radix <;> decide
  exact List.forall_iff_forall_mem.mp hall marker hm

/-! ## Forms -/

section

variable {radix : Radix} {front tail : List Char}

/-- Without a tail a number is an integer. -/
theorem formWith_nil (radix : Radix) (integer : NumberForm) :
    formWith radix integer [] = integer := by
  simp [formWith]

/-- A fraction makes a number a float. -/
theorem formWith_fraction {fs : List Char} (h : Digits radix fs) (integer : NumberForm) :
    formWith radix integer ('.' :: fs) = .float := by
  have hletter : ¬(radix = .decimal ∧ 'e' ∈ '.' :: fs) := by
    rintro ⟨rfl, hmem⟩
    rcases List.mem_cons.mp hmem with hmem | hmem
    · exact absurd hmem (by decide)
    · exact h.letter_notMem (by decide) hmem
  rw [formWith, if_neg hletter, if_pos List.mem_cons_self]

/-- An exponent gives a decimal number its form, with a fraction or without. -/
theorem formWith_letter {w : List Char} (h : 'e' ∈ w) (integer : NumberForm) :
    formWith .decimal integer w = .exponent := by
  rw [formWith, if_pos ⟨rfl, h⟩]

/-- What stands before a fraction or an exponent decides only which integer it would be. -/
theorem formOf_append (hpoint : '.' ∉ front) (hletter : radix = .decimal → 'e' ∉ front) :
    formOf radix (front ++ tail) = formWith radix (integerOf radix (front ++ tail)) tail := by
  have hmem : radix = .decimal ∧ 'e' ∈ front ++ tail ↔ radix = .decimal ∧ 'e' ∈ tail := by
    refine and_congr_right fun hr => ?_
    simp [hletter hr]
  have hmem' : '.' ∈ front ++ tail ↔ '.' ∈ tail := by simp [hpoint]
  simp only [formOf, formWith, hmem, hmem']

/-- A number without a marker has its form from its first digit and its tail. -/
theorem formOf_unmarked {d : Char} {whole : List Char} (h : Digits .decimal (d :: whole))
    (tail : List Char) : formOf .decimal (d :: whole ++ tail)
      = formWith .decimal (if d = '0' then .octalInteger else .decimalInteger) tail := by
  rw [formOf_append h.point_notMem fun _ => h.letter_notMem (by decide)]
  simp [integerOf]

/-- **Behind a marker the reader names integers as the grammar does.** -/
theorem integerOf_eq (h : radix ≠ .decimal) (w : List Char) :
    integerOf radix w = radix.integerForm := by
  cases radix with
  | decimal => exact absurd rfl h
  | _ => rfl

/-- A number with a marker has its form from its radix and its tail. -/
theorem formOf_marked {marker : Char} {whole : List Char} (hm : marker ∈ radix.markers)
    (h : Digits radix whole) (tail : List Char) :
    formOf radix (['0', marker] ++ whole ++ tail) = formWith radix radix.integerForm tail := by
  have hr := ne_decimal_of_marker hm
  have hpoint : '.' ∉ ['0', marker] ++ whole := by
    rw [List.mem_append, not_or]
    exact ⟨point_notMem_marked hm, h.point_notMem⟩
  rw [formOf_append hpoint fun h => absurd h hr, integerOf_eq hr]

end

end Lexis.Number
