import Lexis.Proofs.NumberReading
import Lexis.Proofs.Rescanning

/-!
# The digits of integers

The text of an integer is the digits of its radix behind the radix marker, if it has one, but for two
things (`denotes_iff_of_next`). Nothing asks for digits behind a marker. And a number that starts with
a zero is octal by its kind while it is read in decimal digits, so an eight or a nine may stand in it.
-/

namespace Lexis

namespace Number

/-- The text of a number without a radix marker and the zero before it. -/
def withoutMarker : List Char → List Char
  | '0' :: marker :: cs => if marker ∈ markers then cs else '0' :: marker :: cs
  | cs => cs

/-- A text that is a number in a radix: digits of it, and at least one, behind the marker if any. -/
def Denotes (radix : Radix) (text : List Char) : Prop :=
  withoutMarker text ≠ [] ∧ Digits radix (withoutMarker text)

instance (radix : Radix) (ds : List Char) : Decidable (Digits radix ds) :=
  List.decidableBAll (fun d => d ∈ radix.digits) ds

instance (radix : Radix) (text : List Char) : Decidable (Denotes radix text) :=
  inferInstanceAs (Decidable (_ ∧ _))

/-! ## Digits and markers -/

section

variable {radix : Radix} {marker d : Char} {ds : List Char}

theorem withoutMarker_marked (hm : marker ∈ radix.markers) (ds : List Char) :
    withoutMarker ('0' :: marker :: ds) = ds := by
  rw [withoutMarker, if_pos (mem_markers hm)]

/-- Decimal digits have no marker among them. -/
theorem withoutMarker_of_digits (h : Digits .decimal ds) : withoutMarker ds = ds := by
  unfold withoutMarker
  split
  · next marker cs => rw [if_neg (notMem_markers_of_digit (h marker (by simp)))]
  · rfl

/-- The octal digits are the decimal ones but for the last two. -/
theorem mem_octal_iff : d ∈ Radix.octal.digits ↔ d ∈ Radix.decimal.digits ∧ d ≠ '8' ∧ d ≠ '9' := by
  constructor
  · have hall : Radix.octal.digits.Forall fun e =>
        e ∈ Radix.decimal.digits ∧ e ≠ '8' ∧ e ≠ '9' := by decide
    exact List.forall_iff_forall_mem.mp hall d
  · have hall : Radix.decimal.digits.Forall fun e =>
        e ≠ '8' ∧ e ≠ '9' → e ∈ Radix.octal.digits := by decide
    rintro ⟨hd, hne⟩
    exact List.forall_iff_forall_mem.mp hall d hd hne

/-- Octal digits are the decimal ones without the eight and the nine. -/
theorem digits_octal_iff : Digits .octal ds ↔ Digits .decimal ds ∧ '8' ∉ ds ∧ '9' ∉ ds := by
  constructor
  · intro h
    have hdecimal : Digits .decimal ds := fun d hd => (mem_octal_iff.mp (h d hd)).1
    have hne : ∀ d ∈ ds, d ≠ '8' ∧ d ≠ '9' := fun d hd => (mem_octal_iff.mp (h d hd)).2
    exact ⟨hdecimal, fun hmem => (hne _ hmem).1 rfl, fun hmem => (hne _ hmem).2 rfl⟩
  · rintro ⟨hdecimal, height, hnine⟩ d hd
    refine mem_octal_iff.mpr ⟨hdecimal d hd, ?_, ?_⟩
    · rintro rfl
      exact height hd
    · rintro rfl
      exact hnine hd

theorem Digits.collapseZeros (h : Digits .decimal ds) : Digits .decimal (collapseZeros ds) := by
  intro d hd
  unfold Number.collapseZeros at hd
  split at hd
  · rcases List.mem_cons.mp hd with rfl | hd
    · exact h _ List.mem_cons_self
    · exact h d (List.mem_cons_of_mem _ ((List.dropWhile_sublist _).mem hd))
  · exact h d hd

end

/-! ## Integers -/

/-- The texts of integers of a radix, by the form they are given. -/
inductive IntegerText : Radix → List Char → Prop
  | decimal {d : Char} {ds : List Char} : d ≠ '0' → Digits .decimal (d :: ds) →
      IntegerText .decimal (d :: ds)
  /-- Without a marker the digits stay decimal. -/
  | zero {ds : List Char} : Digits .decimal ('0' :: ds) → IntegerText .octal ('0' :: ds)
  /-- Behind a marker there may be nothing. -/
  | marked {radix : Radix} {marker : Char} {ds : List Char} :
      marker ∈ radix.markers → Digits radix ds →
      IntegerText radix ('0' :: marker :: ds)

section

variable {radix radix' : Radix} {w tail text : List Char}

/-- An integer has neither a fraction nor an exponent. -/
theorem Tail.eq_nil_of_integer (h : Tail radix' tail) {integer : NumberForm}
    (hform : formWith radix' integer tail = radix.integerForm) : tail = [] := by
  have hfloat : NumberForm.float ≠ radix.integerForm := by cases radix <;> decide
  have hexponent : NumberForm.exponent ≠ radix.integerForm := by cases radix <;> decide
  cases h with
  | nothing => rfl
  | fraction hfs =>
    rw [formWith_fraction hfs] at hform
    exact absurd hform hfloat
  | exponent hx =>
    rw [formWith_letter hx.letter_mem] at hform
    exact absurd hform hexponent
  | fractionExponent _ _ hx =>
    have hletter := hx.letter_mem
    rw [formWith_letter (by simp [hletter])] at hform
    exact absurd hform hexponent

theorem integerForm_inj (h : radix.integerForm = radix'.integerForm) : radix = radix' := by
  cases radix <;> cases radix' <;> first | rfl | exact absurd h (by decide)

theorem Writes.integerText (h : Writes radix' w) (hform : formOf radix' w = radix.integerForm) :
    IntegerText radix (collapseZeros w) := by
  cases h with
  | @unmarked whole tail hdigits hne htail =>
    obtain ⟨d, ds, rfl⟩ := List.exists_cons_of_ne_nil hne
    rw [formOf_unmarked hdigits] at hform
    obtain rfl := htail.eq_nil_of_integer hform
    rw [formWith_nil] at hform
    rw [List.append_nil]
    by_cases hd : d = '0'
    · subst hd
      obtain rfl : Radix.octal = radix := integerForm_inj hform
      exact .zero hdigits.collapseZeros
    · rw [if_neg hd] at hform
      obtain rfl : Radix.decimal = radix := integerForm_inj hform
      rw [collapseZeros_of_ne hd]
      exact .decimal hd hdigits
  | @marked _ marker whole tail hm hdigits htail =>
    have hmarked := formOf_marked hm hdigits tail
    rw [show ['0', marker] ++ whole ++ tail = '0' :: marker :: (whole ++ tail) from rfl, hform]
      at hmarked
    obtain rfl := htail.eq_nil_of_integer hmarked.symm
    rw [formWith_nil] at hmarked
    obtain rfl := integerForm_inj hmarked
    rw [List.append_nil, collapseZeros, List.dropWhile_cons_of_neg]
    · exact .marked hm hdigits
    · simpa using marker_ne_zero hm

/-- **An integer denotes a number in its radix but for digits that are missing or too large.** -/
theorem IntegerText.denotes_iff (h : IntegerText radix text) :
    Denotes radix text ↔
      withoutMarker text ≠ [] ∧ (radix = .octal → '8' ∉ text ∧ '9' ∉ text) := by
  refine and_congr_right fun _ => ?_
  cases h with
  | decimal hd hdigits =>
    rw [withoutMarker_of_digits hdigits]
    exact iff_of_true hdigits fun hoctal => absurd hoctal (by decide)
  | zero hdigits =>
    rw [withoutMarker_of_digits hdigits, digits_octal_iff]
    exact ⟨fun h _ => h.2, fun h => ⟨hdigits, h rfl⟩⟩
  | @marked _ marker ds hm hdigits =>
    rw [withoutMarker_marked hm]
    refine iff_of_true hdigits ?_
    rintro rfl
    obtain ⟨-, height, hnine⟩ := digits_octal_iff.mp hdigits
    have hmarker : '8' ≠ marker ∧ '9' ≠ marker := by
      refine ⟨?_, ?_⟩
      · rintro rfl
        exact absurd hm (by decide)
      · rintro rfl
        exact absurd hm (by decide)
    simp [hmarker, height, hnine]

end

end Number

namespace Scanner

variable {s s' : Scanner} {t : Token} {radix : Number.Radix}

/-- The text of an integer token is written by the grammar of numbers. -/
theorem integerText_of_next (h : s.next = (.ok t, s')) (hkind : t.kind = .number radix.integerForm) :
    Number.IntegerText radix t.text.toList := by
  obtain ⟨blanks, lexeme, ht⟩ := takes_of_next h
  have hread := ht.read
  have hspells := ht.spells
  rw [hkind] at hread hspells
  rw [Lexeme.read_eq_readCode (ht.place_ne (by rw [hkind]; rfl))] at hread
  obtain ⟨first, rest, hahead, hfirst, hnumber⟩ := Lexeme.number_of_readCode hread rfl
  unfold Lexeme.number at hnumber
  split at hnumber
  · simp at hnumber
  · next found hfound =>
    obtain ⟨form, text, left⟩ := found
    obtain ⟨hform, rfl, rfl⟩ := Lexeme.mk.inj (Except.ok.inj hnumber)
    obtain ⟨d, rfl, hd⟩ := Cluster.eq_ofChar_of_isOne hfirst
    have hdigit : d ∈ Number.Radix.decimal.digits := Alphabet.mem_of_isDecimalDigit hd
    obtain ⟨radix', w, hw, hformOf⟩ := Number.startsWith_of_read hdigit hfound
    -- the lexeme is the number that the grammar finds
    have hlexeme : lexeme = w.map .ofChar := List.append_cancel_right (hahead.trans hw.split)
    have htext : t.text = String.ofList (Number.collapseZeros w) := by
      rw [show t.text = _ from hspells, hlexeme, Cluster.charsOf_map_ofChar]
    rw [htext, String.toList_ofList]
    exact hw.writes.integerText (hformOf.symm.trans (TokenKind.number.inj hform))

/--
**The text of an integer denotes a number in its radix, unless nothing stands behind the marker, or an
eight or a nine in an octal number.**
-/
theorem denotes_iff_of_next (h : s.next = (.ok t, s')) (hkind : t.kind = .number radix.integerForm) :
    Number.Denotes radix t.text.toList ↔
      Number.withoutMarker t.text.toList ≠ [] ∧
        (radix = .octal → '8' ∉ t.text.toList ∧ '9' ∉ t.text.toList) :=
  (integerText_of_next h hkind).denotes_iff

/-- A hexadecimal number may have the letter of an exponent among its digits. -/
theorem denotes_iff_of_next_hex :
    (ofText "0x1e3").next = (.ok ⟨.number .hexInteger, .start, "0x1e3"⟩, (ofText "0x1e3").next.2) ∧
      Number.Denotes .hex "0x1e3".toList := by
  have hnext : (ofText "0x1e3").next
      = (.ok ⟨.number .hexInteger, .start, "0x1e3"⟩, (ofText "0x1e3").next.2) := by decide +kernel
  have hdenotes : Number.Denotes .hex "0x1e3".toList ↔ _ := denotes_iff_of_next hnext rfl
  exact ⟨hnext, hdenotes.mpr ⟨by decide, fun hoctal => absurd hoctal (by decide)⟩⟩

/-- Integers that denote no number in their radix: an eight in an octal one, and a lone marker. -/
theorem exists_not_denotes :
    (ofText "08").next.1 = .ok ⟨.number Number.Radix.octal.integerForm, .start, "08"⟩ ∧
      ¬Number.Denotes .octal "08".toList ∧
      (ofText "0x").next.1 = .ok ⟨.number Number.Radix.hex.integerForm, .start, "0x"⟩ ∧
      ¬Number.Denotes .hex "0x".toList := by
  decide +kernel

end Scanner

end Lexis
