import Lexis.Proofs.NumberBody
import Mathlib.Tactic.Push

/-!
# The longest front of a number

What is wrong with a number shows behind the longest part at its front that still has the shape of
one: a head, digits, perhaps a fraction, and perhaps an exponent, where digits may be missing
(`LongestFront`). The reader of numbers passes this front and no more: what it has met there follows
from the front's parts (`FrontOf.body_eq`), and the cluster behind it decides
(`LongestFront.afterHead_error_iff`).
-/

namespace Lexis.Number

/-! ## Fronts -/

/--
The clusters `gs` begin with the head of a number of a radix, and go on with `after`.

A radix marker chooses the radix behind a zero; without one the number is decimal.
-/
inductive Begins : (gs : List Cluster) → Radix → (head : List Char) → (after : List Cluster) → Prop
  | digit {d : Char} {after : List Cluster} (digit : d ∈ Radix.decimal.digits)
      (unmarked : d = '0' → ∀ c ∈ markers, Cluster.nextIs after c = false) :
      Begins (.ofChar d :: after) .decimal [d] after
  | marked {marker : Char} {radix : Radix} {after : List Cluster}
      (marks : marker ∈ radix.markers) :
      Begins (.ofChar '0' :: .ofChar marker :: after) radix ['0', marker] after

/-- The parts at the front of a number: a fraction has a point, an exponent a letter and a sign. -/
structure Front where
  head : List Char
  whole : List Char
  fraction : Option (List Char)
  exponent : Option (List Char × List Char)
  deriving DecidableEq, Repr

namespace Front

def fractionChars (p : Front) : List Char :=
  match p.fraction with
  | none => []
  | some fs => '.' :: fs

def exponentChars (p : Front) : List Char :=
  match p.exponent with
  | none => []
  | some (sign, es) => 'e' :: (sign ++ es)

/-- The front behind its head. -/
def tail (p : Front) : List Char := p.whole ++ (p.fractionChars ++ p.exponentChars)

def chars (p : Front) : List Char := p.head ++ p.tail

end Front

/-- The clusters `gs` begin with the front `p` of a number of a radix, and go on with `rest`. -/
structure FrontOf (gs : List Cluster) (radix : Radix) (p : Front) (rest : List Cluster) : Prop where
  begins : Begins gs radix p.head (p.tail.map .ofChar ++ rest)
  whole : Digits radix p.whole
  fraction : ∀ fs, p.fraction = some fs → Digits radix fs
  /-- A point in front of another one is none of the number's; a digit is no point anyway. -/
  point : p.fraction = some [] → Cluster.nextIs rest '.' = false
  /-- Hexadecimals have no exponent, and none stands right behind a point. -/
  exponent : ∀ sign es, p.exponent = some (sign, es) →
    radix ≠ .hex ∧ p.fraction ≠ some [] ∧ sign ∈ signs ∧ Digits radix es

/-- No front of the radix at the front of `gs` is longer. -/
structure LongestFront (gs : List Cluster) (radix : Radix) (p : Front) (rest : List Cluster) : Prop
    extends FrontOf gs radix p rest where
  longest : ∀ q rest', FrontOf gs radix q rest' → q.chars.length ≤ p.chars.length

/--
Why a number cannot stop behind its longest front, before `rest`.

A point and a letter that are left over come first, then an exponent that the number must not have,
or that has no digits.
-/
def Front.error? (p : Front) (radix : Radix) (rest : List Cluster) : Option LexicalError :=
  if Cluster.nextIs rest '.' && !Cluster.nextIs rest.tail '.' then
    some (if '.' ∈ p.chars then .multipleDecimalPoints else .decimalPointAfterExponent)
  else if Cluster.nextIs rest 'e' && radix ≠ .hex then
    some (if p.chars.getLast? = some '.' then .exponentAfterDecimalPoint else .multipleExponents)
  else
    match p.exponent with
    | none => none
    | some (_, es) =>
      if radix ≠ .decimal then some .exponentWithRadix
      else if es = [] then some .emptyExponent
      else none

/-! ## Heads -/

section

variable {gs after after' rest : List Cluster} {radix radix' : Radix} {head head' : List Char}

/-- The head stands in front. -/
theorem Begins.split (h : Begins gs radix head after) : gs = head.map .ofChar ++ after := by
  cases h with
  | digit => rfl
  | marked => rfl

/-- A number has one head, and so one radix. -/
theorem Begins.unique (h : Begins gs radix head after) (h' : Begins gs radix' head' after') :
    radix = radix' ∧ head = head' ∧ after = after' := by
  have hmarker : ∀ {marker : Char} {r : Radix} {tail : List Cluster}, marker ∈ r.markers →
      ¬∀ c ∈ markers, Cluster.nextIs (.ofChar marker :: tail) c = false := by
    intro marker r tail hm hall
    exact absurd (hall marker (mem_markers hm)) (by simp [Cluster.nextIs])
  cases h with
  | digit _ unmarked =>
    cases h' with
    | digit => exact ⟨rfl, rfl, rfl⟩
    | marked marks => exact absurd (unmarked rfl) (hmarker marks)
  | marked marks =>
    cases h' with
    | digit _ unmarked => exact absurd (unmarked rfl) (hmarker marks)
    | marked marks' =>
      rw [← Radix.ofMarker?_eq_some_iff] at marks marks'
      obtain rfl := Option.some.inj (marks.symm.trans marks')
      exact ⟨rfl, rfl, rfl⟩

theorem Begins.head_ne_nil (h : Begins gs radix head after) : head ≠ [] := by
  cases h with
  | digit => simp
  | marked => simp

theorem Begins.point_notMem (h : Begins gs radix head after) : '.' ∉ head := by
  cases h with
  | @digit d _ digit _ =>
    have hdigits : Digits .decimal [d] := digits_cons digit (by simp [Digits])
    exact hdigits.point_notMem
  | marked marks => exact point_notMem_marked marks

end

/-! ## What the reader has met in a front -/

section

variable {gs rest : List Cluster} {radix : Radix} {p : Front}

/-- A front stands in front. -/
theorem FrontOf.split (h : FrontOf gs radix p rest) : gs = p.chars.map .ofChar ++ rest := by
  rw [Front.chars, List.map_append, List.append_assoc]
  exact h.begins.split

/-- What has been met behind a front. -/
def Front.met (p : Front) : Met :=
  ⟨p.fraction.isSome, p.fraction == some [], p.exponent.map fun e => e.2.length⟩

/-- An exponent without a sign and digits would take a sign. -/
def Front.EndsBefore (p : Front) (rest : List Cluster) : Prop :=
  p.exponent = some ([], []) → rest.head?.any (fun g => g.is '+' || g.is '-') = false

section

variable {rest : List Cluster} {radix : Radix} {met : Met}

/-- A fraction is passed as far as it is written. -/
theorem body_fraction {fs : List Char} (hp : met.point = false) (he : met.exponentDigits = none)
    (hfs : Digits radix fs) (hrest : fs = [] → Cluster.nextIs rest '.' = false) :
    body radix met (('.' :: fs).map .ofChar ++ rest)
      = body radix (met.addPoint.addDigits fs.length) rest := by
  have hnext : Cluster.nextIs (fs.map .ofChar ++ rest) '.' = false := by
    cases fs with
    | nil => exact hrest rfl
    | cons d fs => exact is_point_of_accepts (hfs.accepts List.mem_cons_self)
  rw [List.map_cons, List.cons_append, body_point hnext hp he, body_digits hfs]

end

/-- The reader passes the exponent of a front, whatever it has met before. -/
theorem FrontOf.body_exponentChars (h : FrontOf gs radix p rest) (hend : p.EndsBefore rest)
    {met : Met} (hp : met.endsInPoint = (p.fraction == some [])) (he : met.exponentDigits = none) :
    body radix met (p.exponentChars.map .ofChar ++ rest)
      = body radix { met with exponentDigits := p.exponent.map fun e => e.2.length } rest := by
  unfold Front.exponentChars
  cases hx : p.exponent with
  | none =>
    rw [Option.map_none, ← he]
    rfl
  | some x =>
    obtain ⟨sign, es⟩ := x
    obtain ⟨hr, hne, hsign, hes⟩ := h.exponent sign es hx
    have hp' : met.endsInPoint = false := by
      rw [hp]
      simpa using hne
    have hrest : sign = [] → es = [] →
        rest.head?.any (fun g => g.is '+' || g.is '-') = false := by
      rintro rfl rfl
      exact hend hx
    refine (body_exponent hr hp' he hsign hes hrest).trans ?_
    simp [Met.addDigits, Met.addExponent, hp']

/-- **The reader passes a front, and has met what is in it.** -/
theorem FrontOf.body_eq (h : FrontOf gs radix p rest) (hend : p.EndsBefore rest) :
    body radix .nothing (p.tail.map .ofChar ++ rest) = body radix p.met rest := by
  rw [Front.tail, List.map_append, List.append_assoc, body_digits h.whole, List.map_append,
    List.append_assoc]
  cases hf : p.fraction with
  | none =>
    have hchars : p.fractionChars = [] := by rw [Front.fractionChars, hf]
    rw [hchars, List.map_nil, List.nil_append, h.body_exponentChars hend (by rw [hf]; rfl) rfl]
    simp [Front.met, Met.addDigits, Met.nothing, hf]
  | some fs =>
    have hchars : p.fractionChars = '.' :: fs := by rw [Front.fractionChars, hf]
    have hnext : fs = [] → Cluster.nextIs (p.exponentChars.map .ofChar ++ rest) '.' = false := by
      rintro rfl
      cases hx : p.exponent with
      | none =>
        rw [Front.exponentChars, hx]
        exact h.point hf
      | some x => exact absurd hf (h.exponent x.1 x.2 hx).2.1
    have hends : ((Met.nothing.addDigits p.whole.length).addPoint.addDigits fs.length).endsInPoint
        = (p.fraction == some []) := by
      rw [hf]
      cases fs <;> rfl
    rw [hchars, body_fraction rfl rfl (h.fraction fs hf) hnext, h.body_exponentChars hend hends rfl,
      Front.met, ← hends, hf]
    rfl

/-! ## Longer fronts -/

/-- A front goes on with a digit. -/
theorem FrontOf.exists_digit {d : Char} (h : FrontOf gs radix p (.ofChar d :: rest))
    (hd : d ∈ radix.digits) :
    ∃ q, FrontOf gs radix q rest := by
  obtain ⟨hbegins, hwhole, hfraction, hpoint, hexponent⟩ := h
  obtain ⟨head, whole, fraction, exponent⟩ := p
  have happend : ∀ ds : List Char, Digits radix ds → Digits radix (ds ++ [d]) := by
    intro ds hds
    exact hds.append (List.forall_mem_singleton.mpr hd)
  -- the digit goes to the last part that there is
  cases exponent with
  | some x =>
    obtain ⟨sign, es⟩ := x
    obtain ⟨hr, hne, hsign, hes⟩ := hexponent sign es rfl
    refine ⟨⟨head, whole, fraction, some (sign, es ++ [d])⟩, ⟨?_, hwhole, hfraction, ?_, ?_⟩⟩
    · simpa [Front.tail, Front.fractionChars, Front.exponentChars] using hbegins
    · intro hf
      exact absurd hf hne
    · rintro _ _ ⟨⟩
      exact ⟨hr, hne, hsign, happend es hes⟩
  | none =>
    cases fraction with
    | some fs =>
      refine ⟨⟨head, whole, some (fs ++ [d]), none⟩, ⟨?_, hwhole, ?_, ?_, ?_⟩⟩
      · simpa [Front.tail, Front.fractionChars, Front.exponentChars] using hbegins
      · rintro _ ⟨⟩
        exact happend fs (hfraction fs rfl)
      · simp
      · simp
    | none =>
      refine ⟨⟨head, whole ++ [d], none, none⟩, ⟨?_, happend whole hwhole, ?_, ?_, ?_⟩⟩
      · simpa [Front.tail, Front.fractionChars, Front.exponentChars] using hbegins
      · simp
      · simp
      · simp

/-- An exponent that is only a letter goes on with a sign. -/
theorem FrontOf.exists_sign {c : Char} (h : FrontOf gs radix p (.ofChar c :: rest))
    (hx : p.exponent = some ([], [])) (hc : c = '+' ∨ c = '-') :
    ∃ q, FrontOf gs radix q rest := by
  obtain ⟨hbegins, hwhole, hfraction, hpoint, hexponent⟩ := h
  obtain ⟨head, whole, fraction, exponent⟩ := p
  obtain rfl : exponent = some ([], []) := hx
  obtain ⟨hr, hne, -, hes⟩ := hexponent [] [] rfl
  have hsign : [c] ∈ signs := by
    rcases hc with rfl | rfl <;> decide
  refine ⟨⟨head, whole, fraction, some ([c], [])⟩, ⟨?_, hwhole, hfraction, ?_, ?_⟩⟩
  · simpa [Front.tail, Front.fractionChars, Front.exponentChars] using hbegins
  · intro hf
    exact absurd hf hne
  · rintro _ _ ⟨⟩
    exact ⟨hr, hne, hsign, hes⟩

/-- A front without a point and an exponent goes on with a point. -/
theorem FrontOf.exists_point (h : FrontOf gs radix p (.ofChar '.' :: rest))
    (hf : p.fraction = none) (hx : p.exponent = none) (hnext : Cluster.nextIs rest '.' = false) :
    ∃ q, FrontOf gs radix q rest := by
  obtain ⟨hbegins, hwhole, -, -, -⟩ := h
  obtain ⟨head, whole, fraction, exponent⟩ := p
  obtain rfl : fraction = none := hf
  obtain rfl : exponent = none := hx
  refine ⟨⟨head, whole, some [], none⟩, ⟨?_, hwhole, ?_, fun _ => hnext, ?_⟩⟩
  · simpa [Front.tail, Front.fractionChars, Front.exponentChars] using hbegins
  · rintro _ ⟨⟩
    simp [Digits]
  · simp

/-- A front without an exponent goes on with one, unless it is hexadecimal or ends in a point. -/
theorem FrontOf.exists_letter (h : FrontOf gs radix p (.ofChar 'e' :: rest)) (hr : radix ≠ .hex)
    (hf : p.fraction ≠ some []) (hx : p.exponent = none) :
    ∃ q, FrontOf gs radix q rest := by
  obtain ⟨hbegins, hwhole, hfraction, -, -⟩ := h
  obtain ⟨head, whole, fraction, exponent⟩ := p
  obtain rfl : exponent = none := hx
  refine ⟨⟨head, whole, fraction, some ([], [])⟩, ⟨?_, hwhole, hfraction, ?_, ?_⟩⟩
  · simpa [Front.tail, Front.fractionChars, Front.exponentChars] using hbegins
  · intro hempty
    exact absurd hempty hf
  · rintro _ _ ⟨⟩
    exact ⟨hr, hf, by decide, by simp [Digits]⟩

/-! ## The longest front -/

theorem FrontOf.length_eq (h : FrontOf gs radix p rest) :
    gs.length = p.chars.length + rest.length := by
  rw [h.split, List.length_append, List.length_map]

/-- A front can be made the longest one. -/
theorem FrontOf.exists_longest (h : FrontOf gs radix p rest) :
    ∃ q rest', LongestFront gs radix q rest' := by
  induction hn : rest.length using Nat.strongRecOn generalizing p rest with
  | ind n ih =>
    by_cases hlongest : ∀ q rest', FrontOf gs radix q rest' → q.chars.length ≤ p.chars.length
    · exact ⟨p, rest, ⟨h, hlongest⟩⟩
    · push Not at hlongest
      obtain ⟨q, rest', hq, hlt⟩ := hlongest
      have hlen := h.length_eq
      have hlen' := hq.length_eq
      exact ih rest'.length (by omega) hq rfl

theorem Begins.exists_longest {head : List Char} {after : List Cluster}
    (h : Begins gs radix head after) : ∃ p rest, LongestFront gs radix p rest := by
  have hfront : FrontOf gs radix ⟨head, [], none, none⟩ after :=
    { begins := h, whole := by simp [Digits], fraction := by simp, point := by simp,
      exponent := by simp }
  exact hfront.exists_longest

/-- No front takes a cluster more than the longest one. -/
theorem LongestFront.not_frontOf {g : Cluster} (h : LongestFront gs radix p (g :: rest))
    (q : Front) : ¬FrontOf gs radix q rest := by
  intro hq
  have hle := h.longest q rest hq
  have hlen := h.toFrontOf.length_eq
  have hlen' := hq.length_eq
  rw [List.length_cons] at hlen
  omega

/-- Behind the longest front stands no digit. -/
theorem LongestFront.head_digit (h : LongestFront gs radix p rest) :
    rest.head?.any radix.accepts = false := by
  cases rest with
  | nil => rfl
  | cons g rest =>
    refine Bool.eq_false_iff.mpr fun hg => ?_
    obtain ⟨d, rfl⟩ := eq_ofChar_of_accepts hg
    obtain ⟨q, hq⟩ := h.toFrontOf.exists_digit (Radix.accepts_iff.mp hg)
    exact h.not_frontOf q hq

/-- The longest front ends where the body stops or is refused. -/
theorem LongestFront.endsBefore (h : LongestFront gs radix p rest) : p.EndsBefore rest := by
  intro hx
  cases rest with
  | nil => rfl
  | cons g rest =>
    refine Bool.eq_false_iff.mpr fun hg => ?_
    obtain ⟨c, rfl, hc⟩ : ∃ c, g = .ofChar c ∧ (c = '+' ∨ c = '-') := by
      rcases Bool.or_eq_true_iff.mp hg with hg | hg
      · exact ⟨'+', Cluster.eq_ofChar_of_is hg, .inl rfl⟩
      · exact ⟨'-', Cluster.eq_ofChar_of_is hg, .inr rfl⟩
    obtain ⟨q, hq⟩ := h.toFrontOf.exists_sign hx hc
    exact h.not_frontOf q hq

/-- A single point behind the longest front is one too many, or stands behind an exponent. -/
theorem LongestFront.of_point (h : LongestFront gs radix p (.ofChar '.' :: rest))
    (hnext : Cluster.nextIs rest '.' = false) (hf : p.fraction = none) : p.exponent ≠ none := by
  intro hx
  obtain ⟨q, hq⟩ := h.toFrontOf.exists_point hf hx hnext
  exact h.not_frontOf q hq

/-- A letter behind the longest front stands behind a point, or is one too many. -/
theorem LongestFront.of_letter (h : LongestFront gs radix p (.ofChar 'e' :: rest))
    (hr : radix ≠ .hex) (hf : p.fraction ≠ some []) : p.exponent ≠ none := by
  intro hx
  obtain ⟨q, hq⟩ := h.toFrontOf.exists_letter hr hf hx
  exact h.not_frontOf q hq

/-! ## Behind the longest front -/

/-- In the exponent of a front there is no point. -/
theorem FrontOf.point_notMem_exponentChars (h : FrontOf gs radix p rest) :
    '.' ∉ p.exponentChars := by
  unfold Front.exponentChars
  cases hx : p.exponent with
  | none => simp
  | some x =>
    obtain ⟨sign, es⟩ := x
    obtain ⟨-, -, hsign, hes⟩ := h.exponent sign es hx
    have hpoint : ∀ sign ∈ signs, '.' ∉ sign := by decide
    simp [hpoint sign hsign, hes.point_notMem]

/-- The only point of a front is that of its fraction. -/
theorem FrontOf.point_mem_iff (h : FrontOf gs radix p rest) :
    '.' ∈ p.chars ↔ p.fraction ≠ none := by
  have hhead := h.begins.point_notMem
  have hwhole := h.whole.point_notMem
  have hexponent := h.point_notMem_exponentChars
  cases hf : p.fraction with
  | none => simp [Front.chars, Front.tail, Front.fractionChars, hf, hhead, hwhole, hexponent]
  | some fs => simp [Front.chars, Front.tail, Front.fractionChars, hf]

/-- A front ends in a point if the fraction has no digits. -/
theorem FrontOf.getLast?_eq_point_iff (h : FrontOf gs radix p rest) :
    p.chars.getLast? = some '.' ↔ p.fraction = some [] := by
  have hne := h.begins.head_ne_nil
  cases hx : p.exponent with
  | some x =>
    have hends : p.exponentChars ≠ [] := by simp [Front.exponentChars, hx]
    have hlast : ((p.head ++ (p.whole ++ p.fractionChars)) ++ p.exponentChars).getLast? ≠ some '.' :=
      getLast?_ne_point hends h.point_notMem_exponentChars
    refine iff_of_false ?_ (h.exponent x.1 x.2 hx).2.1
    simpa [Front.chars, Front.tail] using hlast
  | none =>
    cases hf : p.fraction with
    | none =>
      have hmem : '.' ∉ p.head ++ p.whole := by
        simp [h.begins.point_notMem, h.whole.point_notMem]
      have hlast : ([] ++ (p.head ++ p.whole)).getLast? ≠ some '.' :=
        getLast?_ne_point (by simp [hne]) hmem
      refine iff_of_false ?_ (by simp)
      simpa [Front.chars, Front.tail, Front.fractionChars, Front.exponentChars, hf, hx] using hlast
    | some fs =>
      cases fs with
      | nil => simp [Front.chars, Front.tail, Front.fractionChars, Front.exponentChars, hf, hx]
      | cons d fs =>
        have hdigits := h.fraction _ hf
        have hlast : ((p.head ++ (p.whole ++ ['.'])) ++ d :: fs).getLast? ≠ some '.' :=
          getLast?_ne_point (by simp) hdigits.point_notMem
        refine iff_of_false ?_ (by simp)
        simpa [Front.chars, Front.tail, Front.fractionChars, Front.exponentChars, hf, hx] using hlast

/-- A point behind the longest front is refused, unless it is one of two. -/
theorem LongestFront.body_of_point (h : LongestFront gs radix p (.ofChar '.' :: rest))
    (hnext : Cluster.nextIs rest '.' = false) :
    body radix p.met (.ofChar '.' :: rest)
      = .error ⟨if '.' ∈ p.chars then .multipleDecimalPoints else .decimalPointAfterExponent,
          .ofChar '.' :: rest⟩ := by
  rw [body, if_pos (by rfl), if_neg (by simp [hnext])]
  by_cases hf : p.fraction = none
  · have hx := h.of_point hnext hf
    have hmem : '.' ∉ p.chars := fun hmem => h.point_mem_iff.mp hmem hf
    rw [if_neg (by simp [Front.met, hf]), if_neg hmem, if_pos]
    simpa [Front.met, Option.isSome_iff_ne_none] using hx
  · rw [if_pos (h.point_mem_iff.mpr hf), if_pos]
    simpa [Front.met, Option.isSome_iff_ne_none] using hf

/-- A letter of exponents behind the longest front is refused. -/
theorem LongestFront.body_of_letter (h : LongestFront gs radix p (.ofChar 'e' :: rest))
    (hr : radix ≠ .hex) :
    body radix p.met (.ofChar 'e' :: rest)
      = .error ⟨if p.chars.getLast? = some '.' then .exponentAfterDecimalPoint
          else .multipleExponents, .ofChar 'e' :: rest⟩ := by
  rw [body, if_neg (by decide), if_pos (by simp [hr])]
  by_cases hf : p.fraction = some []
  · rw [if_pos (h.getLast?_eq_point_iff.mpr hf), if_pos]
    simpa [Front.met] using hf
  · have hx := h.of_letter hr hf
    rw [if_neg (fun hlast => hf (h.getLast?_eq_point_iff.mp hlast)), if_neg, if_pos]
    · simpa [Front.met, Option.isSome_iff_ne_none] using hx
    · simpa [Front.met] using hf

/-- Behind the longest front the body ends, unless a point or a letter is refused there. -/
theorem LongestFront.body_of_rest (h : LongestFront gs radix p rest)
    (hpoint : (Cluster.nextIs rest '.' && !Cluster.nextIs rest.tail '.') = false)
    (hletter : (Cluster.nextIs rest 'e' && radix ≠ .hex) = false) :
    body radix p.met rest = .ok (p.met, rest) := by
  have hdigit := h.head_digit
  refine body_of_stops _ ?_
  cases rest with
  | nil => rfl
  | cons g rest =>
    rw [stops]
    split
    · next hg => simpa [Cluster.nextIs, hg] using hpoint
    · rw [Bool.and_eq_true_iff, Bool.not_eq_true', Bool.not_eq_true']
      exact ⟨hletter, hdigit⟩

theorem error_eq_error_iff {α : Type} {cause : LexicalError} {fault : Fault} :
    (.error ⟨cause, rest⟩ : Except Fault α) = .error fault ↔
      some cause = some fault.cause ∧ fault.rest = rest := by
  obtain ⟨cause', rest'⟩ := fault
  simp [eq_comm]

/-- **A number is refused for what stands behind its longest front, or is missing in it.** -/
theorem LongestFront.afterHead_error_iff (h : LongestFront gs radix p rest)
    {integer : NumberForm} {head : List Char} {fault : Fault} :
    afterHead radix integer head (p.tail.map .ofChar ++ rest) = .error fault ↔
      p.error? radix rest = some fault.cause ∧ fault.rest = rest := by
  unfold afterHead Front.error?
  rw [h.body_eq h.endsBefore]
  by_cases hpoint : (Cluster.nextIs rest '.' && !Cluster.nextIs rest.tail '.') = true
  · obtain ⟨hdot, hnext⟩ := Bool.and_eq_true_iff.mp hpoint
    obtain ⟨tail, rfl⟩ := Cluster.eq_cons_of_nextIs hdot
    rw [h.body_of_point (by simpa using hnext), if_pos hpoint]
    exact error_eq_error_iff
  rw [if_neg hpoint]
  by_cases hletter : (Cluster.nextIs rest 'e' && radix ≠ .hex) = true
  · obtain ⟨he, hr⟩ := Bool.and_eq_true_iff.mp hletter
    obtain ⟨tail, rfl⟩ := Cluster.eq_cons_of_nextIs he
    rw [h.body_of_letter (of_decide_eq_true hr), if_pos hletter]
    exact error_eq_error_iff
  rw [if_neg hletter,
    h.body_of_rest (Bool.eq_false_iff.mpr hpoint) (Bool.eq_false_iff.mpr hletter)]
  -- the body has been read whole, and only its exponent may still be wrong
  cases hx : p.exponent with
  | none => simp [Front.met, hx]
  | some x =>
    obtain ⟨sign, es⟩ := x
    have hmet : p.met.exponentDigits = some es.length := by rw [Front.met, hx]; rfl
    simp only [hmet]
    by_cases hr : radix = .decimal
    · by_cases hes : es = []
      · rw [if_neg (by simp [hr]), if_pos (by simp [hes]), if_neg (by simp [hr]), if_pos hes]
        exact error_eq_error_iff
      · rw [if_neg (by simp [hr]), if_neg (by simp [hes]), if_neg (by simp [hr]), if_neg hes]
        simp
    · rw [if_pos hr, if_pos hr]
      exact error_eq_error_iff

end

end Lexis.Number
