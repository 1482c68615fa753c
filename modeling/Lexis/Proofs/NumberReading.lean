import Lexis.Proofs.NumberBody
import Mathlib.Data.List.Count

/-!
# Numbers are read by their grammar

Of the front parts of a text at most one is a number that stops there, and it is what is read
(`read_iff`). Numbers start in three ways: with a digit other than zero, with a radix marker behind a
zero, or with a run of zeros. Each is a body behind a head of its own.
-/

namespace Lexis.Number

/-! ## Where a number stops -/

section

variable {radix : Radix} {front whole tail : List Char} {gs rest : List Cluster}

/-- What ends a body in front of `rest`, said without the reader. -/
theorem stops_iff {ends : Prop} :
    stops radix rest = true ∧ (ends → Cluster.nextIs rest '.' = false) ↔
      (∀ d ∈ radix.digits, Cluster.nextIs rest d = false) ∧
        (radix ≠ .hex → Cluster.nextIs rest 'e' = false) ∧
        (Cluster.nextIs rest '.' = true → ¬ends ∧ Cluster.nextIs rest.tail '.' = true) := by
  rw [← any_accepts_eq_false_iff]
  cases rest with
  | nil => simp [stops, Cluster.nextIs]
  | cons g rest =>
    cases hp : g.is '.' with
    | true =>
      obtain rfl := Cluster.eq_ofChar_of_is hp
      simp [stops, Cluster.nextIs, accepts_point, and_comm]
    | false => grind [stops, Cluster.nextIs]

theorem BodyOf.stopsBefore (h : BodyOf radix whole tail gs rest) (hfront : '.' ∉ front)
    (hmarker : front ++ (whole ++ tail) = ['0'] → ∀ c ∈ markers, Cluster.nextIs rest c = false)
    (hzeros : SeveralZeros (front ++ (whole ++ tail)) →
      ∀ c ∈ loneZeroOnly, Cluster.nextIs rest c = false) :
    StopsBefore radix (front ++ (whole ++ tail)) rest := by
  obtain ⟨hdigit, hexponent, hpoint⟩ := stops_iff.mp ⟨h.stops, h.point⟩
  refine ⟨hdigit, hexponent, fun hnext => ⟨fun hlast => ?_, (hpoint hnext).2⟩, hmarker, hzeros⟩
  rw [← List.append_assoc] at hlast
  have hwhole : '.' ∉ front ++ whole := by simp [hfront, h.digits.point_notMem]
  exact (hpoint hnext).1 ((getLast?_eq_point_iff hwhole h.writes).mp hlast)

/-- Where a number stops, the body behind its head ends. -/
theorem StopsBefore.bodyOf (front : List Char)
    (h : StopsBefore radix (front ++ (whole ++ tail)) rest) (hfront : '.' ∉ front)
    (hdigits : Digits radix whole) (htail : Tail radix tail) :
    BodyOf radix whole tail ((whole ++ tail).map .ofChar ++ rest) rest := by
  have hwhole : '.' ∉ front ++ whole := by simp [hfront, hdigits.point_notMem]
  have hlast := getLast?_eq_point_iff hwhole htail
  rw [List.append_assoc] at hlast
  obtain ⟨hstops, hpoint⟩ := stops_iff.mpr ⟨h.digit, h.exponent, h.point⟩
  exact ⟨rfl, hdigits, htail, hstops, fun htail => hpoint (hlast.mpr htail)⟩

/-- Zeros in front of a body that starts with none are all the zeros there. -/
theorem BodyOf.stops_zeros (h : BodyOf .decimal whole tail gs rest)
    (hhead : whole.head? ≠ some '0') : gs.head?.any (·.is '0') = false := by
  obtain ⟨hdigit, -⟩ := stops_iff.mp ⟨h.stops, h.point⟩
  rw [h.split]
  cases whole with
  | cons d whole => simpa using hhead
  | nil =>
    rcases h.writes.eq_nil_or with rfl | ⟨c, cs, rfl, rfl | rfl⟩
    · exact hdigit '0' (by decide)
    · rfl
    · rfl

/--
What may stand behind leading zeros, by the number that they start.

The reader looks at the cluster behind the zeros, which is the number's or the one behind it.
-/
theorem leadingZeros_iff {n : Nat} (hdigits : Digits .decimal whole) (hhead : whole.head? ≠ some '0')
    (htail : Tail .decimal tail) :
    ((n ≠ 0 → ∀ c ∈ loneZeroOnly,
          Cluster.nextIs ((whole ++ tail).map .ofChar ++ rest) c = false) ∧
        ∀ c ∈ markers, Cluster.nextIs ((whole ++ tail).map .ofChar ++ rest) c = false) ↔
      (SeveralZeros ('0' :: List.replicate n '0' ++ whole) → tail = []) ∧
        ('0' :: List.replicate n '0' ++ (whole ++ tail) = ['0'] →
          ∀ c ∈ markers, Cluster.nextIs rest c = false) ∧
        (SeveralZeros ('0' :: List.replicate n '0' ++ (whole ++ tail)) →
          ∀ c ∈ loneZeroOnly, Cluster.nextIs rest c = false) := by
  have hweak : ∀ {gs : List Cluster}, (∀ c ∈ loneZeroOnly, Cluster.nextIs gs c = false) →
      ∀ c ∈ markers, Cluster.nextIs gs c = false :=
    fun h c hc => h c (List.mem_append_left _ hc)
  cases whole with
  | cons d whole =>
    -- a digit that is no zero may follow zeros
    have hne : d ≠ '0' := by simpa using hhead
    have hlone : ∀ c ∈ loneZeroOnly,
        Cluster.nextIs ((d :: whole ++ tail).map .ofChar ++ rest) c = false :=
      is_eq_false_of_notMem (notMem_loneZeroOnly_of_digit (hdigits d List.mem_cons_self))
    refine iff_of_true ⟨fun _ => hlone, hweak hlone⟩ ⟨?_, ?_, ?_⟩
    · intro h
      exact absurd h (not_severalZeros (by simp) hne)
    · intro h
      simp at h
    · intro h
      exact absurd h (not_severalZeros (by simp) hne)
  | nil =>
    rcases htail.eq_nil_or with rfl | ⟨c, cs, rfl, hc⟩
    · simp only [List.append_nil, List.map_nil, List.nil_append, severalZeros_replicate]
      constructor
      · rintro ⟨hlone, hmarker⟩
        exact ⟨fun _ => trivial, fun _ => hmarker, hlone⟩
      · rintro ⟨-, hmarker, hlone⟩
        refine ⟨hlone, ?_⟩
        cases n with
        | zero => exact hmarker rfl
        | succ n => exact hweak (hlone (Nat.succ_ne_zero n))
    · -- a point or an exponent may follow a lone zero only
      have hmarker : ∀ m ∈ markers, (Cluster.ofChar c).is m = false := by
        rcases hc with rfl | rfl
        · exact is_eq_false_of_notMem (by decide)
        · exact is_eq_false_of_notMem (by decide)
      have hlone : ¬∀ x ∈ loneZeroOnly, (Cluster.ofChar c).is x = false := by
        intro hall
        have hmem : c ∈ loneZeroOnly := by rcases hc with rfl | rfl <;> decide
        simpa using hall c hmem
      have hne : c ≠ '0' := by
        rcases hc with rfl | rfl <;> decide
      rw [List.append_nil, severalZeros_replicate]
      constructor
      · rintro ⟨hn, -⟩
        refine ⟨fun h => absurd (hn h) hlone, fun h => ?_, fun h => ?_⟩
        · simp at h
        · exact absurd h (not_severalZeros (by simp) hne)
      · rintro ⟨hn, -, -⟩
        exact ⟨fun h => absurd (hn h) (List.cons_ne_nil c cs), hmarker⟩

/-! ## Three ways to start -/

/-- A number that starts with another digit than zero. -/
theorem BodyOf.startsWith {d : Char} {whole tail : List Char}
    (h : BodyOf .decimal whole tail gs rest) (hd : d ∈ Radix.decimal.digits)
    (hne : d ≠ '0') : StartsWith (.ofChar d :: gs) .decimal ([d] ++ (whole ++ tail)) rest where
  split := by
    rw [h.split]
    rfl
  writes := by
    show Writes .decimal (d :: whole ++ tail)
    refine .unmarked (digits_cons hd h.digits) (List.cons_ne_nil d whole) h.writes ?_
    intro hzeros
    exact absurd hzeros (not_severalZeros List.mem_cons_self hne)
  stops := by
    refine h.stopsBefore ?_ ?_ ?_
    · rw [List.mem_singleton]
      rintro rfl
      exact point_notMem_digits .decimal hd
    · intro hw
      exact absurd (List.cons.inj hw).1 hne
    · intro hzeros
      exact absurd hzeros (not_severalZeros List.mem_cons_self hne)

/-- A number that starts with a radix marker behind a zero. -/
theorem BodyOf.startsWith_marked {marker : Char} {whole tail : List Char}
    (h : BodyOf radix whole tail gs rest) (hm : marker ∈ radix.markers) :
    StartsWith (.ofChar '0' :: .ofChar marker :: gs) radix (['0', marker] ++ (whole ++ tail)) rest where
  split := by
    rw [h.split]
    rfl
  writes := by
    show Writes radix ('0' :: marker :: (whole ++ tail))
    exact .marked hm h.digits h.writes
  stops := by
    refine h.stopsBefore (point_notMem_marked hm) ?_ ?_
    · intro hw
      simp at hw
    · intro hzeros
      exact absurd hzeros (not_severalZeros (by simp) (marker_ne_zero hm))

/-- A number that starts with zeros. -/
theorem BodyOf.startsWith_zeros {n : Nat} {whole tail : List Char}
    (h : BodyOf .decimal whole tail gs rest) (hhead : whole.head? ≠ some '0')
    (hlone : n ≠ 0 → rejectsZeros gs = false)
    (hmarker : gs.head?.any Cluster.isRadixMarker = false) :
    StartsWith (.ofChar '0' :: ((List.replicate n '0').map .ofChar ++ gs)) .decimal
      ('0' :: List.replicate n '0' ++ (whole ++ tail)) rest := by
  have hzeros : Digits .decimal ('0' :: List.replicate n '0') := digits_replicate (n + 1)
  rw [rejectsZeros_eq_false_iff, h.split] at hlone
  rw [any_isRadixMarker_eq_false_iff, h.split] at hmarker
  obtain ⟨htail, hmarker', hlone'⟩ := (leadingZeros_iff h.digits hhead h.writes).mp ⟨hlone, hmarker⟩
  refine ⟨?_, ?_, h.stopsBefore hzeros.point_notMem hmarker' hlone'⟩
  · rw [h.split]
    simp
  · rw [← List.append_assoc]
    exact .unmarked (hzeros.append h.digits) (List.cons_ne_nil _ _) h.writes htail

end

/-! ## Reading -/

section

variable {radix : Radix} {form : NumberForm} {text : String} {gs rest : List Cluster}

/-- **What is read is a number of the grammar.** -/
theorem startsWith_of_read {d : Char} (hd : d ∈ Radix.decimal.digits)
    (h : read (.ofChar d) gs = .ok ⟨form, text, rest⟩) :
    ∃ radix w, StartsWith (.ofChar d :: gs) radix w rest ∧ form = formOf radix w := by
  unfold read at h
  split at h
  · next hz =>
    obtain rfl : d = '0' := by simpa using hz
    rcases afterZero_ok_iff.mp h with
      ⟨marker, radix, after, rfl, hm, h⟩ | ⟨n, after, rfl, hstop, hlone, hm, h⟩
    · rw [Radix.ofMarker?_eq_some_iff] at hm
      obtain ⟨whole, tail, hbody, rfl⟩ := afterHead_iff.mp ⟨text, h⟩
      refine ⟨radix, _, hbody.startsWith_marked hm, ?_⟩
      exact (formOf_marked hm hbody.digits tail).symm
    · obtain ⟨whole, tail, hbody, rfl⟩ := afterHead_iff.mp ⟨text, h⟩
      have hhead : whole.head? ≠ some '0' := by
        intro hwhole
        obtain ⟨ds, rfl⟩ := List.head?_eq_some_iff.mp hwhole
        rw [hbody.split] at hstop
        simp at hstop
      refine ⟨.decimal, _, hbody.startsWith_zeros hhead hlone hm, ?_⟩
      have hwhole := (digits_replicate (n + 1)).append hbody.digits
      rw [← List.append_assoc]
      exact (formOf_unmarked hwhole tail).symm
  · next hz =>
    have hne : d ≠ '0' := by simpa using hz
    obtain ⟨whole, tail, hbody, rfl⟩ := afterHead_iff.mp ⟨text, h⟩
    refine ⟨.decimal, _, hbody.startsWith hd hne, ?_⟩
    have hform := formOf_unmarked (digits_cons hd hbody.digits) tail
    rw [if_neg hne] at hform
    exact hform.symm

/-- **A number of the grammar is read, whatever clusters follow it.** -/
theorem read_of_startsWith {d : Char} {w : List Char} (h : StartsWith (.ofChar d :: gs) radix w rest) :
    ∃ text, read (.ofChar d) gs = .ok ⟨formOf radix w, text, rest⟩ := by
  obtain ⟨hsplit, hwrites, hstops⟩ := h
  cases hwrites with
  | @unmarked whole tail hdigits hne htail hzeros =>
    obtain ⟨e, whole, rfl⟩ := List.exists_cons_of_ne_nil hne
    obtain ⟨hfirst, rfl⟩ := List.cons.inj hsplit
    obtain rfl : d = e := by simpa [Cluster.ofChar] using hfirst
    obtain ⟨hd, hwhole⟩ := List.forall_mem_cons.mp hdigits
    rw [formOf_unmarked hdigits]
    by_cases hz : d = '0'
    · -- the reader takes all zeros first, and reads the body behind them
      subst hz
      obtain ⟨n, ds, rfl, hhead⟩ := exists_zeros whole
      have hds : Digits .decimal ds := fun x hx => hwhole x (List.mem_append_right _ hx)
      have hfront := (digits_replicate (n + 1)).point_notMem
      have hcons : '0' :: (List.replicate n '0' ++ ds) ++ tail
          = '0' :: List.replicate n '0' ++ (ds ++ tail) := by simp
      rw [hcons] at hstops
      have hbody := hstops.bodyOf ('0' :: List.replicate n '0') hfront hds htail
      obtain ⟨hlone, hmarker⟩ := (leadingZeros_iff hds hhead htail).mpr
        ⟨hzeros, hstops.marker, hstops.zeros⟩
      rw [← rejectsZeros_eq_false_iff] at hlone
      rw [← any_isRadixMarker_eq_false_iff] at hmarker
      obtain ⟨text, h⟩ := hbody.afterHead .octalInteger ['0']
      refine ⟨text, afterZero_ok_iff.mpr
        (.inr ⟨n, _, ?_, hbody.stops_zeros hhead, hlone, hmarker, h⟩)⟩
      simp
    · rw [if_neg hz, read, if_neg (by simpa using hz)]
      have hpoint : '.' ∉ [d] := fun hmem => hdigits.point_notMem (List.mem_append_left whole hmem)
      have hbody := hstops.bodyOf [d] hpoint hwhole htail
      exact hbody.afterHead .decimalInteger [d]
  | @marked _ marker whole tail hm hdigits htail =>
    obtain ⟨hfirst, rfl⟩ := List.cons.inj hsplit
    obtain rfl : d = '0' := by simpa [Cluster.ofChar] using hfirst
    have hbody := hstops.bodyOf ['0', marker] (point_notMem_marked hm) hdigits htail
    obtain ⟨text, h⟩ := hbody.afterHead radix.integerForm ['0', marker]
    rw [← formOf_marked hm hdigits] at h
    rw [← Radix.ofMarker?_eq_some_iff] at hm
    exact ⟨text, afterZero_ok_iff.mpr (.inl ⟨marker, radix, _, rfl, hm, h⟩)⟩

/-- A text starts with no two numbers that stop there. -/
theorem StartsWith.unique {d : Char} {radix' : Radix} {w w' : List Char} {rest' : List Cluster}
    (h : StartsWith (.ofChar d :: gs) radix w rest)
    (h' : StartsWith (.ofChar d :: gs) radix' w' rest') : w = w' := by
  obtain ⟨text, hread⟩ := read_of_startsWith h
  obtain ⟨text', hread'⟩ := read_of_startsWith h'
  obtain ⟨-, -, rfl⟩ := Found.mk.inj (Except.ok.inj (hread.symm.trans hread'))
  have hsplit := List.append_cancel_right (h.split.symm.trans h'.split)
  have hchars := congrArg Cluster.charsOf hsplit
  rwa [Cluster.charsOf_map_ofChar, Cluster.charsOf_map_ofChar] at hchars

/--
**A number is read exactly where the grammar has one, and then it is that one.**

There is at most one such number. What is passed is the number, its form is that of the grammar, and
its text is the number with leading zeros written once.
-/
theorem read_iff {d : Char} (hd : d ∈ Radix.decimal.digits) (gs : List Cluster) :
    (∀ found : Found, read (.ofChar d) gs = .ok found ↔
      ∃ radix w, StartsWith (.ofChar d :: gs) radix w found.rest ∧ found.form = formOf radix w ∧
        found.text = String.ofList (collapseZeros w)) ∧
    ∀ radix w rest radix' w' rest', StartsWith (.ofChar d :: gs) radix w rest →
      StartsWith (.ofChar d :: gs) radix' w' rest' → w = w' := by
  have hfirst : (Cluster.ofChar d).isDecimalDigit = true := Radix.accepts_iff.mpr hd
  have htext : ∀ {found : Found} {radix : Radix} {w : List Char},
      read (.ofChar d) gs = .ok found → StartsWith (.ofChar d :: gs) radix w found.rest →
      found.text = String.ofList (collapseZeros w) := by
    intro found radix w h hw
    obtain ⟨ls, hgs, ht⟩ := read_text hfirst h
    have hsplit := hw.split
    rw [hgs, ← List.cons_append] at hsplit
    rw [ht, List.append_cancel_right hsplit, Cluster.charsOf_map_ofChar]
  refine ⟨fun found => ⟨?_, ?_⟩, fun _ _ _ _ _ _ h h' => h.unique h'⟩
  · intro h
    obtain ⟨radix, w, hw, hform⟩ := startsWith_of_read hd h
    exact ⟨radix, w, hw, hform, htext h hw⟩
  · rintro ⟨radix, w, hw, hform, ht⟩
    obtain ⟨form, text, rest⟩ := found
    obtain ⟨text', h⟩ := read_of_startsWith hw
    have ht' := htext h hw
    simp only at hform ht ht'
    rw [h, hform, ht, ht']

/--
The points of a range are no part of the number before them, and behind the letter `e` of a
hexadecimal number stands no exponent.
-/
theorem read_iff_range :
    (∃ radix w, StartsWith ("1..5".toList.map .ofChar) radix w ("..5".toList.map .ofChar) ∧
      NumberForm.decimalInteger = formOf radix w ∧ "1" = String.ofList (collapseZeros w)) ∧
    ∃ radix w, StartsWith ("0x1e+5".toList.map .ofChar) radix w ("+5".toList.map .ofChar) ∧
      NumberForm.hexInteger = formOf radix w ∧ "0x1e" = String.ofList (collapseZeros w) :=
  ⟨((read_iff (by decide : '1' ∈ Radix.decimal.digits) ("..5".toList.map .ofChar)).1
      ⟨.decimalInteger, "1", _⟩).mp (by decide +kernel),
    ((read_iff (by decide : '0' ∈ Radix.decimal.digits) ("x1e+5".toList.map .ofChar)).1
      ⟨.hexInteger, "0x1e", _⟩).mp (by decide +kernel)⟩

end

end Lexis.Number
