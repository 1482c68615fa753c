import Lexis.Proofs.Sight
import Lexis.Proofs.Suffix

/-!
# The text of a number

What each part of the reader needs for an answer is said once (`afterHead_ok_iff`,
`afterZero_ok_iff`), so that nothing that follows has to open the readers again. A number is made of
clusters of one scalar value each, and its text can be compared with the source scalar by scalar: it
is what the source has, with a run of leading zeros written as one (`read_text`).
-/

namespace Lexis.Number

/-- Writes a run of leading zeros once. -/
def collapseZeros : List Char → List Char
  | '0' :: cs => '0' :: cs.dropWhile (· = '0')
  | cs => cs

/-- A number that begins with no zero stays as it is. -/
theorem collapseZeros_of_ne {c : Char} (h : c ≠ '0') (cs : List Char) :
    collapseZeros (c :: cs) = c :: cs := by
  unfold collapseZeros
  split
  · next heq => exact absurd (List.cons.inj heq).1 h
  · rfl

/-- Zeros at the front are written once. -/
theorem collapseZeros_replicate {cs : List Char} (n : Nat) (h : ∀ c ∈ cs.head?, c ≠ '0') :
    collapseZeros ('0' :: (List.replicate n '0' ++ cs)) = '0' :: cs := by
  have hzeros : (List.replicate n '0' ++ cs).dropWhile (· = '0') = cs.dropWhile (· = '0') :=
    List.dropWhile_append_of_pos (by simp)
  have hcs : cs.dropWhile (· = '0') = cs := by
    cases cs with
    | nil => rfl
    | cons c cs => rw [List.dropWhile_cons_of_neg (by simpa using h c rfl)]
  rw [collapseZeros, hzeros, hcs]

/-! ## The clusters of a number are single scalars -/

/-- The signs that an exponent may have, or none. -/
def signs : List (List Char) := [[], ['+'], ['-']]

/-- At most one sign is passed. -/
theorem afterSign_eq (gs : List Cluster) :
    ∃ sign ∈ signs, gs = sign.map .ofChar ++ afterSign gs := by
  cases gs with
  | nil => exact ⟨[], by decide, rfl⟩
  | cons g rest =>
    rw [afterSign]
    split
    · next h =>
      rcases Bool.or_eq_true_iff.mp h with h | h
      · exact ⟨['+'], by decide, by rw [Cluster.eq_ofChar_of_is h]; rfl⟩
      · exact ⟨['-'], by decide, by rw [Cluster.eq_ofChar_of_is h]; rfl⟩
    · exact ⟨[], by decide, rfl⟩

/-- A digit is a cluster of one character. -/
theorem eq_ofChar_of_accepts {radix : Radix} {g : Cluster} (h : radix.accepts g = true) :
    ∃ c, g = .ofChar c := by
  cases radix <;> exact (Cluster.eq_ofChar_of_isOne h).imp fun _ hc => hc.1

/-- All that a body is read from are clusters of one character. -/
theorem body_eq {radix : Radix} {met met' : Met} {gs rest : List Cluster}
    (h : body radix met gs = .ok (met', rest)) : ∃ cs : List Char, gs = cs.map .ofChar ++ rest := by
  have hcons : ∀ {g : Cluster} {tail : List Cluster} {c : Char}, g = .ofChar c →
      (∃ cs : List Char, tail = cs.map .ofChar ++ rest) →
      ∃ cs : List Char, g :: tail = cs.map .ofChar ++ rest := by
    rintro g tail c rfl ⟨cs, rfl⟩
    exact ⟨c :: cs, rfl⟩
  fun_induction body radix met gs with
  | case1 =>
    obtain ⟨_, rfl⟩ := Prod.mk.inj (Except.ok.inj h)
    exact ⟨[], rfl⟩
  | case2 =>
    obtain ⟨_, rfl⟩ := Prod.mk.inj (Except.ok.inj h)
    exact ⟨[], rfl⟩
  | case3 => simp at h
  | case4 => simp at h
  | case5 _ g tail hp _ _ _ ih => exact hcons (Cluster.eq_ofChar_of_is hp) (ih h)
  | case6 => simp at h
  | case7 => simp at h
  | case8 _ g tail _ he _ _ ih =>
    -- the letter may take a sign with it
    obtain ⟨sign, -, hs⟩ := afterSign_eq tail
    obtain ⟨cs, hcs⟩ := ih h
    refine hcons (Cluster.eq_ofChar_of_is (Bool.and_eq_true_iff.mp he).1) ⟨sign ++ cs, ?_⟩
    rw [hs, hcs, List.map_append, List.append_assoc]
  | case9 _ g tail _ _ hd ih =>
    obtain ⟨c, hc⟩ := eq_ofChar_of_accepts hd
    exact hcons hc (ih h)
  | case10 =>
    obtain ⟨_, rfl⟩ := Prod.mk.inj (Except.ok.inj h)
    exact ⟨[], rfl⟩

/-! ## Behind the head -/

section

variable {radix : Radix} {integer form : NumberForm} {head : List Char} {gs rest : List Cluster}

/-- What was met makes a number of a form, which is `integer` for integers. -/
def Settles (radix : Radix) (integer : NumberForm) (met : Met) (form : NumberForm) : Prop :=
  (met.exponentDigits = none ∧ form = if met.point then .float else integer) ∨
    (radix = .decimal ∧ (∃ n, met.exponentDigits = some (n + 1)) ∧ form = .exponent)

/-- **After the head stands a body, which settles the form.** -/
theorem afterHead_ok_iff {text : String} :
    afterHead radix integer head gs = .ok ⟨form, text, rest⟩ ↔
      ∃ met, body radix .nothing gs = .ok (met, rest) ∧ Settles radix integer met form ∧
        text = String.ofList (head ++ Cluster.charsOf (upTo gs rest)) := by
  unfold afterHead
  constructor
  · intro h
    split at h
    · simp at h
    · next met left hb =>
      simp only at h
      split at h
      · next he =>
        simp only [Except.ok.injEq, Found.mk.injEq] at h
        obtain ⟨rfl, rfl, rfl⟩ := h
        exact ⟨met, hb, .inl ⟨he, rfl⟩, rfl⟩
      · next n he =>
        split at h
        · simp at h
        · next hr =>
          split at h
          · simp at h
          · next hn =>
            simp only [Except.ok.injEq, Found.mk.injEq] at h
            obtain ⟨rfl, rfl, rfl⟩ := h
            obtain ⟨m, rfl⟩ := Nat.exists_eq_succ_of_ne_zero hn
            exact ⟨met, hb, .inr ⟨by simpa using hr, ⟨m, he⟩, rfl⟩, rfl⟩
  · rintro ⟨met, hb, hsettles, rfl⟩
    rcases hsettles with ⟨he, rfl⟩ | ⟨rfl, ⟨n, he⟩, rfl⟩
    · simp [hb, he]
    · simp [hb, he]

/-- The text is the head and the characters that follow it. -/
theorem afterHead_text {found : Found} (h : afterHead radix integer head gs = .ok found) :
    ∃ cs : List Char, gs = cs.map .ofChar ++ found.rest ∧
      found.text = String.ofList (head ++ cs) := by
  obtain ⟨met, hb, -, ht⟩ := afterHead_ok_iff.mp h
  obtain ⟨cs, hgs⟩ := body_eq hb
  refine ⟨cs, hgs, ?_⟩
  rw [ht, hgs, upTo_append, Cluster.charsOf_map_ofChar]

end

/-! ## Leading zeros -/

/-- A run of zeros ends before a cluster that is no zero. -/
theorem zeros_eq (gs : List Cluster) : ∃ n : Nat,
    gs.takeWhile (·.is '0') = (List.replicate n '0').map .ofChar ∧
      ∀ g ∈ (gs.dropWhile (·.is '0')).head?, g.is '0' = false := by
  induction gs with
  | nil => exact ⟨0, rfl, by simp⟩
  | cons g gs ih =>
    cases hg : g.is '0' with
    | true =>
      obtain ⟨n, hn, hd⟩ := ih
      refine ⟨n + 1, ?_, ?_⟩
      · rw [List.takeWhile_cons_of_pos (by simpa using hg), hn, Cluster.eq_ofChar_of_is hg]
        rfl
      · rwa [List.dropWhile_cons_of_pos (by simpa using hg)]
    | false =>
      refine ⟨0, ?_, ?_⟩
      · rw [List.takeWhile_cons_of_neg (by simp [hg])]
        rfl
      · rw [List.dropWhile_cons_of_neg (by simp [hg])]
        simpa using hg

/-- What chooses a radix is a marker, and no zero. -/
theorem isRadixMarker_of_ofMarker? {c : Char} {radix : Radix} (h : Radix.ofMarker? c = some radix) :
    Alphabet.isRadixMarker c = true ∧ c ≠ '0' := by
  simp only [Radix.ofMarker?, Bool.or_eq_true, decide_eq_true_eq] at h
  repeat' split at h
  · next hc => rcases hc with rfl | rfl <;> decide
  · next hc => rcases hc with rfl | rfl <;> decide
  · next hc => rcases hc with rfl | rfl <;> decide
  · simp at h

/-- What chooses a radix is one scalar, and may not stand after several zeros. -/
theorem markedRadix?_eq {gs rest : List Cluster} {radix : Radix} {marker : Cluster}
    (h : markedRadix? gs = some (radix, marker, rest)) :
    rejectsZeros gs = true ∧ ∃ c, marker = .ofChar c ∧ c ≠ '0' := by
  have hgs := suffix_of_markedRadix? h
  subst hgs
  obtain ⟨r, hr, _⟩ := Option.map_eq_some_iff.mp h
  obtain ⟨c, hc, hm⟩ := Option.bind_eq_some_iff.mp hr
  obtain ⟨hmark, hne⟩ := isRadixMarker_of_ofMarker? hm
  refine ⟨?_, c, Cluster.eq_ofChar_of_single? hc, hne⟩
  simp [rejectsZeros, Cluster.isRadixMarker, Cluster.isOne, hc, hmark]

theorem markedRadix?_eq_none {gs : List Cluster} :
    markedRadix? gs = none ↔
      gs.head?.any (fun g => (g.single?.bind Radix.ofMarker?).isSome) = false := by
  cases gs with
  | nil => simp [markedRadix?]
  | cons g gs => simp [markedRadix?]

/-- A marker is a cluster of one character that chooses a radix. -/
theorem isRadixMarker_eq (g : Cluster) :
    g.isRadixMarker = (g.single?.bind Radix.ofMarker?).isSome := by
  have hc : ∀ c, Alphabet.isRadixMarker c = (Radix.ofMarker? c).isSome := by
    intro c
    simp only [Alphabet.isRadixMarker, Radix.ofMarker?]
    grind
  unfold Cluster.isRadixMarker Cluster.isOne
  cases g.single? with
  | none => rfl
  | some c => exact hc c

theorem is_zero_of_mem_replicate {n : Nat} {g : Cluster}
    (h : g ∈ (List.replicate n '0').map Cluster.ofChar) : g.is '0' = true := by
  obtain ⟨c, hc, rfl⟩ := List.mem_map.mp h
  rw [List.eq_of_mem_replicate hc]
  rfl

section

variable {n : Nat} {after : List Cluster}

/-- A marker behind a lone zero chooses the radix. -/
theorem afterZero_marker {marker : Char} {radix : Radix} (hm : Radix.ofMarker? marker = some radix)
    (tail : List Cluster) : afterZero (.ofChar marker :: tail)
      = afterHead radix radix.integerForm ['0', marker] tail := by
  obtain ⟨-, hne⟩ := isRadixMarker_of_ofMarker? hm
  have hmarked : markedRadix? (.ofChar marker :: tail) = some (radix, .ofChar marker, tail) := by
    simp [markedRadix?, hm]
  simp only [afterZero, List.takeWhile_cons, List.dropWhile_cons, Cluster.is_ofChar, hne,
    beq_iff_eq, if_false, List.isEmpty_nil, Bool.not_true, Bool.false_and, Bool.false_eq_true,
    hmarked]
  rfl

/-- Several zeros are refused for what stands behind all of them. -/
theorem afterZero_rejected (hstop : after.head?.any (·.is '0') = false) (hn : n ≠ 0)
    (hrejects : rejectsZeros after = true) :
    afterZero ((List.replicate n '0').map .ofChar ++ after)
      = .error ⟨.multipleLeadingZeros, after⟩ := by
  obtain ⟨htake, hdrop⟩ := span_append (fun g hg => is_zero_of_mem_replicate (n := n) hg) hstop
  unfold afterZero
  simp only [htake, hdrop]
  rw [if_pos (by simp [hn, hrejects])]

/-- Without a marker, zeros are read on in decimal digits. -/
theorem afterZero_zeros (hstop : after.head?.any (·.is '0') = false)
    (hlone : n ≠ 0 → rejectsZeros after = false)
    (hmarker : after.head?.any Cluster.isRadixMarker = false) :
    afterZero ((List.replicate n '0').map .ofChar ++ after)
      = afterHead .decimal .octalInteger ['0'] after := by
  obtain ⟨htake, hdrop⟩ := span_append (fun g hg => is_zero_of_mem_replicate (n := n) hg) hstop
  have hunmarked : markedRadix? after = none := by
    rw [markedRadix?_eq_none]
    simpa only [← isRadixMarker_eq] using hmarker
  have hrejects : ¬(!((List.replicate n '0').map Cluster.ofChar).isEmpty && rejectsZeros after)
      = true := by
    cases n with
    | zero => simp
    | succ n => simp [hlone (Nat.succ_ne_zero n)]
  unfold afterZero
  simp only [htake, hdrop, if_neg hrejects, hunmarked]

/-- Behind a zero stands a radix marker, or the rest of a run of zeros, which may be rejected. -/
theorem zeros_cases (gs : List Cluster) :
    (∃ marker radix tail, gs = .ofChar marker :: tail ∧ Radix.ofMarker? marker = some radix) ∨
      ∃ n after, gs = (List.replicate n '0').map .ofChar ++ after ∧
        after.head?.any (·.is '0') = false ∧
        ((n ≠ 0 ∧ rejectsZeros after = true) ∨
          (n ≠ 0 → rejectsZeros after = false) ∧
            after.head?.any Cluster.isRadixMarker = false) := by
  obtain ⟨n, hzeros, -⟩ := zeros_eq gs
  have hstop := stops_dropWhile (q := (·.is '0')) gs
  have hsplit := List.takeWhile_append_dropWhile (p := (·.is '0')) (l := gs)
  rw [hzeros] at hsplit
  generalize gs.dropWhile (·.is '0') = after at hstop hsplit
  subst hsplit
  by_cases hrejects : n ≠ 0 ∧ rejectsZeros after = true
  · exact .inr ⟨n, after, rfl, hstop, .inl hrejects⟩
  · have hlone : n ≠ 0 → rejectsZeros after = false := by
      intro hn
      exact Bool.eq_false_iff.mpr fun hr => hrejects ⟨hn, hr⟩
    cases hm : markedRadix? after with
    | none =>
      rw [markedRadix?_eq_none] at hm
      simp only [← isRadixMarker_eq] at hm
      exact .inr ⟨n, after, rfl, hstop, .inr ⟨hlone, hm⟩⟩
    | some found =>
      obtain ⟨radix, marker, tail⟩ := found
      obtain ⟨hr, c, rfl, -⟩ := markedRadix?_eq hm
      obtain rfl := suffix_of_markedRadix? hm
      -- behind several zeros the marker would have been rejected
      obtain rfl : n = 0 := by
        refine Decidable.byContradiction fun hn => ?_
        rw [hlone hn] at hr
        exact Bool.false_ne_true hr
      obtain ⟨r, hr, -⟩ := Option.map_eq_some_iff.mp hm
      exact .inl ⟨c, r, tail, rfl, by simpa using hr⟩

end

/-- **After a zero stands a radix marker, or the rest of a run of zeros.** -/
theorem afterZero_ok_iff {gs : List Cluster} {found : Found} : afterZero gs = .ok found ↔
    (∃ marker radix tail, gs = .ofChar marker :: tail ∧ Radix.ofMarker? marker = some radix ∧
        afterHead radix radix.integerForm ['0', marker] tail = .ok found) ∨
      ∃ n after, gs = (List.replicate n '0').map .ofChar ++ after ∧
        after.head?.any (·.is '0') = false ∧ (n ≠ 0 → rejectsZeros after = false) ∧
        after.head?.any Cluster.isRadixMarker = false ∧
        afterHead .decimal .octalInteger ['0'] after = .ok found := by
  constructor
  · intro h
    rcases zeros_cases gs with
      ⟨marker, radix, tail, rfl, hm⟩ | ⟨n, after, rfl, hstop, ⟨hn, hr⟩ | ⟨hlone, hm⟩⟩
    · rw [afterZero_marker hm] at h
      exact .inl ⟨marker, radix, tail, rfl, hm, h⟩
    · rw [afterZero_rejected hstop hn hr] at h
      simp at h
    · rw [afterZero_zeros hstop hlone hm] at h
      exact .inr ⟨n, after, rfl, hstop, hlone, hm, h⟩
  · rintro (⟨marker, radix, tail, rfl, hm, h⟩ | ⟨n, after, rfl, hstop, hlone, hm, h⟩)
    · rw [afterZero_marker hm]
      exact h
    · rw [afterZero_zeros hstop hlone hm]
      exact h

theorem afterZero_text {gs : List Cluster} {found : Found} (h : afterZero gs = .ok found) :
    ∃ cs : List Char, gs = cs.map .ofChar ++ found.rest ∧
      found.text = String.ofList (collapseZeros ('0' :: cs)) := by
  rcases afterZero_ok_iff.mp h with ⟨marker, radix, tail, rfl, hm, h⟩ | ⟨n, after, rfl, hstop, -, -, h⟩
  · obtain ⟨cs, rfl, ht⟩ := afterHead_text h
    obtain ⟨-, hne⟩ := isRadixMarker_of_ofMarker? hm
    have hc := collapseZeros_replicate 0
      (show ∀ d ∈ (marker :: cs).head?, d ≠ '0' by simpa using hne)
    refine ⟨marker :: cs, rfl, ?_⟩
    rw [ht]
    exact congrArg String.ofList hc.symm
  · obtain ⟨cs, rfl, ht⟩ := afterHead_text h
    refine ⟨List.replicate n '0' ++ cs, by simp, ?_⟩
    rw [ht, collapseZeros_replicate]
    · rfl
    · intro c hc
      cases cs with
      | nil => simp at hc
      | cons d cs =>
        obtain rfl : d = c := by simpa using hc
        simpa using hstop

/-- **The text of a number is what its clusters spell, with leading zeros written once.** -/
theorem read_text {first : Cluster} {gs : List Cluster} {found : Found}
    (hf : first.isDecimalDigit = true) (h : read first gs = .ok found) :
    ∃ ls, gs = ls ++ found.rest ∧
      found.text = String.ofList (collapseZeros (Cluster.charsOf (first :: ls))) := by
  obtain ⟨c, rfl, _⟩ := Cluster.eq_ofChar_of_isOne hf
  unfold read at h
  rw [Cluster.is_ofChar] at h
  split at h
  · next hc =>
    obtain rfl : c = '0' := by simpa using hc
    obtain ⟨cs, hgs, ht⟩ := afterZero_text h
    refine ⟨cs.map .ofChar, hgs, ?_⟩
    rw [ht, Cluster.charsOf_cons, Cluster.charsOf_map_ofChar]
    rfl
  · next hc =>
    obtain ⟨cs, hgs, ht⟩ := afterHead_text h
    refine ⟨cs.map .ofChar, hgs, ?_⟩
    have hne : c ≠ '0' := by simpa using hc
    rw [ht, Cluster.charsOf_cons, Cluster.charsOf_map_ofChar]
    exact congrArg String.ofList (collapseZeros_of_ne hne cs).symm

end Lexis.Number
