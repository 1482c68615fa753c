import Lexis.Proofs.NumberFront
import Lexis.Proofs.Run
import Mathlib.Data.List.Basic

/-!
# Why numbers are rejected

Which of the seven errors a number gives, and where (`Rejected`): several zeros are looked at first,
and else the number's longest front decides with the cluster behind it. A number is rejected exactly
so (`read_error_iff`), and the scanner reports it at the place behind what the number has passed
(`Scanner.next_number_error_iff`).
-/

namespace Lexis

namespace Number

/-- Several zeros, and behind them what may follow a lone zero only. -/
def ZerosRefused (gs rest : List Cluster) : Prop :=
  ∃ n, gs = (List.replicate (n + 2) '0').map .ofChar ++ rest ∧
    ∃ c ∈ loneZeroOnly, Cluster.nextIs rest c = true

/-- Why the clusters `gs` begin no number, and what is left of them where that shows. -/
inductive Rejected (gs : List Cluster) : Fault → Prop
  | zeros {rest : List Cluster} (refused : ZerosRefused gs rest) :
      Rejected gs ⟨.multipleLeadingZeros, rest⟩
  | front {radix : Radix} {p : Front} {rest : List Cluster} {cause : LexicalError}
      (allowed : ∀ left, ¬ZerosRefused gs left) (longest : LongestFront gs radix p rest)
      (error : p.error? radix rest = some cause) : Rejected gs ⟨cause, rest⟩

/-! ## Zeros -/

section

variable {gs rest after : List Cluster}

/-- What is refused behind zeros is no zero itself, so all zeros stand before it. -/
theorem ZerosRefused.rest_eq (h : ZerosRefused gs rest) : rest = gs.dropWhile (·.is '0') := by
  obtain ⟨n, rfl, c, hc, hnext⟩ := h
  obtain ⟨tail, rfl⟩ := Cluster.eq_cons_of_nextIs hnext
  have hstop : (Cluster.ofChar c :: tail).head?.any (·.is '0') = false := by
    show (Cluster.ofChar c).is '0' = false
    rw [Cluster.is_ofChar, beq_eq_false_iff_ne]
    rintro rfl
    exact notMem_loneZeroOnly_of_digit (by decide) hc
  exact (span_append (fun g hg => is_zero_of_mem_replicate hg) hstop).2.symm

theorem not_zerosRefused_cons {c d : Char} (h : ¬(c = '0' ∧ d = '0')) :
    ¬ZerosRefused (.ofChar c :: .ofChar d :: gs) rest := by
  rintro ⟨n, hsplit, -⟩
  obtain ⟨hc, htail⟩ := List.cons.inj hsplit
  obtain ⟨hd, -⟩ := List.cons.inj htail
  refine h ⟨?_, ?_⟩
  · simpa [Cluster.ofChar] using hc
  · simpa [Cluster.ofChar] using hd

/-- Zeros are refused only before what a reader refuses behind several of them. -/
theorem not_zerosRefused {n : Nat} (hstop : after.head?.any (·.is '0') = false)
    (hlone : n ≠ 0 → rejectsZeros after = false) :
    ¬ZerosRefused ((List.replicate (n + 1) '0').map .ofChar ++ after) rest := by
  intro h
  have hrest := h.rest_eq
  rw [(span_append (fun g hg => is_zero_of_mem_replicate hg) hstop).2] at hrest
  subst hrest
  obtain ⟨m, hsplit, c, hc, hnext⟩ := h
  have hlen := congrArg List.length hsplit
  simp only [List.length_append, List.length_map, List.length_replicate] at hlen
  have hallowed := rejectsZeros_eq_false_iff.mp (hlone (by omega)) c hc
  exact Bool.false_ne_true (hallowed.symm.trans hnext)

end

/-! ## Reading -/

section

variable {radix : Radix} {integer integer' : NumberForm} {head head' : List Char}
  {first : Cluster} {gs gs' rest : List Cluster} {fault : Fault}

/-- Whether a number fails behind its head is up to its body. -/
theorem afterHead_error_congr (h : body radix .nothing gs = body radix .nothing gs') :
    afterHead radix integer head gs = .error fault ↔
      afterHead radix integer' head' gs' = .error fault := by
  unfold afterHead
  rw [h]
  cases body radix .nothing gs' with
  | error fault => simp
  | ok found =>
    obtain ⟨met, rest⟩ := found
    cases hx : met.exponentDigits with
    | none => simp [hx]
    | some n =>
      by_cases hr : radix = .decimal
      · by_cases hn : n = 0
        · simp [hx, hr, hn]
        · simp [hx, hr, hn]
      · simp [hx, hr]

/-- Zeros in front of a body change nothing of what is met. -/
theorem body_zeros (n : Nat) (gs : List Cluster) :
    body .decimal .nothing ((List.replicate n '0').map .ofChar ++ gs)
      = body .decimal .nothing gs := by
  rw [body_digits (digits_replicate n)]
  rfl

/-- **Several zeros are refused, or a number has a head and fails as what is behind it does.** -/
theorem read_cases (hfirst : first.isDecimalDigit = true) (gs : List Cluster) :
    (∃ rest, ZerosRefused (first :: gs) rest ∧
        read first gs = .error ⟨.multipleLeadingZeros, rest⟩) ∨
      (∀ rest, ¬ZerosRefused (first :: gs) rest) ∧
        ∃ radix head after, Begins (first :: gs) radix head after ∧
          ∀ fault, read first gs = .error fault ↔
            afterHead radix .decimalInteger head after = .error fault := by
  obtain ⟨d, rfl, hd⟩ := Cluster.eq_ofChar_of_isOne hfirst
  by_cases hz : d = '0'
  · subst hz
    have hread : read (.ofChar '0') gs = afterZero gs := rfl
    rw [hread]
    rcases zeros_cases gs with
      ⟨marker, radix, tail, rfl, hm⟩ | ⟨n, after, rfl, hstop, ⟨hn, hr⟩ | ⟨hlone, hm⟩⟩
    · -- a marker behind a lone zero
      have hmarker := Radix.ofMarker?_eq_some_iff.mp hm
      refine .inr ⟨fun rest => not_zerosRefused_cons fun h => marker_ne_zero hmarker h.2, radix,
        ['0', marker], tail, .marked hmarker, fun fault => ?_⟩
      rw [afterZero_marker hm]
      exact afterHead_error_congr rfl
    · obtain ⟨m, rfl⟩ := Nat.exists_eq_succ_of_ne_zero hn
      exact .inl ⟨after, ⟨m, rfl, rejectsZeros_eq_true_iff.mp hr⟩, afterZero_rejected hstop hn hr⟩
    · -- zeros that are allowed are digits like any others
      have hunmarked : ∀ c ∈ markers,
          Cluster.nextIs ((List.replicate n '0').map .ofChar ++ after) c = false := by
        cases n with
        | zero => exact any_isRadixMarker_eq_false_iff.mp hm
        | succ n => exact is_eq_false_of_notMem (notMem_markers_of_digit (by decide))
      refine .inr ⟨fun rest => not_zerosRefused hstop hlone, .decimal, ['0'], _,
        .digit (by decide) fun _ => hunmarked, fun fault => ?_⟩
      rw [afterZero_zeros hstop hlone hm]
      exact afterHead_error_congr (body_zeros n after).symm
  · have hread : read (.ofChar d) gs = afterHead .decimal .decimalInteger [d] gs :=
      if_neg (by simpa using hz)
    refine .inr ⟨?_, .decimal, [d], gs,
      .digit (Radix.accepts_iff.mp hfirst) fun h => absurd h hz, fun fault => ?_⟩
    · rintro rest ⟨n, hsplit, -⟩
      exact hz (by simpa [Cluster.ofChar] using (List.cons.inj hsplit).1)
    · rw [hread]

/-- **A number is rejected for several zeros, or for its longest front, and for nothing else.** -/
theorem read_error_iff (hfirst : first.isDecimalDigit = true) :
    read first gs = .error fault ↔ Rejected (first :: gs) fault := by
  rcases read_cases hfirst gs with ⟨rest, hz, hread⟩ | ⟨hz, radix, head, after, hbegins, hread⟩
  · rw [hread]
    constructor
    · intro h
      obtain rfl := Except.error.inj h
      exact .zeros hz
    · intro h
      cases h with
      | zeros hz' => rw [hz.rest_eq, hz'.rest_eq]
      | front allowed => exact absurd hz (allowed rest)
  · -- the number has one head, so every longest front is one behind it
    have hfault : ∀ {r : Radix} {p : Front} {left : List Cluster},
        LongestFront (first :: gs) r p left →
          (read first gs = .error fault ↔ p.error? r left = some fault.cause ∧ fault.rest = left) := by
      intro r p left hp
      obtain ⟨rfl, rfl, rfl⟩ := hbegins.unique hp.begins
      exact (hread fault).trans hp.afterHead_error_iff
    constructor
    · intro h
      obtain ⟨p, left, hp⟩ := hbegins.exists_longest
      obtain ⟨herror, rfl⟩ := (hfault hp).mp h
      exact .front hz hp herror
    · intro h
      cases h with
      | zeros hz' => exact absurd hz' (hz _)
      | front _ hp herror => exact (hfault hp).mpr ⟨herror, rfl⟩

end

end Number

/-! ## The scanner -/

theorem Cluster.isBlank_of_isDecimalDigit {g : Cluster} (h : g.isDecimalDigit = true) :
    g.isBlank = false := by
  obtain ⟨c, rfl, hc⟩ := eq_ofChar_of_isOne h
  have hmem := Alphabet.mem_of_isDecimalDigit hc
  simp only [List.mem_cons, List.not_mem_nil, or_false] at hmem
  rcases hmem with rfl | rfl | rfl | rfl | rfl | rfl | rfl | rfl | rfl | rfl <;> rfl

/-- In code a digit begins a number. -/
theorem Lexeme.read_digit_error_iff {place : Place} {first : Cluster} {gs : List Cluster}
    {fault : Fault} (hplace : place ≠ .templateText) (hfirst : first.isDecimalDigit = true) :
    read place (first :: gs) = .error fault ↔ Number.read first gs = .error fault := by
  rw [read_eq_readCode hplace, readCode, Opening.of_digit hfirst]
  simp only [number]
  cases Number.read first gs with
  | error fault => simp
  | ok found => simp

namespace Scanner

variable {s s' : Scanner} {d : Diagnostic}

/--
**A number is rejected for its first fault, and there.**

Where a digit is ahead in code, a call fails exactly if the clusters ahead are rejected as a number.
The error is placed behind the clusters that were passed, and the scan stops there.
-/
theorem next_number_error_iff {first : Cluster} {gs : List Cluster}
    (hplace : s.frames.place ≠ .templateText) (hahead : s.cursor.ahead = first :: gs)
    (hfirst : first.isDecimalDigit = true) :
    s.next = (.error d, s') ↔
      ∃ passed fault, first :: gs = passed ++ fault.rest ∧ Number.Rejected (first :: gs) fault ∧
        d = fault.cause.diagnostic (s.position.passing passed) ∧ s' = s.stopped passed := by
  have hblanks := blanksIn_of_head hahead (Cluster.isBlank_of_isDecimalDigit hfirst)
  simp only [next_eq_error_iff hblanks, hahead, Lexeme.read_digit_error_iff hplace hfirst,
    Number.read_error_iff hfirst]

/-- The second point of a number is refused behind the exponent. -/
theorem next_number_error_iff_point :
    ∃ passed fault, "1.5e3.2".toList.map Cluster.ofChar = passed ++ fault.rest ∧
      Number.Rejected ("1.5e3.2".toList.map .ofChar) fault ∧
      LexicalError.multipleDecimalPoints.diagnostic ⟨5, 1, 6⟩
        = fault.cause.diagnostic ((ofText "1.5e3.2").position.passing passed) ∧
      ((ofText "1.5e3.2").next).2 = (ofText "1.5e3.2").stopped passed :=
  (next_number_error_iff (s := ofText "1.5e3.2") (by decide) (by decide +kernel) (by decide)).mp
    (by decide +kernel)

end Scanner

end Lexis
