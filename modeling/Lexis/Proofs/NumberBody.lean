import Lexis.Proofs.Following
import Lexis.Proofs.NumberGrammar

/-!
# The body of a number

What is read behind the head of a number is the rest of its whole part and what the grammar lets
follow it (`afterHead_iff`). The reader goes cluster by cluster and remembers what it has met. Seen
from afar it passes a run of digits, and then ends or goes on with a point or an exponent
(`body_cases`); a number takes at most three such runs.
-/

namespace Lexis.Number

/-! ## Runs of digits -/

section

variable {radix : Radix} {met met' : Met} {gs rest : List Cluster} {ds : List Char}

/-- All digits at the front are one run. -/
theorem exists_digits (radix : Radix) (gs : List Cluster) :
    ∃ ds after, gs = ds.map .ofChar ++ after ∧ Digits radix ds ∧
      after.head?.any radix.accepts = false := by
  induction gs with
  | nil => exact ⟨[], [], rfl, by simp [Digits], rfl⟩
  | cons g gs ih =>
    cases hg : radix.accepts g with
    | false => exact ⟨[], g :: gs, rfl, by simp [Digits], by simpa using hg⟩
    | true =>
      obtain ⟨d, rfl⟩ := eq_ofChar_of_accepts hg
      obtain ⟨ds, after, rfl, hds, hafter⟩ := ih
      refine ⟨d :: ds, after, rfl, ?_, hafter⟩
      intro x hx
      rcases List.mem_cons.mp hx with rfl | hx
      · exact Radix.accepts_iff.mp hg
      · exact hds x hx

/-- What was met, after a number of digits more. -/
def Met.addDigits (met : Met) (n : Nat) : Met :=
  ⟨met.point, met.endsInPoint && n == 0, met.exponentDigits.map (· + n)⟩

theorem Met.addDigits_zero (met : Met) : met.addDigits 0 = met := by
  simp [addDigits]

theorem Met.addDigits_addDigit (met : Met) (n : Nat) :
    met.addDigit.addDigits n = met.addDigits (n + 1) := by
  have hone : ∀ k : Nat, k + 1 + n = k + (n + 1) := fun k => by omega
  simp [addDigits, addDigit, Function.comp_def, hone]

/-- Digits in a row are read in one go. -/
theorem body_digits (hds : Digits radix ds) (met : Met) (gs : List Cluster) :
    body radix met (ds.map .ofChar ++ gs) = body radix (met.addDigits ds.length) gs := by
  induction ds generalizing met with
  | nil => rw [List.map_nil, List.nil_append, List.length_nil, Met.addDigits_zero]
  | cons d ds ih =>
    have hd := hds.accepts List.mem_cons_self
    have hletter : ¬((Cluster.ofChar d).is 'e' && radix ≠ .hex) = true := by
      intro h
      obtain ⟨he, hr⟩ := Bool.and_eq_true_iff.mp h
      rw [is_letter_of_accepts (of_decide_eq_true hr) hd] at he
      exact Bool.false_ne_true he
    rw [List.map_cons, List.cons_append, body, if_neg (by simp [is_point_of_accepts hd]),
      if_neg hletter, if_pos hd, ih fun x hx => hds x (List.mem_cons_of_mem _ hx),
      Met.addDigits_addDigit, List.length_cons]

/-- A point is read once, before an exponent, and not in front of another one. -/
theorem body_point (hnext : Cluster.nextIs gs '.' = false) (hp : met.point = false)
    (he : met.exponentDigits = none) :
    body radix met (.ofChar '.' :: gs) = body radix met.addPoint gs := by
  rw [body, if_pos (by rfl), if_neg (by simp [hnext]), if_neg (by simp [hp]), if_neg (by simp [he])]

/-- The letter of an exponent is read once, and not behind a point. -/
theorem body_letter (hr : radix ≠ .hex) (hp : met.endsInPoint = false)
    (he : met.exponentDigits = none) :
    body radix met (.ofChar 'e' :: gs) = body radix met.addExponent (afterSign gs) := by
  have hletter : ((Cluster.ofChar 'e').is 'e' && radix ≠ .hex) = true := by simp [hr]
  rw [body, if_neg (by decide), if_pos hletter, if_neg (by simp [hp]), if_neg (by simp [he])]

/-- **Behind a run of digits the body ends, or goes on with a point or an exponent.** -/
theorem body_cases (h : body radix met gs = .ok (met', rest)) :
    ∃ ds after, gs = ds.map .ofChar ++ after ∧ Digits radix ds ∧
      ((after = rest ∧ met' = met.addDigits ds.length) ∨
        (∃ tail, after = .ofChar '.' :: tail ∧ Cluster.nextIs tail '.' = false ∧
          met.point = false ∧ met.exponentDigits = none ∧
          body radix (met.addDigits ds.length).addPoint tail = .ok (met', rest)) ∨
        ∃ tail, after = .ofChar 'e' :: tail ∧ radix ≠ .hex ∧
          (met.addDigits ds.length).endsInPoint = false ∧ met.exponentDigits = none ∧
          body radix (met.addDigits ds.length).addExponent (afterSign tail) = .ok (met', rest)) := by
  obtain ⟨ds, after, rfl, hds, hafter⟩ := exists_digits radix gs
  refine ⟨ds, after, rfl, hds, ?_⟩
  rw [body_digits hds] at h
  have hexponent : ((met.addDigits ds.length).exponentDigits.isSome = false) →
      met.exponentDigits = none := by
    intro hnone
    simpa [Met.addDigits] using hnone
  cases after with
  | nil =>
    rw [body] at h
    obtain ⟨rfl, rfl⟩ := Prod.mk.inj (Except.ok.inj h)
    exact .inl ⟨rfl, rfl⟩
  | cons g tail =>
    have hg : radix.accepts g = false := by simpa using hafter
    rw [body] at h
    split at h
    · next hpoint =>
      obtain rfl := Cluster.eq_ofChar_of_is hpoint
      split at h
      · -- of two points the number takes none
        obtain ⟨rfl, rfl⟩ := Prod.mk.inj (Except.ok.inj h)
        exact .inl ⟨rfl, rfl⟩
      · next hnext =>
        split at h
        · simp at h
        · next hp =>
          split at h
          · simp at h
          · next he =>
            refine .inr (.inl ⟨tail, rfl, Bool.eq_false_iff.mpr hnext, ?_, ?_, h⟩)
            · simpa [Met.addDigits] using hp
            · exact hexponent (Bool.eq_false_iff.mpr he)
    · split at h
      · next hletter =>
        obtain ⟨he, hr⟩ := Bool.and_eq_true_iff.mp hletter
        obtain rfl := Cluster.eq_ofChar_of_is he
        split at h
        · simp at h
        · next hp =>
          split at h
          · simp at h
          · next he =>
            exact .inr (.inr ⟨tail, rfl, of_decide_eq_true hr, Bool.eq_false_iff.mpr hp,
              hexponent (Bool.eq_false_iff.mpr he), h⟩)
      · -- all digits have been taken before
        rw [if_neg (by simp [hg])] at h
        obtain ⟨rfl, rfl⟩ := Prod.mk.inj (Except.ok.inj h)
        exact .inl ⟨rfl, rfl⟩

end

/-! ## Exponents -/

section

variable {radix : Radix} {integer form : NumberForm} {met met' : Met} {gs rest : List Cluster}

/-- A sign is a digit of no radix. -/
theorem is_sign_of_accepts {g : Cluster} (h : radix.accepts g = true) :
    (g.is '+' || g.is '-') = false := by
  refine Bool.eq_false_iff.mpr fun hsign => ?_
  rcases Bool.or_eq_true_iff.mp hsign with hg | hg
  · rw [Cluster.eq_ofChar_of_is hg] at h
    cases radix <;> exact absurd h (by decide)
  · rw [Cluster.eq_ofChar_of_is hg] at h
    cases radix <;> exact absurd h (by decide)

theorem afterSign_of_head {gs : List Cluster}
    (h : gs.head?.any (fun g => g.is '+' || g.is '-') = false) : afterSign gs = gs := by
  cases gs with
  | nil => rfl
  | cons g gs => exact if_neg (Bool.eq_false_iff.mp h)

/-- A sign is passed, and what follows it is left. -/
theorem afterSign_append {sign : List Char} (hsign : sign ∈ signs) {gs : List Cluster}
    (h : sign = [] → gs.head?.any (fun g => g.is '+' || g.is '-') = false) :
    afterSign (sign.map .ofChar ++ gs) = gs := by
  simp only [signs, List.mem_cons, List.not_mem_nil, or_false] at hsign
  rcases hsign with rfl | rfl | rfl
  · exact afterSign_of_head (h rfl)
  · rfl
  · rfl

/-- An exponent is passed as far as it is written. -/
theorem body_exponent {sign es : List Char} (hr : radix ≠ .hex) (hp : met.endsInPoint = false)
    (he : met.exponentDigits = none) (hsign : sign ∈ signs) (hes : Digits radix es)
    (hrest : sign = [] → es = [] → rest.head?.any (fun g => g.is '+' || g.is '-') = false) :
    body radix met (('e' :: (sign ++ es)).map .ofChar ++ rest)
      = body radix (met.addExponent.addDigits es.length) rest := by
  have hhead : sign = [] →
      (es.map Cluster.ofChar ++ rest).head?.any (fun g => g.is '+' || g.is '-') = false := by
    intro hnone
    cases es with
    | nil => exact hrest hnone rfl
    | cons d es => exact is_sign_of_accepts (hes.accepts List.mem_cons_self)
  rw [List.map_cons, List.cons_append, body_letter hr hp he, List.map_append, List.append_assoc,
    afterSign_append hsign hhead, body_digits hes]

/-- An exponent is read to its end and settles the form. -/
theorem Exponent.body {xs : List Char} {rest : List Cluster} (h : Exponent xs)
    (hp : met.endsInPoint = false) (he : met.exponentDigits = none)
    (hstop : stops .decimal rest = true) :
    ∃ met', body .decimal met (xs.map .ofChar ++ rest) = .ok (met', rest) ∧
      Settles .decimal integer met' .exponent := by
  cases h with
  | @mk sign es hsign hes hne =>
    obtain ⟨d, ds, rfl⟩ := List.exists_cons_of_ne_nil hne
    rw [body_exponent (by decide) hp he hsign hes fun _ hnone => absurd hnone hne]
    refine ⟨_, body_of_stops _ hstop, .inr ⟨rfl, ⟨ds.length, ?_⟩, rfl⟩⟩
    simp [Met.addDigits, Met.addExponent]

/-- What is read behind the letter is an exponent, and the number is decimal. -/
theorem exponent_of_body {gs rest : List Cluster}
    (h : body radix met.addExponent (afterSign gs) = .ok (met', rest))
    (hs : Settles radix integer met' form) :
    radix = .decimal ∧ form = .exponent ∧
      ∃ xs, Exponent xs ∧ .ofChar 'e' :: gs = xs.map .ofChar ++ rest := by
  obtain ⟨sign, hsign, hgs⟩ := afterSign_eq gs
  obtain ⟨es, after, hsplit, hes, hcase⟩ := body_cases h
  rcases hcase with ⟨rfl, rfl⟩ | ⟨_, _, _, _, he, _⟩ | ⟨_, _, _, _, he, _⟩
  · rcases hs with ⟨he, -⟩ | ⟨rfl, ⟨n, hn⟩, rfl⟩
    · simp [Met.addDigits, Met.addExponent] at he
    · refine ⟨rfl, rfl, 'e' :: (sign ++ es), .mk hsign hes ?_, ?_⟩
      · rintro rfl
        simp [Met.addDigits, Met.addExponent] at hn
      · rw [hgs, hsplit]
        simp
  · simp [Met.addExponent] at he
  · simp [Met.addExponent] at he

/-! ## The whole part and what follows it -/

/-- A whole part and what follows it stand at the front of `gs`, and the number stops before `rest`. -/
structure BodyOf (radix : Radix) (whole tail : List Char) (gs rest : List Cluster) : Prop where
  split : gs = (whole ++ tail).map .ofChar ++ rest
  digits : Digits radix whole
  writes : Tail radix tail
  stops : stops radix rest = true
  /-- After the point of an empty fraction there is no second one. -/
  point : tail = ['.'] → Cluster.nextIs rest '.' = false

/-- A whole part with its tail is read to its end, and its form is settled. -/
theorem BodyOf.body {whole tail : List Char} {gs rest : List Cluster}
    (h : BodyOf radix whole tail gs rest) (integer : NumberForm) :
    ∃ met, body radix .nothing gs = .ok (met, rest) ∧
      Settles radix integer met (formWith radix integer tail) := by
  obtain ⟨rfl, hwhole, htail, hstop, hpoint⟩ := h
  rw [List.map_append, List.append_assoc, body_digits hwhole]
  cases htail with
  | nothing =>
    exact ⟨_, body_of_stops _ hstop, .inl ⟨rfl, formWith_nil radix integer⟩⟩
  | @fraction _ fs hfs =>
    have hnext : Cluster.nextIs (fs.map .ofChar ++ rest) '.' = false := by
      cases fs with
      | nil => exact hpoint rfl
      | cons d fs => exact is_point_of_accepts (hfs.accepts List.mem_cons_self)
    rw [List.map_cons, List.cons_append, body_point hnext rfl rfl, body_digits hfs]
    exact ⟨_, body_of_stops _ hstop, .inl ⟨rfl, formWith_fraction hfs integer⟩⟩
  | exponent hx =>
    rw [formWith_letter hx.letter_mem]
    exact hx.body rfl rfl hstop
  | @fractionExponent fs xs hfs hne hx =>
    obtain ⟨d, ds, rfl⟩ := List.exists_cons_of_ne_nil hne
    have hnext : Cluster.nextIs ((d :: ds ++ xs).map .ofChar ++ rest) '.' = false :=
      is_point_of_accepts (hfs.accepts List.mem_cons_self)
    rw [formWith_letter (List.mem_cons_of_mem _ (List.mem_append_right _ hx.letter_mem)),
      List.map_cons, List.cons_append, body_point hnext rfl rfl, List.map_append,
      List.append_assoc, body_digits hfs]
    exact hx.body (by simp [Met.addDigits]) rfl hstop

/-- What is read as a body is a whole part with its tail. -/
theorem bodyOf_of_body {gs rest : List Cluster} (h : body radix .nothing gs = .ok (met, rest))
    (hs : Settles radix integer met form) :
    ∃ whole tail, BodyOf radix whole tail gs rest ∧ form = formWith radix integer tail := by
  have hstop := stops_of_body h
  -- first the digits of the whole part, and then those of a fraction if there is a point
  obtain ⟨whole, after, rfl, hwhole, hcase⟩ := body_cases h
  rcases hcase with ⟨rfl, rfl⟩ | ⟨tail, rfl, hnext, -, -, h⟩ | ⟨tail, rfl, hr, -, -, h⟩
  · refine ⟨whole, [], ⟨by rw [List.append_nil], hwhole, .nothing, hstop, by simp⟩, ?_⟩
    rcases hs with ⟨-, hform⟩ | ⟨-, ⟨n, hn⟩, -⟩
    · rw [formWith_nil]
      exact hform
    · simp [Met.addDigits, Met.nothing] at hn
  · obtain ⟨fs, after, rfl, hfs, hcase⟩ := body_cases h
    rcases hcase with ⟨rfl, rfl⟩ | ⟨_, _, _, hp, _⟩ | ⟨tail, rfl, hr, hend, -, h⟩
    · refine ⟨whole, '.' :: fs, ⟨by simp, hwhole, .fraction hfs, hstop, ?_⟩, ?_⟩
      · intro htail
        obtain rfl : fs = [] := (List.cons.inj htail).2
        exact hnext
      · rcases hs with ⟨-, hform⟩ | ⟨-, ⟨n, hn⟩, -⟩
        · rw [formWith_fraction hfs]
          exact hform
        · simp [Met.addDigits, Met.addPoint, Met.nothing] at hn
    · simp [Met.addPoint] at hp
    · obtain ⟨rfl, rfl, xs, hx, hxs⟩ := exponent_of_body h hs
      -- no exponent stands directly behind the point
      have hne : fs ≠ [] := by
        rintro rfl
        simp [Met.addDigits, Met.addPoint] at hend
      refine ⟨whole, '.' :: (fs ++ xs),
        ⟨by rw [hxs]; simp, hwhole, .fractionExponent hfs hne hx, hstop, ?_⟩, ?_⟩
      · intro htail
        exact absurd (List.append_eq_nil_iff.mp (List.cons.inj htail).2).1 hne
      · have hmem : 'e' ∈ '.' :: (fs ++ xs) := by simp [hx.letter_mem]
        exact (formWith_letter hmem integer).symm
  · obtain ⟨rfl, rfl, xs, hx, hxs⟩ := exponent_of_body h hs
    refine ⟨whole, xs, ⟨by rw [hxs]; simp, hwhole, .exponent hx, hstop, ?_⟩, ?_⟩
    · rintro rfl
      cases hx
    · exact (formWith_letter hx.letter_mem integer).symm

/-- **What is read after the head is the rest of the whole part and what follows it.** -/
theorem afterHead_iff {head : List Char} {gs rest : List Cluster} :
    (∃ text, afterHead radix integer head gs = .ok ⟨form, text, rest⟩) ↔
      ∃ whole tail, BodyOf radix whole tail gs rest ∧ form = formWith radix integer tail := by
  constructor
  · rintro ⟨text, h⟩
    obtain ⟨met, hb, hs, -⟩ := afterHead_ok_iff.mp h
    exact bodyOf_of_body hb hs
  · rintro ⟨whole, tail, hbody, rfl⟩
    obtain ⟨met, hb, hs⟩ := hbody.body integer
    exact ⟨_, afterHead_ok_iff.mpr ⟨met, hb, hs, rfl⟩⟩

theorem BodyOf.afterHead {whole tail : List Char} {gs rest : List Cluster}
    (h : BodyOf radix whole tail gs rest) (integer : NumberForm) (head : List Char) :
    ∃ text, afterHead radix integer head gs = .ok ⟨formWith radix integer tail, text, rest⟩ :=
  afterHead_iff.mpr ⟨whole, tail, h, rfl⟩

end

end Lexis.Number
