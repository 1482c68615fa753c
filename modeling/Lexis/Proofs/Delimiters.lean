import Mathlib.Data.List.Basic

/-!
# What ends a part

Written behind each other, parts are told apart by a character that none of them holds: a part ends
before the first one (`append_cons_inj`). So ends a number before anything that is no digit, and its
digits tell the number (`toString_append_inj`).
-/

namespace Lexis.Text

/-- A part without a character is told by the first of these behind it. -/
theorem append_cons_inj {c : Char} {cs ds rest rest' : List Char} (h : c ∉ cs) (h' : c ∉ ds)
    (heq : cs ++ c :: rest = ds ++ c :: rest') : cs = ds ∧ rest = rest' := by
  induction cs generalizing ds with
  | nil =>
    cases ds with
    | nil => exact ⟨rfl, (List.cons.inj heq).2⟩
    | cons d ds => exact absurd (List.mem_cons.mpr (.inl (List.cons.inj heq).1)) h'
  | cons b cs ih =>
    cases ds with
    | nil => exact absurd (List.mem_cons.mpr (.inl (List.cons.inj heq).1.symm)) h
    | cons d ds =>
      obtain ⟨rfl, htail⟩ := List.cons.inj heq
      obtain ⟨rfl, hrest⟩ := ih (List.not_mem_of_not_mem_cons h) (List.not_mem_of_not_mem_cons h')
        htail
      exact ⟨rfl, hrest⟩

theorem isDigit_of_mem_toString {n : Nat} {c : Char} (h : c ∈ (toString n).toList) :
    c.isDigit = true := by
  rw [Nat.toString_eq_repr, Nat.toList_repr] at h
  exact Nat.isDigit_of_mem_toDigits (by decide) (by decide) h

/-- A number is told by its digits, which end before any other character. -/
theorem toString_append_inj {m n : Nat} {c : Char} (hc : c.isDigit = false) {cs ds : List Char}
    (h : (toString m).toList ++ c :: cs = (toString n).toList ++ c :: ds) : m = n ∧ cs = ds := by
  have hnot : ∀ k : Nat, c ∉ (toString k).toList := by
    intro k hmem
    rw [isDigit_of_mem_toString hmem] at hc
    exact absurd hc (by decide)
  obtain ⟨hdigits, hrest⟩ := append_cons_inj (hnot m) (hnot n) h
  have hvalue := congrArg (fun ds => Nat.ofDigitChars 10 ds 0) hdigits
  simp only [Nat.toString_eq_repr, Nat.toList_repr, Nat.ofDigitChars_ten_toDigits] at hvalue
  exact ⟨hvalue, hrest⟩

end Lexis.Text
