import Lexis.LexicalError
import Lexis.Proofs.Delimiters

/-!
# Filling placeholders at once

A template is filled with one argument after another, over the text as it has become. Filled at once
(`Filled`), it holds each argument as it stands, and nothing of an argument is a placeholder. Both are
the same if the arguments before the last one are no part of a placeholder (`filled_iff_fill`), and so
for every message, which has one argument at most. An argument that looks like a placeholder is filled
by a later argument (`fill_not_filled`).
-/

namespace Lexis.Text.Placeholder

/-! ## Filling at once -/

/--
What a text becomes when its placeholders from an index on give way to the arguments at once.

The result is read off the text from left to right; what was put in is not read again.
-/
inductive Filled (index : Nat) (arguments : List String) : List Char → List Char → Prop
  | nil : Filled index arguments [] []
  | argument {n : Nat} {a : String} {cs result : List Char} : arguments[n]? = some a →
      Filled index arguments cs result →
      Filled index arguments ('{' :: (key (index + n) ++ cs)) (a.toList ++ result)
  /-- A character that no placeholder of an argument starts with is kept. -/
  | text {c : Char} {cs result : List Char} :
      (∀ n < arguments.length, ¬ '{' :: key (index + n) <+: c :: cs) →
      Filled index arguments cs result → Filled index arguments (c :: cs) (c :: result)

section

variable {index : Nat} {arguments : List String} {cs ds result result' : List Char}

/-- The index of a placeholder is told by its digits. -/
theorem key_append_inj {m n : Nat} (h : key m ++ cs = key n ++ ds) : m = n ∧ cs = ds := by
  rw [key, key, List.append_assoc, List.append_assoc] at h
  exact toString_append_inj (by decide) h

/-- A text is filled in one way only. -/
theorem Filled.unique (h : Filled index arguments cs result)
    (h' : Filled index arguments cs result') : result = result' := by
  induction h generalizing result' with
  | nil =>
    cases h' with
    | nil => rfl
  | @argument n a cs result ha _ ih =>
    generalize hcs : '{' :: (key (index + n) ++ cs) = text at h'
    cases h' with
    | nil => exact absurd hcs (List.cons_ne_nil _ _)
    | @argument m b ds _ hb hfilled =>
      obtain ⟨hindex, rfl⟩ := key_append_inj (List.cons.inj hcs).2
      obtain rfl : n = m := Nat.add_left_cancel hindex
      obtain rfl : a = b := Option.some.inj (ha.symm.trans hb)
      rw [ih hfilled]
    | text hnone =>
      refine absurd ?_ (hnone n (List.getElem?_eq_some_iff.mp ha).1)
      rw [← hcs]
      exact ⟨cs, rfl⟩
  | @text c cs result hnone _ ih =>
    generalize hcs : c :: cs = text at h'
    cases h' with
    | nil => exact absurd hcs (List.cons_ne_nil _ _)
    | @argument m b ds _ hb =>
      refine absurd ?_ (hnone m (List.getElem?_eq_some_iff.mp hb).1)
      rw [hcs]
      exact ⟨ds, rfl⟩
    | text _ hfilled =>
      obtain ⟨rfl, rfl⟩ := List.cons.inj hcs
      rw [ih hfilled]

/-- Every text is filled. -/
theorem exists_filled (index : Nat) (arguments : List String) (cs : List Char) :
    ∃ result, Filled index arguments cs result := by
  -- on the length, since a placeholder has several characters
  induction hlen : cs.length using Nat.strongRecOn generalizing cs with
  | ind len ih =>
    cases cs with
    | nil => exact ⟨[], .nil⟩
    | cons c cs =>
      by_cases hsome : ∃ n < arguments.length, '{' :: key (index + n) <+: c :: cs
      · obtain ⟨n, hn, rest, hrest⟩ := hsome
        have hlt : rest.length < len := by
          rw [← hlen, ← hrest, List.length_append, List.length_cons]
          omega
        obtain ⟨result, hresult⟩ := ih rest.length hlt rest rfl
        rw [← hrest]
        exact ⟨_, .argument (List.getElem?_eq_getElem hn) hresult⟩
      · have hlt : cs.length < len := by rw [← hlen, List.length_cons]; exact Nat.lt_succ_self _
        obtain ⟨result, hresult⟩ := ih cs.length hlt cs rfl
        exact ⟨c :: result, .text (fun n hn hfront => hsome ⟨n, hn, hfront⟩) hresult⟩

/-- Without arguments a text stays as it is. -/
theorem filled_nil (index : Nat) (cs : List Char) : Filled index [] cs cs := by
  induction cs with
  | nil => exact .nil
  | cons c cs ih => exact .text (fun n hn => absurd hn (Nat.not_lt_zero n)) ih

theorem Filled.eq_of_nil (h : Filled index [] cs result) : cs = result :=
  (filled_nil index cs).unique h

/-- Text without an opening brace is kept in front. -/
theorem Filled.append {front : List Char} (hfront : '{' ∉ front)
    (h : Filled index arguments cs result) :
    Filled index arguments (front ++ cs) (front ++ result) := by
  induction front with
  | nil => exact h
  | cons c front ih =>
    obtain ⟨hc, hfront⟩ := List.ne_and_not_mem_of_not_mem_cons hfront
    refine .text ?_ (ih hfront)
    rintro n - ⟨rest, hrest⟩
    exact hc (List.cons.inj hrest).1

end

/-! ## Filling one placeholder -/

/-- An argument that is no part of a placeholder: no brace opens in it, and its first character that
is no digit closes none. -/
def Inert (cs : List Char) : Prop :=
  '{' ∉ cs ∧ (cs.dropWhile Char.isDigit).head?.any (· ≠ '}') = true

instance (cs : List Char) : Decidable (Inert cs) := inferInstanceAs (Decidable (_ ∧ _))

section

variable {k value cs ds : List Char} {c : Char}

theorem eq_append_of_after? {front rest : List Char} (h : after? front cs = some rest) :
    cs = front ++ rest := by
  fun_induction after? front cs with
  | case1 => exact Option.some.inj h
  | case2 => simp at h
  | case3 c fs cs ih => rw [ih h, List.cons_append]
  | case4 => simp at h

/-- A character that no placeholder starts with is kept. -/
theorem replace_cons (h : ¬ '{' :: k <+: c :: cs) :
    replace k value (c :: cs) = c :: replace k value cs := by
  rw [replace]
  split
  · next hc =>
    split
    · next rest hafter =>
      refine absurd ?_ h
      rw [hc, eq_append_of_after? hafter]
      exact ⟨rest, rfl⟩
    · rfl
  · rfl

/-- Digits that a brace closes are not the front of an inert argument. -/
theorem Inert.not_front (h : Inert value) (hds : ∀ d ∈ ds, d.isDigit = true) (rest : List Char) :
    ¬ds ++ ['}'] <+: value ++ rest := by
  obtain ⟨-, hinert⟩ := h
  induction value generalizing ds with
  | nil => exact absurd hinert (by simp)
  | cons v value ih =>
    rintro ⟨tail, heq⟩
    cases ds with
    | nil =>
      obtain ⟨rfl, -⟩ := List.cons.inj heq
      exact absurd hinert (by simp)
    | cons d ds =>
      obtain ⟨rfl, htail⟩ := List.cons.inj heq
      obtain ⟨hd, hds⟩ := List.forall_mem_cons.mp hds
      rw [List.dropWhile_cons_of_pos hd] at hinert
      exact ih hds hinert ⟨tail, htail⟩

/-- No placeholder is completed by inert arguments. -/
theorem Inert.front_of_replace (h : Inert value) (hds : ∀ d ∈ ds, d.isDigit = true)
    (hfront : ds ++ ['}'] <+: replace k value cs) : ds ++ ['}'] <+: cs := by
  induction cs generalizing ds with
  | nil =>
    rw [replace] at hfront
    exact hfront
  | cons c cs ih =>
    by_cases hkey : '{' :: k <+: c :: cs
    · obtain ⟨rest, hrest⟩ := hkey
      rw [← hrest, List.cons_append, replace_placeholder] at hfront
      exact absurd hfront (h.not_front hds _)
    · rw [replace_cons hkey] at hfront
      cases ds with
      | nil =>
        obtain ⟨tail, heq⟩ := hfront
        obtain ⟨rfl, -⟩ := List.cons.inj heq
        exact ⟨cs, rfl⟩
      | cons d ds =>
        obtain ⟨hd, hds⟩ := List.forall_mem_cons.mp hds
        obtain ⟨rfl, htail⟩ := List.cons_prefix_cons.mp hfront
        exact List.cons_prefix_cons.mpr ⟨rfl, ih hds htail⟩

end

/-! ## One argument after another -/

section

variable {index : Nat} {a : String} {arguments : List String} {cs result : List Char}

theorem brace_notMem_key (n : Nat) : '{' ∉ key n := by
  intro h
  rcases List.mem_append.mp h with h | h
  · exact absurd (isDigit_of_mem_toString h) (by decide)
  · exact absurd h (by decide)

/-- **Once the first placeholder is filled with an inert argument, the others are left to fill.** -/
theorem Filled.replace_first (h : Filled index (a :: arguments) cs result)
    (ha : arguments = [] ∨ Inert a.toList) :
    Filled (index + 1) arguments (replace (key index) a.toList cs) result := by
  induction h with
  | nil =>
    rw [replace]
    exact .nil
  | @argument n b cs result hb _ ih =>
    cases n with
    | zero =>
      -- the placeholder that is filled now
      obtain rfl : a = b := Option.some.inj hb
      show Filled _ _ (replace (key index) a.toList ('{' :: (key index ++ cs))) _
      rw [replace_placeholder]
      rcases ha with rfl | ha
      · rw [ih.eq_of_nil]
        exact filled_nil _ _
      · exact ih.append ha.1
    | succ n =>
      have hne : ¬ '{' :: key index <+: '{' :: (key (index + (n + 1)) ++ cs) := by
        rintro ⟨rest, hrest⟩
        have hindex := (key_append_inj (List.cons.inj hrest).2).1
        omega
      rw [replace_cons hne, replace_append (brace_notMem_key _), ← Nat.add_assoc,
        Nat.add_right_comm]
      exact .argument hb ih
  | @text c cs result hnone _ ih =>
    have hkey : ¬ '{' :: key index <+: c :: cs := hnone 0 (Nat.succ_pos _)
    rw [replace_cons hkey]
    refine .text ?_ ih
    -- a later placeholder would have to be made of what was put in
    intro n hn hfront
    have hinert : Inert a.toList := by
      rcases ha with rfl | ha
      · exact absurd hn (Nat.not_lt_zero n)
      · exact ha
    obtain ⟨hc, htail⟩ := List.cons_prefix_cons.mp hfront
    refine hnone (n + 1) (Nat.succ_lt_succ hn) ?_
    rw [← Nat.add_assoc, Nat.add_right_comm]
    refine List.cons_prefix_cons.mpr ⟨hc, ?_⟩
    exact hinert.front_of_replace (fun d hd => isDigit_of_mem_toString hd) htail

theorem Filled.fillFrom_eq (h : Filled index arguments cs result)
    (hinert : ∀ a ∈ arguments.dropLast, Inert a.toList) : fillFrom index arguments cs = result := by
  induction arguments generalizing index cs with
  | nil => exact h.eq_of_nil
  | cons a arguments ih =>
    rw [fillFrom]
    cases arguments with
    | nil => exact ih (h.replace_first (.inl rfl)) (by simp)
    | cons b arguments =>
      obtain ⟨ha, hrest⟩ := List.forall_mem_cons.mp hinert
      exact ih (h.replace_first (.inr ha)) hrest

end

theorem filled_fill {template : String} {arguments : List String}
    (hinert : ∀ a ∈ arguments.dropLast, Inert a.toList) :
    Filled 0 arguments template.toList (fill template arguments).toList := by
  obtain ⟨result, hresult⟩ := exists_filled 0 arguments template.toList
  rw [fill, String.toList_ofList, hresult.fillFrom_eq hinert]
  exact hresult

/-- **A template is filled at once if all arguments but the last are inert.** -/
theorem filled_iff_fill {template : String} {arguments : List String}
    (hinert : ∀ a ∈ arguments.dropLast, Inert a.toList) (result : String) :
    Filled 0 arguments template.toList result.toList ↔ fill template arguments = result := by
  constructor
  · intro h
    exact String.toList_inj.mp ((filled_fill hinert).unique h)
  · rintro rfl
    exact filled_fill hinert

/-- A cluster that is put in first, in a template that has its second argument twice. -/
theorem filled_iff_fill_twice : (∀ a ∈ ["q", "{0}"].dropLast, Inert a.toList) ∧
    Filled 0 ["q", "{0}"] "{1}, {0}, {1}".toList "{0}, q, {0}".toList := by
  have hinert : ∀ a ∈ ["q", "{0}"].dropLast, Inert a.toList := by decide
  exact ⟨hinert, (filled_iff_fill hinert _).mpr (by decide +kernel)⟩

/-- An argument that is a placeholder itself gives way to the next one. -/
theorem fill_not_filled : fill "{0}" ["{1}", "z"] = "z" ∧
    Filled 0 ["{1}", "z"] "{0}".toList "{1}".toList ∧
    ¬Filled 0 ["{1}", "z"] "{0}".toList "z".toList := by
  have hfilled : Filled 0 ["{1}", "z"] ('{' :: (key 0 ++ [])) ("{1}".toList ++ []) :=
    .argument (n := 0) rfl .nil
  refine ⟨by decide +kernel, hfilled, ?_⟩
  intro h
  exact absurd (hfilled.unique h) (by decide)

end Lexis.Text.Placeholder

namespace Lexis

open Text.Placeholder

/-! ## Messages -/

/-- A message with one argument or none is its template, filled at once. -/
theorem Diagnostic.filled_ofTemplate (m : MessageTemplate) (position : Position)
    {arguments : List String} (h : arguments.length ≤ 1) :
    Filled 0 arguments m.text.toList (ofTemplate m position arguments).message.toList := by
  refine filled_fill ?_
  intro a ha
  have hpos := List.length_pos_of_mem ha
  rw [List.length_dropLast] at hpos
  omega

/-- **What an error names stands in its message as it is**, whatever the source has there. -/
theorem LexicalError.filled_diagnostic (e : LexicalError) (position : Position) :
    Filled 0 e.arguments e.template.text.toList (e.diagnostic position).message.toList := by
  refine Diagnostic.filled_ofTemplate e.template position ?_
  cases e <;> simp [arguments]

end Lexis
