import Lexis.Lexeme
import Lexis.Proofs.TextContent

/-!
# Template text

What template text admits: a fragment that is not empty and reaches up to where the template or the
next interpolation is marked (`EndsText`), or one of these marks.
-/

namespace Lexis

/-- Clusters that begin with what ends template text. -/
def EndsText (gs : List Cluster) : Prop :=
  ∃ g tail, gs = g :: tail ∧ TextLiteral.closes .template g tail = true

namespace TextLiteral

theorem content_of_endsText {gs : List Cluster} (h : EndsText gs) :
    content .template gs = .ok ([], gs) := by
  obtain ⟨g, tail, rfl, hclose⟩ := h
  rw [content, if_pos hclose]

/-- Content that stands for nothing has no clusters. -/
theorem eq_of_content_nil {form : TextForm} {gs rest : List Cluster}
    (h : content form gs = .ok ([], rest)) (hgs : ∀ g ∈ gs, g.chars ≠ []) : rest = gs := by
  obtain ⟨body, rfl, hbody, -⟩ := content_decodes h
  generalize hcs : ([] : List Char) = cs at hbody
  cases hbody with
  | nil => rfl
  | raw =>
    have hg := (List.append_eq_nil_iff.mp hcs.symm).1
    exact absurd hg (hgs _ (by simp))
  | escape => exact absurd hcs (by simp)

end TextLiteral

namespace Lexeme

/-- What ends template text is read as a mark of the template, whatever follows the mark. -/
theorem readCode_of_endsText {gs : List Cluster} (h : EndsText gs) (place : Place) :
    ∃ kind mark tail, gs = mark ++ tail ∧
      readCode place gs = .ok ⟨kind, Cluster.textOf mark, tail⟩ ∧
      (kind = .templateQuote ∨ kind = .interpolationStart) ∧ ∀ after, EndsText (mark ++ after) := by
  obtain ⟨g, tail, rfl, hclose⟩ := h
  rcases Bool.or_eq_true_iff.mp hclose with hquote | hopen
  · obtain rfl := Cluster.eq_ofChar_of_is hquote
    exact ⟨.templateQuote, [.ofChar '`'], tail, rfl, rfl, .inl rfl, fun after => ⟨_, _, rfl, rfl⟩⟩
  · obtain ⟨hdollar, hbrace⟩ := Bool.and_eq_true_iff.mp hopen
    obtain rfl := Cluster.eq_ofChar_of_is hdollar
    obtain ⟨tail, rfl⟩ := Cluster.eq_cons_of_nextIs hbrace
    exact ⟨.interpolationStart, [.ofChar '$', .ofChar '{'], tail, rfl, rfl, .inr rfl,
      fun after => ⟨_, _, rfl, rfl⟩⟩

/-- **Template text gives a fragment, or one of the marks that end it.** -/
theorem read_templateText {gs : List Cluster} {x : Lexeme} (hgs : ∀ g ∈ gs, g.chars ≠ [])
    (h : read .templateText gs = .ok x) :
    (x.kind = .templateFragment ∧ x.text ≠ "" ∧ ¬EndsText gs ∧ EndsText x.rest) ∨
      x.kind = .templateQuote ∨ x.kind = .interpolationStart := by
  unfold read TextLiteral.fragment at h
  simp only at h
  split at h
  · simp at h
  · next text rest hc =>
    obtain ⟨_, _, _, hend⟩ := TextLiteral.content_decodes hc
    split at h
    · next hempty =>
      obtain rfl := List.isEmpty_iff.mp hempty
      obtain rfl := TextLiteral.eq_of_content_nil hc hgs
      obtain ⟨kind, mark, tail, -, hread, hkind, -⟩ := readCode_of_endsText hend .templateText
      obtain rfl := Except.ok.inj (h.symm.trans hread)
      exact .inr hkind
    · next hempty =>
      obtain rfl := Except.ok.inj h
      have hne : text ≠ [] := by simpa using hempty
      refine .inl ⟨rfl, ?_, ?_, hend⟩
      · intro htext
        exact hne (String.ofList_eq_empty_iff.mp htext)
      · intro hends
        rw [TextLiteral.content_of_endsText hends] at hc
        exact hne (Prod.mk.inj (Except.ok.inj hc)).1.symm

end Lexeme

end Lexis
