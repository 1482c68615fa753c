import Lexis.Proofs.Following
import Lexis.Proofs.Passing

/-!
# The same token before other clusters

A call takes the token of the clusters that come first, whatever has led there and whatever follows,
as far as what follows looks the same (`Takes.replace`). Relations between two scans are kept by
calls for this reason.
-/

namespace Lexis

/-- A token of a kind that ends before `rest` also ends before `after`. -/
structure EndsAlike (kind : TokenKind) (after rest : List Cluster) : Prop
    extends Replaces after rest where
  comment : kind = .lineComment → EndsLine rest → EndsLine after
  fragment : kind = .templateFragment → EndsText rest → EndsText after

/-- Tokens end alike before what looks the same. -/
theorem EndsAlike.of_sight {after rest : List Cluster} (kind : TokenKind)
    (hsight : sight after = sight rest) (hline : EndsLine rest → EndsLine after) :
    EndsAlike kind after rest where
  toReplaces := .of_sight hsight
  comment _ := hline
  fragment _ htext := Lexeme.endsText_of_sight htext hsight

namespace Scanner

variable {s s' u : Scanner} {t : Token} {blanks lexeme rest : List Cluster}

/-- The blanks before a lexeme end at its first cluster, whatever follows that. -/
theorem blanksIn_append_cons {g : Cluster} (hframes : u.frames = s.frames)
    (h : s.blanksIn (blanks ++ g :: rest) = blanks) (rest' : List Cluster) :
    u.blanksIn (blanks ++ g :: rest') = blanks := by
  have hblank : ∀ k ∈ blanks, k.isBlank = true := by
    intro k hk
    rw [← h] at hk
    exact isBlank_of_mem_blanksIn hk
  unfold blanksIn at h ⊢
  rw [hframes]
  split at h
  · exact h
  · have hg : g.isBlank = false := by
      refine Bool.eq_false_iff.mpr fun hg => ?_
      rw [List.takeWhile_append_of_pos hblank, List.takeWhile_cons_of_pos hg] at h
      exact absurd (List.append_right_eq_self.mp h) (List.cons_ne_nil _ _)
    exact (span_append hblank (by simp [hg])).1

/-- **A scan in the same frames takes the token of the same lexeme, if that still ends there.** -/
theorem Takes.replace_rest (h : s.Takes blanks lexeme t s') (hframes : u.frames = s.frames)
    (hahead : u.cursor.ahead = blanks ++ (lexeme ++ rest))
    (hend : EndsAlike t.kind rest s'.cursor.ahead) :
    u.Takes blanks lexeme ⟨t.kind, u.position.passing blanks, t.text⟩
      (u.past blanks lexeme t.kind) := by
  refine takes_of_read hahead ?_ ?_
  · obtain ⟨g, gs, hg⟩ := List.exists_cons_of_ne_nil h.lexeme_ne_nil
    have hblanks := h.blanksIn
    rw [h.ahead, hg] at hblanks
    rw [hahead, hg]
    exact blanksIn_append_cons hframes hblanks _
  · rw [hframes]
    exact Lexeme.read_of_replaces hend.toReplaces h.chars_ne_nil hend.comment hend.fragment h.read

/-- **A scan in the same frames takes the token of the same lexeme, if what follows looks the same.** -/
theorem Takes.replace (h : s.Takes blanks lexeme t s') (hframes : u.frames = s.frames)
    (hahead : u.cursor.ahead = blanks ++ (lexeme ++ rest))
    (hsight : sight rest = sight s'.cursor.ahead)
    (hend : EndsLine s'.cursor.ahead → EndsLine rest) :
    u.Takes blanks lexeme ⟨t.kind, u.position.passing blanks, t.text⟩
      (u.past blanks lexeme t.kind) :=
  h.replace_rest hframes hahead (.of_sight t.kind hsight hend)

end Scanner

end Lexis
