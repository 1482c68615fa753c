import Lexis.Proofs.Run

/-!
# What calls pass

Whatever a call gives, it passes clusters that were ahead of the scan, and nothing else of the source
(`Passes`): at least one with a token, and with an error at least one or none. So does any number of
calls, and so does a run.
-/

namespace Lexis

/-- Clusters that are ahead take up bytes. -/
theorem Cursor.size_pos_of_mem_ahead {c : Cursor} {gs : List Cluster} (hne : gs ≠ [])
    (h : ∀ g ∈ gs, g ∈ c.ahead) : 0 < Text.size (Cluster.charsOf gs) := by
  obtain ⟨g, tail, rfl⟩ := List.exists_cons_of_ne_nil hne
  obtain ⟨a, cs, hc⟩ := List.exists_cons_of_ne_nil (Cursor.ne_nil_of_mem_ahead (h g (by simp)))
  rw [Cluster.charsOf_cons, hc, List.cons_append, Text.size_cons]
  exact Nat.add_pos_left a.utf8Size_pos _

namespace Scanner

/-- Between two states of a scan the clusters `gs` are passed. -/
structure Passes (s : Scanner) (gs : List Cluster) (s' : Scanner) : Prop where
  options : s'.options = s.options
  source : s'.source = s.source
  ahead : s.cursor.ahead = gs ++ s'.cursor.ahead
  position : s'.position = s.position.passing gs

namespace Passes

variable {s s' s'' : Scanner} {gs hs : List Cluster}

/-- A scan that stays where it is passes nothing. -/
theorem refl (s : Scanner) : s.Passes [] s := ⟨rfl, rfl, rfl, rfl⟩

/-- What is passed in two steps is passed in one. -/
theorem trans (h : s.Passes gs s') (h' : s'.Passes hs s'') : s.Passes (gs ++ hs) s'' where
  options := h'.options.trans h.options
  source := h'.source.trans h.source
  ahead := by rw [h.ahead, h'.ahead, List.append_assoc]
  position := by rw [h'.position, h.position, Position.passing_append]

/-- The cursor moves by the bytes of what is passed. -/
theorem offset (h : s.Passes gs s') :
    s'.cursor.offset = s.cursor.offset + Text.size (Cluster.charsOf gs) := by
  show s'.position.offset = _
  rw [h.position, Position.offset_passing]
  rfl

theorem offset_le (h : s.Passes gs s') : s.cursor.offset ≤ s'.cursor.offset := by
  rw [h.offset]
  exact Nat.le_add_right _ _

/-- Whatever is passed takes up bytes, so the cursor moves on if anything is. -/
theorem offset_lt (h : s.Passes gs s') (hne : gs ≠ []) : s.cursor.offset < s'.cursor.offset := by
  rw [h.offset]
  refine Nat.lt_add_of_pos_right (Cursor.size_pos_of_mem_ahead hne (c := s.cursor) fun g hg => ?_)
  rw [h.ahead]
  exact List.mem_append_left _ hg

theorem length_le (h : s.Passes gs s') : s'.cursor.ahead.length ≤ s.cursor.ahead.length := by
  rw [h.ahead, List.length_append]
  exact Nat.le_add_left _ _

theorem length_lt (h : s.Passes gs s') (hne : gs ≠ []) :
    s'.cursor.ahead.length < s.cursor.ahead.length := by
  rw [h.ahead, List.length_append]
  exact Nat.lt_add_of_pos_left (List.length_pos_iff.mpr hne)

end Passes

/-! ## One call -/

section

variable {s s' : Scanner} {t : Token} {d : Diagnostic} {fault : Fault}
  {blanks lexeme passed : List Cluster}

/-- A token is read from one cluster at least. -/
theorem Takes.lexeme_ne_nil (h : s.Takes blanks lexeme t s') : lexeme ≠ [] := by
  rintro rfl
  have hlen := Lexeme.length_of_read h.read
  exact Nat.lt_irrefl _ hlen

/-- A call that gives a token passes the blanks before it and the clusters it is read from. -/
theorem Takes.passes (h : s.Takes blanks lexeme t s') : s.Passes (blanks ++ lexeme) s' where
  options := by
    rw [h.after]
    rfl
  source := by
    rw [h.after]
    rfl
  ahead := by rw [h.ahead, List.append_assoc]
  position := by
    rw [h.after, Position.passing_append]
    rfl

/-- A call that fails passes the blanks and what was read before the error was noticed. -/
theorem Fails.passes (h : s.Fails blanks passed fault d s') : s.Passes (blanks ++ passed) s' where
  options := by
    rw [h.after]
    rfl
  source := by
    rw [h.after]
    rfl
  ahead := by rw [h.after, ahead_stopped h.ahead, h.ahead, List.append_assoc]
  position := by
    rw [h.after]
    rfl

/-- A token takes at least one cluster. -/
theorem passes_of_next_ok (h : s.next = (.ok t, s')) : ∃ gs, gs ≠ [] ∧ s.Passes gs s' := by
  obtain ⟨blanks, lexeme, ht⟩ := takes_of_next h
  exact ⟨blanks ++ lexeme, List.append_ne_nil_of_right_ne_nil _ ht.lexeme_ne_nil, ht.passes⟩

theorem passes_of_isOk (h : s.next.1.isOk = true) : ∃ gs, gs ≠ [] ∧ s.Passes gs s.next.2 := by
  rcases hnext : s.next with ⟨d | t, s'⟩
  · rw [hnext] at h
    exact absurd h Bool.false_ne_true
  · exact passes_of_next_ok hnext

/-- An error passes a cluster, or leaves the scan as it was. -/
theorem passes_of_next_error (h : s.next = (.error d, s')) :
    (∃ gs, gs ≠ [] ∧ s.Passes gs s') ∨ s' = s := by
  obtain ⟨blanks, passed, fault, hf⟩ := fails_of_next h
  by_cases hnil : blanks ++ passed = []
  · -- nothing is written into the scan but where it stands
    right
    rw [hf.after, hnil]
    rfl
  · exact .inl ⟨blanks ++ passed, hnil, hf.passes⟩

/-- A call passes a cluster, or leaves the scan as it was with an error. -/
theorem passes_or_fixed (s : Scanner) :
    (∃ gs, gs ≠ [] ∧ s.Passes gs s.next.2) ∨ ∃ d, s.next = (.error d, s) := by
  rcases hnext : s.next with ⟨d | t, s'⟩
  · rcases passes_of_next_error hnext with hpasses | rfl
    · exact .inl hpasses
    · exact .inr ⟨d, rfl⟩
  · exact .inl (passes_of_next_ok hnext)

/-- Every call passes something, if only nothing. -/
theorem next_passes (s : Scanner) : ∃ gs, s.Passes gs s.next.2 := by
  rcases s.passes_or_fixed with ⟨gs, -, hgs⟩ | ⟨d, hd⟩
  · exact ⟨gs, hgs⟩
  · exact ⟨[], by rw [hd]; exact .refl s⟩

end

/-! ## Any number of calls -/

/-- The last of several calls is made where the others have stopped. -/
theorem after_succ (s : Scanner) (n : Nat) : s.after (n + 1) = (s.after n).next.2 := by
  induction n generalizing s with
  | zero => rfl
  | succ n ih => exact ih s.next.2

theorem after_add (s : Scanner) (m n : Nat) : s.after (m + n) = (s.after m).after n := by
  induction n with
  | zero => rfl
  | succ n ih => rw [← Nat.add_assoc, after_succ, after_succ, ih]

/-- Any number of calls passes a front part of what was ahead. -/
theorem after_passes (s : Scanner) (n : Nat) : ∃ gs, s.Passes gs (s.after n) := by
  induction n with
  | zero => exact ⟨[], .refl s⟩
  | succ n ih =>
    obtain ⟨gs, hgs⟩ := ih
    obtain ⟨hs, hhs⟩ := (s.after n).next_passes
    rw [after_succ]
    exact ⟨gs ++ hs, hgs.trans hhs⟩

/-- A run passes what its calls pass. -/
theorem Run.passes {s s' : Scanner} {ts : List Token} (h : Run s ts s') : ∃ gs, s.Passes gs s' := by
  rw [← h.after_length]
  exact s.after_passes ts.length

theorem Run.options {s s' : Scanner} {ts : List Token} (h : Run s ts s') :
    s'.options = s.options := by
  obtain ⟨gs, hgs⟩ := h.passes
  exact hgs.options

end Scanner

end Lexis
