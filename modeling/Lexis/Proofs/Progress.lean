import Lexis.Proofs.Drawing
import Lexis.Proofs.Partition

/-!
# Calls settle

Whatever a call gives, it passes clusters that were ahead (`Passes`): at least one with a token, and
with an error at least one or none. An error that passes nothing leaves the scan as it was, so it is
given for ever. As many calls as there are clusters are therefore enough for a scan to settle, and no
more of them can give a token (`calls_settle`).
-/

namespace Lexis.Scanner

/-- Wherever calls have led, a front part of the source has been passed. -/
theorem after_standsBehind (source : String) (options : ScannerOptions) (n : Nat) :
    ∃ before, ((ofText source options).after n).StandsBehind before := by
  obtain ⟨gs, hgs⟩ := (ofText source options).after_passes n
  exact ⟨[] ++ gs, hgs.standsBehind (standsBehind_ofText source options)⟩

/-- A scan that an error leaves as it was stays so. -/
theorem after_of_fixed {s : Scanner} (h : s.next.2 = s) (n : Nat) : s.after n = s := by
  induction n with
  | zero => rfl
  | succ n ih => rw [after_succ, ih, h]

/-- Calls enough to pass all that is ahead leave a scan that stays where it is. -/
theorem settled_after {s : Scanner} {n : Nat} (h : s.cursor.ahead.length ≤ n) :
    ∃ d, (s.after n).next = (.error d, s.after n) := by
  induction n generalizing s with
  | zero =>
    rcases s.passes_or_fixed with ⟨gs, hne, hgs⟩ | hfixed
    · exact absurd (hgs.length_lt hne) (by omega)
    · exact hfixed
  | succ n ih =>
    rcases s.passes_or_fixed with ⟨gs, hne, hgs⟩ | ⟨d, hd⟩
    · -- a cluster was passed, so fewer are left for the calls that follow
      have hlen := hgs.length_lt hne
      exact ih (s := s.next.2) (by omega)
    · rw [after_of_fixed (by rw [hd])]
      exact ⟨d, hd⟩

/-- Each token so far has made what is ahead shorter. -/
theorem countP_isOk_le (s : Scanner) (n : Nat) :
    (List.range n).countP (fun k => (s.after k).next.1.isOk) + (s.after n).cursor.ahead.length
      ≤ s.cursor.ahead.length := by
  induction n with
  | zero => simp [after]
  | succ n ih =>
    rw [List.range_succ, List.countP_append, List.countP_singleton, after_succ]
    cases hok : (s.after n).next.1.isOk with
    | false =>
      obtain ⟨gs, hgs⟩ := (s.after n).next_passes
      have hlen := hgs.length_le
      rw [if_neg Bool.false_ne_true]
      omega
    | true =>
      obtain ⟨gs, hne, hgs⟩ := passes_of_isOk hok
      have hlen := hgs.length_lt hne
      rw [if_pos rfl]
      omega

theorem Run.length_le {s s' : Scanner} {ts : List Token} (h : Run s ts s') :
    ts.length ≤ s.cursor.ahead.length := by
  induction h with
  | nil s => exact Nat.zero_le _
  | cons hnext _ ih =>
    obtain ⟨gs, hne, hgs⟩ := passes_of_next_ok hnext
    have hlen := hgs.length_lt hne
    rw [List.length_cons]
    omega

/-- One draw more than there are clusters ahead meets the end. -/
theorem isSome_stop?_take {s : Scanner} {n : Nat} (h : s.cursor.ahead.length < n) :
    (Draw.stop? (s.take n).1).isSome := by
  show (Draw.stop? ((Draw.start s).take n).1).isSome
  rcases Draw.take_cases s n with ⟨ts, s', hrun, hlen, -⟩ | ⟨ts, s', d, s'', m, -, -, htake⟩
  · have := hrun.length_le
    omega
  · rw [htake, Draw.stop?_ending]
    rfl

/-- How the calls on a scan of `n` clusters go, also those made after errors. -/
structure Settles (s : Scanner) (n : Nat) : Prop where
  /-- A token moves the cursor on. -/
  token : ∀ k t s', (s.after k).next = (.ok t, s') → (s.after k).cursor.offset < s'.cursor.offset
  /-- An error moves the cursor on, or changes nothing and is given by all later calls. -/
  error : ∀ k d s', (s.after k).next = (.error d, s') →
    (s.after k).cursor.offset < s'.cursor.offset ∨
      s' = s.after k ∧ ∀ m, k ≤ m → (s.after m).next = (.error d, s.after k)
  /-- Among any number of calls at most `n` give a token. -/
  tokens : ∀ k, (List.range k).countP (fun i => (s.after i).next.1.isOk) ≤ n
  /-- All calls after the first `n` give one error, and change nothing. -/
  settled : ∃ d, ∀ k, n ≤ k → (s.after k).next = (.error d, s.after n)
  /-- From each state on `n + 1` draws meet the end, and scanning to the end gives what they do. -/
  drawn : ∀ k,
    Draw.stop? ((s.after k).take (n + 1)).1 = some (s.after k).scanToEnd.1.error ∧
      (s.after k).scanToEnd.1.tokens = Draw.tokensOf ((s.after k).take (n + 1)).1 ∧
      (s.after k).scanToEnd.2 = { ((s.after k).take (n + 1)).2 with warnings := [] }

/--
**Calls on a scan settle within as many as its source has clusters.**

Each call that gives a token moves on; an error that does not move is given for ever.
-/
theorem calls_settle (source : String) (options : ScannerOptions) :
    (ofText source options).Settles (Text.clusters source.toList).length := by
  have hahead : (ofText source options).cursor.ahead = Text.clusters source.toList :=
    Cursor.ahead_ofText source
  rw [← hahead]
  generalize ofText source options = s
  refine ⟨?_, ?_, ?_, ?_, ?_⟩
  · intro k t s' h
    obtain ⟨gs, hne, hgs⟩ := passes_of_next_ok h
    exact hgs.offset_lt hne
  · intro k d s' h
    rcases passes_of_next_error h with ⟨gs, hne, hgs⟩ | rfl
    · exact .inl (hgs.offset_lt hne)
    · -- the scan is where it was, so every later call is the same one again
      refine .inr ⟨rfl, fun m hm => ?_⟩
      obtain ⟨j, rfl⟩ := Nat.exists_eq_add_of_le hm
      rw [after_add, after_of_fixed (by rw [h]), h]
  · intro k
    exact Nat.le_of_add_right_le (s.countP_isOk_le k)
  · obtain ⟨d, hd⟩ := settled_after (Nat.le_refl s.cursor.ahead.length)
    refine ⟨d, fun k hk => ?_⟩
    obtain ⟨j, rfl⟩ := Nat.exists_eq_add_of_le hk
    rw [after_add, after_of_fixed (by rw [hd]), hd]
  · intro k
    obtain ⟨gs, hgs⟩ := s.after_passes k
    have hlen := hgs.length_le
    exact scanToEnd_of_take (isSome_stop?_take (by omega))

end Lexis.Scanner
