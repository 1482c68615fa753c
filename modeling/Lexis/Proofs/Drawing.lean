import Lexis.Proofs.Run

/-!
# Drawing tokens

Draws from a scan give the tokens of a run, one each, until a call fails. The draw that meets the
failure shows it, or shows nothing where it only says that the input has ended, and all later draws
show nothing (`take_cases`). So draws that meet the failure have given what scanning to the end gives
(`scanToEnd_of_take`).
-/

namespace Lexis

/-- What is told of an error that ends the tokens: the end of the input is told by telling nothing. -/
def Diagnostic.told? (d : Diagnostic) : Option Diagnostic :=
  if d.isEndOfInput then none else some d

namespace Draw

/-- What a draw can show. -/
abbrev Shown := Option (Except Diagnostic Token)

/-- The tokens that draws have given. -/
def tokensOf (rs : List Shown) : List Token := rs.filterMap fun r => r.bind Except.toOption

/-- What is told of the end, if a draw has met it. -/
def stop? (rs : List Shown) : Option (Option Diagnostic) :=
  rs.findSome? fun
    | some (.ok _) => none
    | some (.error d) => some (some d)
    | none => some none

/-- Whether a draw shows that there are no more tokens. -/
def Ends (r : Shown) : Prop := r = none ∨ ∃ d, r = some (.error d)

/-- Draws that give the tokens `ts`. -/
def giving (ts : List Token) : List Shown := ts.map fun t => some (.ok t)

/-- Draws that give the tokens `ts`, meet an error, and are made `m` times more. -/
def ending (ts : List Token) (d : Diagnostic) (m : Nat) : List Shown :=
  giving ts ++ d.told?.map .error :: List.replicate m none

/-! ## What draws show, read again -/

@[simp] theorem tokensOf_giving (ts : List Token) : tokensOf (giving ts) = ts := by
  simp [tokensOf, giving, List.filterMap_map, Function.comp_def, Except.toOption]

theorem stop?_giving (ts : List Token) : stop? (giving ts) = none := by
  simp [stop?, giving]

/-- What tells of the end is no token. -/
theorem tokensOf_ending (ts : List Token) (d : Diagnostic) (m : Nat) :
    tokensOf (ending ts d m) = ts := by
  have hend : tokensOf (d.told?.map .error :: List.replicate m none) = [] := by
    cases d.told? <;> simp [tokensOf, Except.toOption]
  rw [ending, tokensOf, List.filterMap_append, ← tokensOf, ← tokensOf, tokensOf_giving, hend,
    List.append_nil]

/-- The first draw that gives no token tells of the end. -/
theorem stop?_ending (ts : List Token) (d : Diagnostic) (m : Nat) :
    stop? (ending ts d m) = some d.told? := by
  rw [ending, stop?, List.findSome?_append, ← stop?, stop?_giving]
  cases d.told? <;> rfl

/-! ## Several draws -/

/-- Every draw shows something or nothing, also behind the end. -/
theorem length_take (d : Draw) (n : Nat) : (d.take n).1.length = n := by
  induction n generalizing d with
  | zero => rfl
  | succ n ih =>
    rw [take]
    exact congrArg (· + 1) (ih d.next.2)

/-- A draw gives the token of a call. -/
theorem next_of_ok {s s' : Scanner} {t : Token} (h : s.next = (.ok t, s')) :
    (start s).next = (some (.ok t), start s') := by
  simp [Draw.next, start, h]

/-- A draw that meets an error is the last one that asks the scan. -/
theorem next_of_error {s s' : Scanner} {d : Diagnostic} (h : s.next = (.error d, s')) :
    (start s).next = (d.told?.map .error, ⟨s', true⟩) := by
  cases hend : d.isEndOfInput <;> simp [Draw.next, start, h, Diagnostic.told?, hend]

/-- A run of draws that is over shows nothing any more. -/
theorem take_finished (s : Scanner) (n : Nat) :
    (⟨s, true⟩ : Draw).take n = (List.replicate n none, ⟨s, true⟩) := by
  induction n with
  | zero => rfl
  | succ n ih =>
    rw [take]
    show (none :: ((⟨s, true⟩ : Draw).take n).1, ((⟨s, true⟩ : Draw).take n).2) = _
    rw [ih]
    rfl

theorem take_of_ok {s s' : Scanner} {t : Token} (h : s.next = (.ok t, s')) (n : Nat) :
    (start s).take (n + 1) = (some (.ok t) :: ((start s').take n).1, ((start s').take n).2) := by
  rw [take, next_of_ok h]

/-- So all later draws show nothing. -/
theorem take_of_error {s s' : Scanner} {d : Diagnostic} (h : s.next = (.error d, s')) (n : Nat) :
    (start s).take (n + 1) = (ending [] d n, ⟨s', true⟩) := by
  rw [take, next_of_error h]
  show (_ :: ((⟨s', true⟩ : Draw).take n).1, ((⟨s', true⟩ : Draw).take n).2) = _
  rw [take_finished]
  rfl

/-- **Draws give a token each, or meet the error that ends the tokens.** -/
theorem take_cases (s : Scanner) (n : Nat) :
    (∃ ts s', Scanner.Run s ts s' ∧ ts.length = n ∧ (start s).take n = (giving ts, start s')) ∨
      ∃ ts s' d s'' m, Scanner.Run s ts s' ∧ s'.next = (.error d, s'') ∧
        (start s).take n = (ending ts d m, ⟨s'', true⟩) := by
  induction n generalizing s with
  | zero => exact .inl ⟨[], s, .nil s, rfl, rfl⟩
  | succ n ih =>
    cases hnext : s.next with
    | mk r u =>
      cases r with
      | error d => exact .inr ⟨[], s, d, u, n, .nil s, hnext, take_of_error hnext n⟩
      | ok t =>
        rw [take_of_ok hnext]
        rcases ih u with ⟨ts, s', hrun, hlen, htake⟩ | ⟨ts, s', d, s'', m, hrun, hd, htake⟩
        · refine .inl ⟨t :: ts, s', .cons hnext hrun, by rw [List.length_cons, hlen], ?_⟩
          rw [htake]
          rfl
        · refine .inr ⟨t :: ts, s', d, s'', m, .cons hnext hrun, hd, ?_⟩
          rw [htake]
          rfl

theorem not_ends_of_mem_giving {ts : List Token} {r : Shown} (h : r ∈ giving ts) : ¬Ends r := by
  obtain ⟨t, -, rfl⟩ := List.mem_map.mp h
  simp [Ends]

/-- **A run of draws that has shown its end shows nothing any more.** -/
theorem pairwise_take (s : Scanner) (n : Nat) :
    (s.take n).1.Pairwise fun r later => Ends r → later = none := by
  have hgiving : ∀ ts : List Token, (giving ts).Pairwise fun r later => Ends r → later = none := by
    intro ts
    induction ts with
    | nil => exact .nil
    | cons t ts ih => exact .cons (fun _ _ h => by simp [Ends] at h) ih
  show ((start s).take n).1.Pairwise _
  rcases take_cases s n with ⟨ts, s', -, -, htake⟩ | ⟨ts, s', d, s'', m, -, -, htake⟩
  · rw [htake]
    exact hgiving ts
  · rw [htake, ending, List.pairwise_append]
    refine ⟨hgiving ts, .cons ?_ ?_, fun r hr _ _ h => absurd h (not_ends_of_mem_giving hr)⟩
    · exact fun later hlater _ => List.eq_of_mem_replicate hlater
    · exact List.pairwise_replicate.mpr (.inr fun _ => rfl)

end Draw

namespace Scanner

/-- Scanning to the end gives the run up to the error, and takes the warnings. -/
theorem Run.scanToEnd_eq {s s' s'' : Scanner} {ts : List Token} {d : Diagnostic} (h : Run s ts s')
    (hd : s'.next = (.error d, s'')) :
    s.scanToEnd = (⟨ts, d.told?, s''.warnings⟩, { s'' with warnings := [] }) := by
  rw [Scanner.scanToEnd, h.drain hd]
  rfl

/-- **Draws that have met the end have given what scanning to the end gives.** -/
theorem scanToEnd_of_take {s : Scanner} {n : Nat} (h : (Draw.stop? (s.take n).1).isSome) :
    Draw.stop? (s.take n).1 = some s.scanToEnd.1.error ∧
      s.scanToEnd.1.tokens = Draw.tokensOf (s.take n).1 ∧
      s.scanToEnd.2 = { (s.take n).2 with warnings := [] } := by
  have htake : s.take n = (((Draw.start s).take n).1, ((Draw.start s).take n).2.scanner) := rfl
  rcases Draw.take_cases s n with ⟨ts, s', -, -, hgiving⟩ | ⟨ts, s', d, s'', m, hrun, hd, hending⟩
  · rw [htake, hgiving, Draw.stop?_giving] at h
    simp at h
  · rw [htake, hending, hrun.scanToEnd_eq hd]
    exact ⟨Draw.stop?_ending ts d m, (Draw.tokensOf_ending ts d m).symm, rfl⟩

end Scanner

end Lexis
