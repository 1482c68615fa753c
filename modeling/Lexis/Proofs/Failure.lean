import Lexis.Proofs.Progress
import Mathlib.Data.List.TakeWhile

/-!
# What an error leaves

An error moves nothing but the cursor, never back, and is placed where the cursor has stopped
(`next_reports`). Its code says whether the input has ended, which it has only in code with nothing
but blanks ahead; every other cause is an unexpected token.
-/

namespace Lexis

theorem LexicalError.severity_template (e : LexicalError) : e.template.severity = .error := by
  cases e <;> rfl

/-- The end of the input has a code of its own. -/
theorem LexicalError.code_template (e : LexicalError) :
    e.template.code = if e = .endOfInput then .failedToRetrieveToken else .unexpectedToken := by
  cases e <;> rfl

theorem isBlank_iff {g : Cluster} :
    g.isBlank = true ↔ g = .ofChar ' ' ∨ g = .ofChar '\t' ∨ g = .ofChar '\r' := by
  refine ⟨eq_of_isBlank, ?_⟩
  rintro (rfl | rfl | rfl) <;> decide

namespace Scanner

/-- What an error leaves of a scan, and what it says. -/
structure Reports (s : Scanner) (d : Diagnostic) (s' : Scanner) : Prop where
  frames : s'.frames = s.frames
  warnings : s'.warnings = s.warnings
  options : s'.options = s.options
  source : s'.source = s.source
  /-- The cursor has not moved back. -/
  forward : s.cursor.offset ≤ s'.cursor.offset
  /-- The error is placed where the scan has stopped. -/
  position : d.position = s'.position
  severity : d.severity = .error
  /-- The input has ended exactly where code has nothing but blanks ahead. -/
  ended : d.code = .failedToRetrieveToken ↔ s.frames = [] ∧
    ∀ g ∈ s.cursor.ahead, g = .ofChar ' ' ∨ g = .ofChar '\t' ∨ g = .ofChar '\r'
  /-- At the end of the input everything has been passed. -/
  stop : d.code = .failedToRetrieveToken → s'.cursor.offset = Text.size s.source.toList
  /-- Every other error is about a token. -/
  otherwise : d.code ≠ .failedToRetrieveToken → d.code = .unexpectedToken

section

variable {s s' : Scanner} {d : Diagnostic} {fault : Fault} {blanks passed before : List Cluster}

theorem Fails.code_eq (h : s.Fails blanks passed fault d s') :
    d.code = if fault.cause = .endOfInput then .failedToRetrieveToken else .unexpectedToken := by
  rw [h.diagnostic, ← LexicalError.code_template]
  rfl

theorem Fails.ended (h : s.Fails blanks passed fault d s') :
    d.code = .failedToRetrieveToken ↔
      s.frames = [] ∧ ∀ g ∈ s.cursor.ahead, g.isBlank = true := by
  have hend : d.code = .failedToRetrieveToken ↔ d.isEndOfInput = true := by
    rw [Diagnostic.isEndOfInput, decide_eq_true_eq]
  rw [hend, h.endOfInput_iff, and_congr_right_iff]
  intro hframes
  have hblanks : blanks = s.cursor.ahead.takeWhile (·.isBlank) := by
    rw [← h.blanksIn, Scanner.blanksIn, hframes]
    rfl
  constructor
  · intro hall g hg
    rw [hall, ← h.blanksIn] at hg
    exact isBlank_of_mem_blanksIn hg
  · intro hall
    rw [hblanks, List.takeWhile_eq_self_iff.mpr hall]

/-- Where the input has ended nothing is ahead any more. -/
theorem Fails.ahead_of_ended (h : s.Fails blanks passed fault d s')
    (hd : d.code = .failedToRetrieveToken) : s'.cursor.ahead = [] := by
  have hend : d.isEndOfInput = true := decide_eq_true hd
  have hblanks := (h.endOfInput_iff.mp hend).2
  have hahead := h.passes.ahead
  rw [hblanks, List.append_assoc, List.self_eq_append_right] at hahead
  exact (List.append_eq_nil_iff.mp hahead).2

/-- **An error moves the cursor only, and says where it has stopped.** -/
theorem Fails.reports (h : s.Fails blanks passed fault d s') (hs : s.StandsBehind before) :
    s.Reports d s' where
  frames := by
    rw [h.after]
    rfl
  warnings := by
    rw [h.after]
    rfl
  options := h.passes.options
  source := h.passes.source
  forward := h.passes.offset_le
  position := by
    rw [h.diagnostic]
    rfl
  severity := by
    rw [h.diagnostic]
    exact LexicalError.severity_template _
  ended := by
    simp only [h.ended, isBlank_iff]
  stop hd := by
    -- nothing is ahead, so all clusters of the source are behind
    have hs' := h.passes.standsBehind hs
    have hclusters := hs'.clusters
    rw [h.ahead_of_ended hd, List.append_nil] at hclusters
    rw [hs'.offset, ← hclusters, Text.chars_clusters, h.passes.source]
  otherwise hd := by
    rw [h.code_eq] at hd ⊢
    split at hd
    · exact absurd rfl hd
    · next hcause => rw [if_neg hcause]

end

/--
**Wherever calls have led, an error leaves everything but the cursor, and points at it.**
-/
theorem next_reports (source : String) (options : ScannerOptions) (n : Nat) {d : Diagnostic}
    {s' : Scanner} (h : ((ofText source options).after n).next = (.error d, s')) :
    ((ofText source options).after n).Reports d s' := by
  obtain ⟨blanks, passed, fault, hf⟩ := fails_of_next h
  obtain ⟨before, hbefore⟩ := after_standsBehind source options n
  exact hf.reports hbefore

/-- A rune that a line break ends is followed by the line break, and by another rune without end. -/
theorem next_reports_rune :
    (ofText "'a\n'").next.1 = .error (LexicalError.unexpectedLineBreak.diagnostic ⟨2, 1, 3⟩) ∧
      ∃ s', ((ofText "'a\n'").after 2).next
          = (.error ((LexicalError.unterminated .rune).diagnostic ⟨4, 2, 2⟩), s') ∧
        ((ofText "'a\n'").after 2).Reports
          ((LexicalError.unterminated .rune).diagnostic ⟨4, 2, 2⟩) s' := by
  have hnext : ((ofText "'a\n'").after 2).next
      = (.error ((LexicalError.unterminated .rune).diagnostic ⟨4, 2, 2⟩),
          ((ofText "'a\n'").after 2).next.2) := by
    decide +kernel
  exact ⟨by decide +kernel, _, hnext, next_reports "'a\n'" {} 2 hnext⟩

end Scanner

end Lexis
