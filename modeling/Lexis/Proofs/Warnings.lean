import Lexis.Proofs.Nesting
import Lexis.Proofs.OpenInterpolations
import Lexis.Proofs.Passing

/-!
# Nesting warnings

Neither the options nor the warnings held so far have a say in what a call gives (`Alike`), so scans
of one source with any two limits give the same tokens and the same error. The warnings themselves
follow from the tokens: there is one for each token that starts an interpolation and leaves more open
than the limit, as the kinds of the tokens count them (`Run.warnings`).
-/

namespace Lexis

open Nesting

namespace Scanner

/-! ## What a call depends on -/

/-- Two scans that stand at one place, in the same frames. -/
structure Alike (s u : Scanner) : Prop where
  cursor : u.cursor = s.cursor
  frames : u.frames = s.frames

section

variable {s s' u : Scanner} {t : Token} {d : Diagnostic} {fault : Fault}
  {blanks lexeme passed : List Cluster}

/-- What a token changes does not depend on the options. -/
theorem Alike.past (h : s.Alike u) (blanks lexeme : List Cluster) (kind : TokenKind) :
    (s.past blanks lexeme kind).Alike (u.past blanks lexeme kind) where
  cursor := by
    show Cursor.mk u.cursor.source ((u.cursor.position.passing blanks).passing lexeme) = _
    rw [h.cursor]
    rfl
  frames := by
    show u.frames.afterToken kind = _
    rw [h.frames]
    rfl

theorem Alike.stopped (h : s.Alike u) (gs : List Cluster) : (s.stopped gs).Alike (u.stopped gs) where
  cursor := by
    show Cursor.mk u.cursor.source (u.cursor.position.passing gs) = _
    rw [h.cursor]
    rfl
  frames := h.frames

/-- Scans in the same frames skip the same blanks. -/
theorem Alike.blanksIn (h : s.Alike u) : u.blanksIn u.cursor.ahead = s.blanksIn s.cursor.ahead := by
  rw [h.cursor, blanksIn_congr h.frames]

/-- The same token is taken. -/
theorem Alike.takes (h : s.Alike u) (ht : s.Takes blanks lexeme t s') :
    u.Takes blanks lexeme t (u.past blanks lexeme t.kind) := by
  have hahead := ht.ahead
  have hread := ht.read
  rw [← h.cursor] at hahead
  rw [← h.frames] at hread
  have hposition : t.position = u.position.passing blanks := by
    rw [ht.position, Scanner.position, Scanner.position, h.cursor]
  have htakes := takes_of_read hahead (h.blanksIn.trans ht.blanksIn) hread
  rwa [← hposition] at htakes

/-- The same error is noticed. -/
theorem Alike.fails (h : s.Alike u) (hf : s.Fails blanks passed fault d s') :
    u.Fails blanks passed fault d (u.stopped (blanks ++ passed)) := by
  have hahead := hf.ahead
  have hread := hf.read
  rw [← h.cursor] at hahead
  rw [← h.frames] at hread
  have hd : d = fault.cause.diagnostic (u.stopped (blanks ++ passed)).position := by
    rw [hf.diagnostic, hf.after, Scanner.position, Scanner.position, (h.stopped _).cursor]
  have hfails := fails_of_read hahead (h.blanksIn.trans hf.blanksIn) hread
  rwa [← hd] at hfails

/-- **Scans that are alike give the same tokens.** -/
theorem Alike.run {ts : List Token} (h : s.Alike u) (hrun : Run s ts s') :
    ∃ u', Run u ts u' ∧ s'.Alike u' := by
  induction hrun generalizing u with
  | nil s => exact ⟨u, .nil u, h⟩
  | @cons s v s' t ts hnext _ ih =>
    obtain ⟨blanks, lexeme, ht⟩ := takes_of_next hnext
    have hpast := h.past blanks lexeme t.kind
    rw [← ht.after] at hpast
    obtain ⟨u', hrun', h'⟩ := ih hpast
    exact ⟨u', .cons (h.takes ht).next hrun', h'⟩

end

/-- Options change neither the tokens nor the error. -/
theorem scan_eq_of_options (source : String) (o₁ o₂ : ScannerOptions) :
    (scan source o₁).tokens = (scan source o₂).tokens ∧
      (scan source o₁).error = (scan source o₂).error := by
  have halike : (ofText source o₁).Alike (ofText source o₂) := ⟨rfl, rfl⟩
  obtain ⟨s', d, s'', hrun, hd, herror, -⟩ := exists_run_scan source o₁
  obtain ⟨u', hrun', halike'⟩ := halike.run hrun
  obtain ⟨blanks, passed, fault, hf⟩ := fails_of_next hd
  have hscan : scan source o₂ = _ := hrun'.scanToEnd (halike'.fails hf).next
  rw [hscan]
  exact ⟨rfl, herror⟩

/-! ## Warnings from tokens -/

/--
The tokens that start an interpolation and leave more than `limit` open.

They follow tokens of the kinds `front`.
-/
def tooDeep (limit : Nat) (front : List TokenKind) : List Token → List Token
  | [] => []
  | t :: ts =>
    let ks := front ++ [t.kind]
    if t.kind = .interpolationStart ∧ limit < openInterpolations ks then t :: tooDeep limit ks ts
    else tooDeep limit ks ts

/-- The warning that there are more than `limit` interpolations open at a place. -/
def nestingWarning (limit : Nat) (position : Position) : Diagnostic :=
  ⟨.warning, .unexpectedToken, position,
    "Unexpected token: template string interpolation nested too deep (more than "
      ++ toString limit ++ ")"⟩

/-- The warning is one of the templates, with the limit put in. -/
theorem nestingWarning_eq (limit : Nat) (position : Position) :
    nestingWarning limit position
      = .ofTemplate .interpolationNestedTooDeep position [toString limit] := by
  have htext : MessageTemplate.interpolationNestedTooDeep.text = String.ofList
      ("Unexpected token: template string interpolation nested too deep (more than ".toList
        ++ '{' :: (Text.Placeholder.key 0 ++ [')'])) := by
    decide +kernel
  rw [Diagnostic.ofTemplate, htext, Text.Placeholder.fill_one (by decide +kernel) (by decide),
    String.ofList_append, String.ofList_append, String.ofList_toList, String.ofList_toList,
    ← String.append_assoc]
  rfl

/-- Tokens behind others are too deep by all that the others have opened. -/
theorem tooDeep_append (limit : Nat) (front : List TokenKind) (ts us : List Token) :
    tooDeep limit front (ts ++ us)
      = tooDeep limit front ts ++ tooDeep limit (front ++ ts.map Token.kind) us := by
  induction ts generalizing front with
  | nil => simp [tooDeep]
  | cons t ts ih =>
    rw [List.cons_append, tooDeep, tooDeep, ih]
    simp only [List.map_cons, List.append_assoc, List.singleton_append]
    split <;> rfl

section

variable {s s' : Scanner} {t : Token} {blanks lexeme : List Cluster} {ks : List TokenKind}

/-- The frames after a token hold what the kinds up to it leave open. -/
theorem Takes.holds (h : s.Takes blanks lexeme t s') (hs : Holds s.frames ks) :
    Holds s'.frames (ks ++ [t.kind]) := by
  rw [h.frames]
  exact hs.afterToken h.templateText

/-- The token of one call gives a warning if it is too deep. -/
theorem Takes.warnings_tooDeep (h : s.Takes blanks lexeme t s') (hs : Holds s.frames ks) :
    s'.warnings = s.warnings ++ (tooDeep s.options.maxInterpolationDepth.toNat ks [t]).map
      fun t => nestingWarning s.options.maxInterpolationDepth.toNat t.position := by
  rw [h.warnings, warningsOf, (h.holds hs).interpolationDepth, ← nestingWarning_eq]
  simp only [tooDeep, Bool.and_eq_true, decide_eq_true_eq]
  split <;> rfl

/-- **Along a run there is a warning for each token that is too deep.** -/
theorem Run.warnings {ts : List Token} (h : Run s ts s') (hs : Holds s.frames ks) :
    s'.warnings = s.warnings ++ (tooDeep s.options.maxInterpolationDepth.toNat ks ts).map
      fun t => nestingWarning s.options.maxInterpolationDepth.toNat t.position := by
  induction h generalizing ks with
  | nil s => simp [tooDeep]
  | @cons s u s' t ts hnext _ ih =>
    obtain ⟨blanks, lexeme, ht⟩ := takes_of_next hnext
    have hsplit := tooDeep_append s.options.maxInterpolationDepth.toNat ks [t] ts
    rw [List.singleton_append] at hsplit
    rw [ih (ht.holds hs), ht.warnings_tooDeep hs, ht.passes.options, hsplit, List.map_append, List.append_assoc]
    rfl

end

/--
**The limit decides about warnings and nothing else.**

With each limit there is one warning for each token that starts an interpolation and leaves more than
the limit open, in the order of the tokens and at their places.
-/
theorem scan_warnings (source : String) :
    (∀ m₁ m₂ : UInt64, (scan source ⟨m₁⟩).tokens = (scan source ⟨m₂⟩).tokens ∧
      (scan source ⟨m₁⟩).error = (scan source ⟨m₂⟩).error) ∧
    ∀ m : UInt64, (scan source ⟨m⟩).warnings
      = (tooDeep m.toNat [] (scan source ⟨m⟩).tokens).map
          fun t => nestingWarning m.toNat t.position := by
  refine ⟨fun m₁ m₂ => scan_eq_of_options source ⟨m₁⟩ ⟨m₂⟩, fun m => ?_⟩
  obtain ⟨s', d, s'', hrun, -, -, hwarnings⟩ := exists_run_scan source ⟨m⟩
  rw [hwarnings, hrun.warnings holds_nil]
  rfl

end Scanner

end Lexis
