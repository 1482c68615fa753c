import Lexis.Proofs.Progress
import Lexis.Proofs.Warnings

/-!
# However tokens are drawn

A scan can be drawn from in several ways, in any order: token by token, some draws at a time, all at
once, and its warnings can be taken whenever one likes. Up to the first error the answers together
give what one scan to the end gives (`session_agrees`). The reason is that warnings that were taken
are missed by nobody: with them put back (`recalling`), the scan is one that a run has reached.
-/

namespace Lexis.Scanner

/-- A way to draw from a scan. -/
inductive Step where
  | next
  | take (n : Nat)
  | scanToEnd
  | takeWarnings
  deriving DecidableEq, Repr

/-- What a step gives. -/
inductive Answer where
  | next (r : Except Diagnostic Token)
  | take (rs : List Draw.Shown)
  | scanToEnd (out : ScanOutput)
  | takeWarnings (ds : List Diagnostic)

namespace Answer

/-- The tokens handed out. -/
def tokens : Answer → List Token
  | next (.ok t) => [t]
  | next (.error _) => []
  | take rs => Draw.tokensOf rs
  | scanToEnd out => out.tokens
  | takeWarnings _ => []

/-- The warnings handed out. -/
def warnings : Answer → List Diagnostic
  | scanToEnd out => out.warnings
  | takeWarnings ds => ds
  | _ => []

/-- What is told of the error that ends the tokens, if the step has met it. -/
def stop? : Answer → Option (Option Diagnostic)
  | next (.ok _) => none
  | next (.error d) => some d.told?
  | take rs => Draw.stop? rs
  | scanToEnd out => some out.error
  | takeWarnings _ => none

end Answer

def perform (s : Scanner) : Step → Answer × Scanner
  | .next => (.next s.next.1, s.next.2)
  | .take n => (.take (s.take n).1, (s.take n).2)
  | .scanToEnd => (.scanToEnd s.scanToEnd.1, s.scanToEnd.2)
  | .takeWarnings => (.takeWarnings s.takeWarnings.1, s.takeWarnings.2)

/-- Performs steps in a row, up to and including the first that meets an error. -/
def session (s : Scanner) : List Step → List Answer × Scanner
  | [] => ([], s)
  | step :: steps =>
    let (answer, s) := s.perform step
    if answer.stop?.isSome then ([answer], s)
    else
      let (answers, s) := s.session steps
      (answer :: answers, s)

section

variable {s : Scanner} {step : Step} {e : Option Diagnostic}

/-- A step that meets an error is the last one. -/
theorem session_cons_of_some (h : (s.perform step).1.stop? = some e) (steps : List Step) :
    s.session (step :: steps) = ([(s.perform step).1], (s.perform step).2) := by
  simp only [session, h, Option.isSome_some, if_true]

/-- Any other step goes before the rest of the session. -/
theorem session_cons_of_none (h : (s.perform step).1.stop? = none) (steps : List Step) :
    s.session (step :: steps) = ((s.perform step).1 :: ((s.perform step).2.session steps).1,
      ((s.perform step).2.session steps).2) := by
  simp only [session, h, Option.isSome_none, Bool.false_eq_true, if_false]

end

/-! ## Warnings that were taken -/

/-- The scan with the warnings `ws` put back. -/
def recalling (s : Scanner) (ws : List Diagnostic) : Scanner := { s with warnings := ws ++ s.warnings }

/-- Warnings may be put back in two parts. -/
theorem recalling_recalling (s : Scanner) (ws vs : List Diagnostic) :
    (s.recalling vs).recalling ws = s.recalling (ws ++ vs) := by
  simp only [recalling, List.append_assoc]

/-- To put back what was just taken is to take nothing. -/
theorem recalling_warnings (s : Scanner) : ({ s with warnings := [] }).recalling s.warnings = s := by
  simp only [recalling, List.append_nil]

section

variable {s s' : Scanner} {t : Token} {d : Diagnostic} {ts : List Token}

theorem alike_recalling (s : Scanner) (ws : List Diagnostic) : s.Alike (s.recalling ws) := ⟨rfl, rfl⟩

/-- A call does not look at the warnings, and adds its own behind them. -/
theorem next_recalling_of_ok (h : s.next = (.ok t, s')) (ws : List Diagnostic) :
    (s.recalling ws).next = (.ok t, s'.recalling ws) := by
  obtain ⟨blanks, lexeme, ht⟩ := takes_of_next h
  rw [((alike_recalling s ws).takes ht).next, ht.after]
  simp only [past, recalling, List.append_assoc]
  rfl

/-- A call that fails leaves the warnings that were put back. -/
theorem next_recalling_of_error (h : s.next = (.error d, s')) (ws : List Diagnostic) :
    (s.recalling ws).next = (.error d, s'.recalling ws) := by
  obtain ⟨blanks, passed, fault, hf⟩ := fails_of_next h
  rw [((alike_recalling s ws).fails hf).next, hf.after]
  rfl

/-- So a run may be made with any warnings put back. -/
theorem Run.recalling (h : Run s ts s') (ws : List Diagnostic) :
    Run (s.recalling ws) ts (s'.recalling ws) := by
  induction h with
  | nil s => exact .nil _
  | cons hnext _ ih => exact .cons (next_recalling_of_ok hnext ws) ih

end

/-! ## Steps -/

/-- From `s` to `s'` the tokens `ts` and the warnings `ws` were handed out. -/
def Hands (s : Scanner) (ts : List Token) (ws : List Diagnostic) (s' : Scanner) : Prop :=
  Run s ts (s'.recalling ws)

/-- The same, and then an error was met, of which `e` was told. -/
def HandsAll (s : Scanner) (ts : List Token) (ws : List Diagnostic) (s' : Scanner)
    (e : Option Diagnostic) : Prop :=
  ∃ u d, Run s ts u ∧ u.next = (.error d, s'.recalling ws) ∧ d.told? = e

section

variable {s s' s'' : Scanner} {ts us : List Token} {ws vs : List Diagnostic} {e : Option Diagnostic}

/-- What two parts of a session hand out is handed out by both together. -/
theorem Hands.trans (h : s.Hands ts ws s') (h' : s'.Hands us vs s'') :
    s.Hands (ts ++ us) (ws ++ vs) s'' := by
  have hrun := Run.recalling h' ws
  rw [recalling_recalling] at hrun
  exact Run.append h hrun

/-- The same if the second part meets an error. -/
theorem Hands.trans_all (h : s.Hands ts ws s') (h' : s'.HandsAll us vs s'' e) :
    s.HandsAll (ts ++ us) (ws ++ vs) s'' e := by
  obtain ⟨u, d, hrun, hd, he⟩ := h'
  have hnext := next_recalling_of_error hd ws
  rw [recalling_recalling] at hnext
  exact ⟨u.recalling ws, d, Run.append h (hrun.recalling ws), hnext, he⟩

/-- What a step does, by what its answer tells of an error. -/
theorem perform_hands (s : Scanner) (step : Step) :
    match (s.perform step).1.stop? with
    | none => s.Hands (s.perform step).1.tokens (s.perform step).1.warnings (s.perform step).2
    | some e =>
      s.HandsAll (s.perform step).1.tokens (s.perform step).1.warnings (s.perform step).2 e := by
  cases step with
  | next =>
    unfold perform
    rcases hnext : s.next with ⟨d | t, s'⟩
    · exact ⟨s, d, .nil s, hnext, rfl⟩
    · exact .cons hnext (.nil s')
  | take n =>
    show match Draw.stop? ((Draw.start s).take n).1 with
      | none => s.Hands (Draw.tokensOf ((Draw.start s).take n).1) [] ((Draw.start s).take n).2.scanner
      | some e =>
        s.HandsAll (Draw.tokensOf ((Draw.start s).take n).1) [] ((Draw.start s).take n).2.scanner e
    rcases Draw.take_cases s n with ⟨ts, s', hrun, -, htake⟩ | ⟨ts, s', d, s'', m, hrun, hd, htake⟩
    · rw [htake, Draw.stop?_giving, Draw.tokensOf_giving]
      exact hrun
    · rw [htake, Draw.stop?_ending, Draw.tokensOf_ending]
      exact ⟨s', d, hrun, hd, rfl⟩
  | scanToEnd =>
    obtain ⟨ts, s', d, s'', hrun, hd⟩ := s.exists_run
    show s.HandsAll s.scanToEnd.1.tokens s.scanToEnd.1.warnings s.scanToEnd.2 s.scanToEnd.1.error
    rw [hrun.scanToEnd_eq hd]
    exact ⟨s', d, hrun, by rw [recalling_warnings, hd], rfl⟩
  | takeWarnings =>
    -- what was taken is put back, so nothing has happened
    show Run s [] (({ s with warnings := [] } : Scanner).recalling s.warnings)
    rw [recalling_warnings]
    exact .nil s

/-- **What a session does: it hands out the front of a run, or all of it.** -/
theorem session_hands (s : Scanner) (steps : List Step) :
    let answers := (s.session steps).1
    let ts := answers.flatMap Answer.tokens
    let ws := answers.flatMap Answer.warnings
    ((∀ a ∈ answers, a.stop? = none) ∧ s.Hands ts ws (s.session steps).2) ∨
      ∃ e, (∀ a ∈ answers, ∀ e', a.stop? = some e' → e' = e) ∧
        s.HandsAll ts ws (s.session steps).2 e := by
  -- each step starts from the scan that the last one has left, so `s` is general
  induction steps generalizing s with
  | nil => exact .inl ⟨by simp [session], .nil s⟩
  | cons step steps ih =>
    have hstep := s.perform_hands step
    cases hstop : (s.perform step).1.stop? with
    | some e =>
      rw [hstop] at hstep
      rw [session_cons_of_some hstop]
      refine .inr ⟨e, ?_, ?_⟩
      · intro a ha e' he'
        rw [List.mem_singleton.mp ha, hstop] at he'
        exact (Option.some.inj he').symm
      · simpa using hstep
    | none =>
      rw [hstop] at hstep
      rw [session_cons_of_none hstop]
      simp only [List.flatMap_cons, List.forall_mem_cons]
      rcases ih (s.perform step).2 with ⟨hnone, hands⟩ | ⟨e, htold, hands⟩
      · exact .inl ⟨⟨hstop, hnone⟩, hstep.trans hands⟩
      · refine .inr ⟨e, ⟨?_, htold⟩, hstep.trans_all hands⟩
        intro e' he'
        rw [hstop] at he'
        simp at he'

end

/-! ## One scan -/

section

variable {s s' u : Scanner} {t : Token} {ts rest : List Token} {blanks lexeme : List Cluster}

/-- A run is the front of what scanning to the end gives. -/
theorem Run.scanToEnd_append (h : Run s ts u) :
    ∃ rest v, Run u rest v ∧ s.scanToEnd.1.tokens = ts ++ rest ∧
      s.scanToEnd.1.warnings = v.warnings := by
  obtain ⟨rest, v, d, v', hrest, hd⟩ := u.exists_run
  refine ⟨rest, v, hrest, ?_⟩
  rw [(h.append hrest).scanToEnd hd]
  exact ⟨rfl, rfl⟩

/-- A token stands between the places of the cursor before and after it. -/
theorem Takes.offset_bounds (h : s.Takes blanks lexeme t s') :
    s.cursor.offset ≤ t.position.offset ∧ t.position.offset < s'.cursor.offset := by
  refine ⟨?_, ?_⟩
  · rw [h.position, Position.offset_passing]
    exact Nat.le_add_right _ _
  · rw [h.offset]
    exact Nat.lt_add_of_pos_right h.size_pos

/-- The tokens of a run stand where it passes. -/
theorem Run.offset_bounds (h : Run s ts s') :
    ∀ t ∈ ts, s.cursor.offset ≤ t.position.offset ∧ t.position.offset < s'.cursor.offset := by
  induction h with
  | nil s => simp
  | cons hnext hrun ih =>
    obtain ⟨blanks, lexeme, ht⟩ := takes_of_next hnext
    obtain ⟨hle, hlt⟩ := ht.offset_bounds
    obtain ⟨gs, hgs⟩ := hrun.passes
    have hforward := hgs.offset_le
    intro t' ht'
    rcases List.mem_cons.mp ht' with rfl | ht'
    · omega
    · have := ih t' ht'
      omega

/-- Tokens that are too deep are among the tokens, and open interpolations. -/
theorem mem_of_mem_tooDeep {limit : Nat} {front : List TokenKind} (h : t ∈ tooDeep limit front ts) :
    t ∈ ts ∧ t.kind = .interpolationStart := by
  induction ts generalizing front with
  | nil => simp [tooDeep] at h
  | cons t' ts ih =>
    rw [tooDeep] at h
    split at h
    · next hdeep =>
      rcases List.mem_cons.mp h with rfl | h
      · exact ⟨List.mem_cons_self, hdeep.1⟩
      · exact ⟨List.mem_cons_of_mem _ (ih h).1, (ih h).2⟩
    · exact ⟨List.mem_cons_of_mem _ (ih h).1, (ih h).2⟩

/-- Whether a warning stands at the start of an interpolation among some tokens. -/
def warnsOf (ts : List Token) (w : Diagnostic) : Bool :=
  ts.any fun t => t.kind = .interpolationStart && t.position = w.position

/-- Of the warnings of a longer run those of its front are told by their places. -/
theorem Run.filter_warnings {source : String} {options : ScannerOptions}
    (h : Run (ofText source options) ts u) (hrest : Run u rest s') :
    s'.warnings.filter (warnsOf ts) = u.warnings := by
  have hfront := h.warnings Nesting.holds_nil
  have hall := (h.append hrest).warnings Nesting.holds_nil
  have hempty : (ofText source options).warnings = [] := rfl
  rw [hempty, List.nil_append] at hfront hall
  rw [hall, tooDeep_append, List.map_append, ← hfront, List.filter_append]
  have hkeep : u.warnings.filter (warnsOf ts) = u.warnings := by
    refine List.filter_eq_self.mpr fun w hw => ?_
    rw [hfront] at hw
    obtain ⟨t, ht, rfl⟩ := List.mem_map.mp hw
    obtain ⟨hmem, hkind⟩ := mem_of_mem_tooDeep ht
    exact List.any_eq_true.mpr ⟨t, hmem, by simp [hkind, nestingWarning]⟩
  rw [hkeep, List.append_right_eq_self, List.filter_eq_nil_iff]
  intro w hw hwarns
  obtain ⟨t', ht', rfl⟩ := List.mem_map.mp hw
  obtain ⟨t, ht, heq⟩ := List.any_eq_true.mp hwarns
  -- a token of the front would stand where one of the rest does
  have hposition : t.position = t'.position := of_decide_eq_true (Bool.and_eq_true_iff.mp heq).2
  have hbefore := (h.offset_bounds t ht).2
  have hbehind := (hrest.offset_bounds t' (mem_of_mem_tooDeep ht').1).1
  rw [hposition] at hbefore
  omega

end

/-- How the answers of a session and the warnings then held agree with the output of one scan. -/
structure Agrees (answers : List Answer) (held : List Diagnostic) (out : ScanOutput) : Prop where
  /-- The tokens handed out are the front of those of the scan. -/
  tokens : answers.flatMap Answer.tokens <+: out.tokens
  /-- An answer that tells of an error tells of the scan's, and then all tokens were handed out. -/
  stop : ∀ a ∈ answers, ∀ e, a.stop? = some e →
    e = out.error ∧ answers.flatMap Answer.tokens = out.tokens
  /-- The warnings handed out or held are those of the tokens handed out, each of them once. -/
  warnings : answers.flatMap Answer.warnings ++ held
    = out.warnings.filter (warnsOf (answers.flatMap Answer.tokens))

/--
**However tokens and warnings are drawn, they are those of one scan to the end.**

Several draws show as many times something or nothing, and nothing any more behind their end.
-/
theorem session_agrees (source : String) (options : ScannerOptions) :
    (∀ steps, Agrees ((ofText source options).session steps).1
        ((ofText source options).session steps).2.warnings (scan source options)) ∧
      ∀ (s : Scanner) (n : Nat), (s.take n).1.length = n ∧
        (s.take n).1.Pairwise fun r later => Draw.Ends r → later = none := by
  refine ⟨fun steps => ?_, fun s n => ⟨Draw.length_take (.start s) n, Draw.pairwise_take s n⟩⟩
  rcases (ofText source options).session_hands steps with ⟨hnone, hrun⟩ | ⟨e, htold, u, d, hrun, hd, he⟩
  · obtain ⟨rest, v, hrest, htokens, hwarnings⟩ := Run.scanToEnd_append hrun
    exact
      { tokens := ⟨rest, htokens.symm⟩
        stop := by
          intro a ha e he
          rw [hnone a ha] at he
          simp at he
        warnings := (Run.filter_warnings hrun hrest).symm.trans (by rw [← hwarnings]; rfl) }
  · have hscan : scan source options = _ := hrun.scanToEnd hd
    obtain ⟨blanks, passed, fault, hf⟩ := fails_of_next hd
    rw [hscan]
    exact
      { tokens := List.prefix_refl _
        stop := fun a ha e' he' => ⟨(htold a ha e' he').trans he.symm, rfl⟩
        warnings := (congrArg Scanner.warnings hf.after).trans (hrun.filter_warnings (.nil u)).symm }

end Lexis.Scanner
