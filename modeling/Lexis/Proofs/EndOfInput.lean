import Lexis.Proofs.Run

/-!
# The end of the input

A scan ends without an error only where its input ends in code. Each literal has a cause of its own
for an input that ends inside it, so the cause `endOfInput` comes from nowhere else
(`Scanner.Fails.endOfInput_iff`).
-/

namespace Lexis

/-- Why a reader fails, if it does. -/
def causeOf {α : Type} : Except Fault α → Option LexicalError
  | .ok _ => none
  | .error fault => some fault.cause

/-! ## Text literals -/

namespace TextLiteral

/-- Digits that the input ends in leave the literal unterminated. -/
theorem causeOf_hexDigits (form : TextForm) (count : Nat) (gs : List Cluster) :
    causeOf (hexDigits form count gs) ≠ some .endOfInput := by
  fun_induction hexDigits form count gs with
  | case1 => simp [causeOf]
  | case2 => simp [causeOf]
  | case3 _ _ _ _ fault hf ih => rwa [hf] at ih
  | case4 => simp [causeOf]
  | case5 => simp [causeOf]

theorem causeOf_hexEscape (form : TextForm) (count : Nat) (gs : List Cluster) :
    causeOf (hexEscape form count gs) ≠ some .endOfInput := by
  have hd := causeOf_hexDigits form count gs
  unfold hexEscape
  cases h : hexDigits form count gs with
  | error fault => rwa [h] at hd
  | ok found =>
    simp only
    split <;> simp [causeOf]

theorem causeOf_longEscape (form : TextForm) (gs : List Cluster) :
    causeOf (longEscape form gs) ≠ some .endOfInput := by
  unfold longEscape
  split
  · simp [causeOf]
  · split
    · exact causeOf_hexEscape form 8 _
    · simp [causeOf]

/-- An escape that the input ends in leaves the literal unterminated, too. -/
theorem causeOf_escape (form : TextForm) (backslash : Cluster) (gs : List Cluster) :
    causeOf (escape form backslash gs) ≠ some .endOfInput := by
  unfold escape
  split
  · simp [causeOf]
  · next symbol rest =>
    split
    · simp [causeOf]
    · repeat' split
      · exact causeOf_hexEscape form 2 rest
      · exact causeOf_hexEscape form 4 rest
      · exact causeOf_longEscape form rest
      · simp [causeOf]

/-- Content that the input ends in leaves the literal unterminated. -/
theorem causeOf_content (form : TextForm) (gs : List Cluster) :
    causeOf (content form gs) ≠ some .endOfInput := by
  fun_induction content form gs with
  | case1 => simp [causeOf]
  | case2 => simp [causeOf]
  | case3 => simp [causeOf]
  | case4 g rest _ _ _ fault he =>
    have hcause := causeOf_escape form g rest
    rwa [he] at hcause
  | case5 g rest _ _ _ c left he fault hc ih => rwa [hc] at ih
  | case6 => simp [causeOf]
  | case7 g rest _ _ _ fault hc ih => rwa [hc] at ih
  | case8 => simp [causeOf]

end TextLiteral

/-! ## Numbers -/

namespace Number

/-- The body of a number may end with the input, which is no error. -/
theorem causeOf_body (radix : Radix) (met : Met) (gs : List Cluster) :
    causeOf (body radix met gs) ≠ some .endOfInput := by
  fun_induction body radix met gs with
  | case5 _ _ _ _ _ _ _ ih => exact ih
  | case8 _ _ _ _ _ _ _ ih => exact ih
  | case9 _ _ _ _ _ _ ih => exact ih
  | _ => simp [causeOf]

theorem causeOf_afterHead (radix : Radix) (integer : NumberForm) (head : List Char)
    (gs : List Cluster) : causeOf (afterHead radix integer head gs) ≠ some .endOfInput := by
  have hb := causeOf_body radix .nothing gs
  unfold afterHead
  cases h : body radix .nothing gs with
  | error fault => rwa [h] at hb
  | ok found =>
    simp only
    repeat' split
    all_goals simp [causeOf]

/-- A number is refused for what stands in it, and never for the end of the input. -/
theorem causeOf_read (first : Cluster) (gs : List Cluster) :
    causeOf (read first gs) ≠ some .endOfInput := by
  unfold read
  split
  · unfold afterZero
    simp only
    split
    · simp [causeOf]
    · split <;> exact causeOf_afterHead _ _ _ _
  · exact causeOf_afterHead _ _ _ _

end Number

/-! ## Lexemes -/

namespace Lexeme

theorem causeOf_quoted (kind : TokenKind) (form : TextForm) (gs : List Cluster) :
    causeOf (quoted kind form gs) ≠ some .endOfInput := by
  have hc := TextLiteral.causeOf_content form gs
  unfold quoted TextLiteral.quoted
  cases h : TextLiteral.content form gs with
  | error fault => rwa [h] at hc
  | ok found => simp [causeOf]

theorem causeOf_number (first : Cluster) (gs : List Cluster) :
    causeOf (number first gs) ≠ some .endOfInput := by
  have hr := Number.causeOf_read first gs
  unfold number
  cases h : Number.read first gs with
  | error fault => rwa [h] at hr
  | ok found => simp [causeOf]

/-- Where a cluster is ahead, whatever is wrong is wrong with that and what follows it. -/
theorem causeOf_readCode_cons (place : Place) (g : Cluster) (gs : List Cluster) :
    causeOf (readCode place (g :: gs)) ≠ some .endOfInput := by
  rw [readCode]
  cases Opening.of g gs with
  | rune => exact causeOf_quoted _ _ gs
  | string => exact causeOf_quoted _ _ gs
  | number => exact causeOf_number g gs
  | _ => simp [causeOf]

/-- **The input has ended where nothing is ahead in code.** -/
theorem causeOf_read_eq_iff {place : Place} {gs : List Cluster} :
    causeOf (read place gs) = some .endOfInput ↔ place = .code ∧ gs = [] := by
  cases place with
  | templateText =>
    refine iff_of_false ?_ (by simp)
    have hc := TextLiteral.causeOf_content .template gs
    unfold read TextLiteral.fragment
    simp only
    cases h : TextLiteral.content .template gs with
    | error fault => rwa [h] at hc
    | ok found =>
      simp only
      split
      · -- without a fragment the code is read from the same place
        cases gs with
        | nil => simp [readCode, causeOf, Place.endError]
        | cons g gs => exact causeOf_readCode_cons _ g gs
      · simp [causeOf]
  | code =>
    cases gs with
    | nil => simp [read, readCode, causeOf, Place.endError]
    | cons g gs => exact iff_of_false (causeOf_readCode_cons .code g gs) (by simp)
  | interpolation =>
    refine iff_of_false ?_ (by simp)
    cases gs with
    | nil => simp [read, readCode, causeOf, Place.endError]
    | cons g gs => exact causeOf_readCode_cons .interpolation g gs

end Lexeme

/-! ## The scanner -/

/-- The end of the input has a diagnostic of its own. -/
theorem LexicalError.isEndOfInput_diagnostic {e : LexicalError} {position : Position} :
    (e.diagnostic position).isEndOfInput = true ↔ e = .endOfInput := by
  constructor
  · intro h
    cases e with
    | endOfInput => rfl
    | _ => nomatch h
  · rintro rfl
    rfl

namespace Scanner

variable {s s' : Scanner} {blanks passed : List Cluster} {fault : Fault} {d : Diagnostic}

/-- A call reports the end of the input where code has nothing ahead but blanks. -/
theorem Fails.endOfInput_iff (h : s.Fails blanks passed fault d s') :
    d.isEndOfInput = true ↔ s.frames = [] ∧ s.cursor.ahead = blanks := by
  have hcause : fault.cause = .endOfInput ↔ s.frames.place = .code ∧ passed ++ fault.rest = [] := by
    rw [← Lexeme.causeOf_read_eq_iff, h.read, causeOf, Option.some.injEq]
  rw [h.diagnostic, LexicalError.isEndOfInput_diagnostic, hcause,
    TemplateStack.place_eq_code_iff, h.ahead, List.append_right_eq_self]

/-- Without an error a scan stops in code, with nothing but blanks ahead, and passes them. -/
theorem ends_of_error_none (hd : s.next = (.error d, s'))
    (h : (if d.isEndOfInput then none else some d) = none) :
    s.frames = [] ∧ s.blanksIn s.cursor.ahead = s.cursor.ahead ∧
      s'.position = s.position.passing s.cursor.ahead := by
  obtain ⟨blanks, passed, fault, hf⟩ := fails_of_next hd
  have hin : d.isEndOfInput = true := by
    cases hi : d.isEndOfInput with
    | true => rfl
    | false => simp [hi] at h
  obtain ⟨hframes, hblanks⟩ := hf.endOfInput_iff.mp hin
  have hpassed : passed = [] := by
    have hahead := hf.ahead
    rw [hblanks, List.self_eq_append_right, List.append_eq_nil_iff] at hahead
    exact hahead.1
  refine ⟨hframes, by rw [hf.blanksIn, hblanks], ?_⟩
  rw [hf.after, hpassed, List.append_nil, hblanks]
  rfl

end Scanner

end Lexis
