import Lexis.Proofs.LongestMatch
import Lexis.Proofs.NumberFaults
import Lexis.Proofs.TextFaults

/-!
# Invalid characters

Every cluster of one scalar value begins something, be it a blank: the characters that end
identifiers are those that begin marks, literals and lines, or separate tokens. What is left over are
clusters of several scalar values with such a character among them (`Cluster.Invalid`), and a call
names one exactly where it stands next in code (`Scanner.next_invalid_iff`).
-/

namespace Lexis

/-- A cluster that begins no token of code and is no part of an identifier. -/
structure Cluster.Invalid (g : Cluster) : Prop where
  several : 2 ≤ g.chars.length
  notLineBreak : g.chars ≠ ['\r', '\n']
  terminator : ∃ c ∈ g.chars, c ∈ Alphabet.identifierTerminators

/-! ## Clusters that begin nothing -/

section

variable {g : Cluster} {rest : List Cluster}

/-- A cluster of several characters is no single one. -/
theorem Cluster.Invalid.is (h : g.Invalid) (c : Char) : g.is c = false := by
  refine Bool.eq_false_iff.mpr fun hg => ?_
  have hlen := h.several
  rw [eq_ofChar_of_is hg] at hlen
  exact absurd hlen (by simp [ofChar])

/-- A cluster that is not empty and no part of identifiers holds a character that ends them. -/
theorem Cluster.exists_terminator (hne : g.chars ≠ []) (h : g.isIdentifierPart = false) :
    ∃ c ∈ g.chars, c ∈ Alphabet.identifierTerminators := by
  have hempty : g.isEmpty = false := by simpa [isEmpty] using hne
  rw [isIdentifierPart, hempty, Bool.not_false, Bool.true_and, Bool.not_eq_false'] at h
  obtain ⟨c, hc, hmem⟩ := List.any_eq_true.mp h
  exact ⟨c, hc, List.contains_iff_mem.mp hmem⟩

namespace Opening

/-- Every character that ends identifiers begins something of its own, unless it is a blank. -/
theorem of_terminator {c : Char} (hc : c ∈ Alphabet.identifierTerminators)
    (hblank : (Cluster.ofChar c).isBlank = false) : of (.ofChar c) [] ≠ .stray := by
  have hall : (Alphabet.identifierTerminators.all fun c =>
      (Cluster.ofChar c).isBlank || of (.ofChar c) [] != .stray) = true := by
    decide +kernel
  simpa [hblank] using List.all_eq_true.mp hall c hc

/-- Nothing begins with such a cluster. -/
theorem of_invalid (h : g.Invalid) : of g rest = .stray := by
  have hfits := fits g rest
  have hone : ∀ c, g ≠ .ofChar c := fun c hg => by simpa [hg] using h.is c
  generalize of g rest = opening at hfits
  cases opening with
  | lineBreak =>
    rcases Bool.or_eq_true_iff.mp hfits with hchars | hchars
    · exact absurd hchars (Bool.eq_false_iff.mp (h.is '\n'))
    · exact absurd (by simpa using hchars) h.notLineBreak
  | comment => exact absurd (Cluster.eq_ofChar_of_is hfits.1) (hone _)
  | mark p =>
    obtain ⟨c, hc, -⟩ := Option.bind_eq_some_iff.mp hfits
    exact absurd (Cluster.eq_ofChar_of_single? hc) (hone c)
  | templateQuote => exact absurd (Cluster.eq_ofChar_of_is hfits) (hone _)
  | interpolation => exact absurd (Cluster.eq_ofChar_of_is hfits.1) (hone _)
  | rune => exact absurd (Cluster.eq_ofChar_of_is hfits) (hone _)
  | string => exact absurd (Cluster.eq_ofChar_of_is hfits) (hone _)
  | number =>
    obtain ⟨c, hg, -⟩ := Cluster.eq_ofChar_of_isOne hfits
    exact absurd hg (hone c)
  | word =>
    obtain ⟨c, hc, hmem⟩ := h.terminator
    exact absurd hc (Cluster.notMem_of_isIdentifierPart hfits hmem)
  | stray => rfl

/-- **Clusters that begin nothing are the invalid ones**, and blanks. -/
theorem of_eq_stray_iff (hne : g.chars ≠ []) (hblank : g.isBlank = false) :
    of g rest = .stray ↔ g.Invalid := by
  constructor
  · intro h
    -- what follows such a cluster is of no account
    have halone : of g ([] ++ []) = .stray := by
      refine (of_of_isShort g [] (.of_nil rfl rest) ?_).trans h
      rw [List.nil_append, h]
      rfl
    have hfits := fits g rest
    rw [h] at hfits
    have hterm := Cluster.exists_terminator hne hfits
    refine { several := ?_, notLineBreak := ?_, terminator := hterm }
    · by_cases hlen : 2 ≤ g.chars.length
      · exact hlen
      · obtain ⟨cs⟩ := g
        obtain ⟨c, rfl⟩ : ∃ c, cs = [c] := by
          refine List.length_eq_one_iff.mp ?_
          have hpos : 0 < cs.length := List.length_pos_iff.mpr hne
          have hle : ¬2 ≤ cs.length := hlen
          omega
        obtain ⟨d, hd, hmem⟩ := hterm
        obtain rfl := List.mem_singleton.mp hd
        exact absurd halone (of_terminator hmem hblank)
    · intro hchars
      have hline : g.isLineBreak = true := by
        rw [Cluster.isLineBreak, hchars]
        rfl
      rw [of, if_pos hline] at h
      exact absurd h (by decide)
  · exact of_invalid

/-- A semicolon that carries an accent ends identifiers and is no mark. -/
example : of ⟨[';', '\u0301']⟩ [] = .stray := by decide

end Opening

end

/-! ## No other reader reports them -/

section

variable {g : Cluster} {gs rest left : List Cluster} {fault : Fault} {place : Place}

/-- Whatever breaks a text literal, it is not that a character is invalid. -/
theorem TextLiteral.Broken.cause_ne {form : TextForm} (h : Broken form gs fault) (g : Cluster) :
    fault.cause ≠ .invalidCharacter g := by
  cases h <;> simp

theorem TextLiteral.content_cause_ne {form : TextForm} (h : content form gs = .error fault)
    (g : Cluster) : fault.cause ≠ .invalidCharacter g := by
  obtain ⟨_, _, _, -, hbroken⟩ := content_error_iff.mp h
  exact hbroken.cause_ne g

/-- Nor is a number refused for an invalid character. -/
theorem Number.Rejected.cause_ne (h : Rejected gs fault) (g : Cluster) :
    fault.cause ≠ .invalidCharacter g := by
  cases h with
  | zeros => simp
  | front _ _ herror =>
    rintro rfl
    unfold Front.error? at herror
    repeat' split at herror
    all_goals simp at herror

namespace Lexeme

theorem quoted_cause_ne {kind : TokenKind} {form : TextForm}
    (h : quoted kind form gs = .error fault) (g : Cluster) :
    fault.cause ≠ .invalidCharacter g := by
  unfold quoted TextLiteral.quoted at h
  cases hc : TextLiteral.content form gs with
  | error found =>
    obtain rfl : found = fault := by simpa [hc] using h
    exact TextLiteral.content_cause_ne hc g
  | ok found => simp [hc] at h

theorem number_cause_ne {first : Cluster} (hfirst : first.isDecimalDigit = true)
    (h : number first gs = .error fault) (g : Cluster) :
    fault.cause ≠ .invalidCharacter g := by
  unfold number at h
  cases hr : Number.read first gs with
  | error found =>
    obtain rfl : found = fault := by simpa [hr] using h
    exact ((Number.read_error_iff hfirst).mp hr).cause_ne g
  | ok found => simp [hr] at h

/-- In code an invalid character is reported where a cluster begins nothing. -/
theorem readCode_invalid_iff :
    readCode place gs = .error ⟨.invalidCharacter g, left⟩ ↔
      left = gs ∧ ∃ rest, gs = g :: rest ∧ Opening.of g rest = .stray := by
  constructor
  · intro h
    cases gs with
    | nil => cases place <;> simp [readCode, Place.endError] at h
    | cons k rest =>
      have hfits := Opening.fits k rest
      rw [readCode] at h
      cases hopening : Opening.of k rest with
      | stray =>
        rw [hopening] at h
        obtain ⟨hk, rfl⟩ := Fault.mk.inj (Except.error.inj h)
        obtain rfl := LexicalError.invalidCharacter.inj hk
        exact ⟨rfl, rest, rfl, hopening⟩
      | rune =>
        rw [hopening] at h
        exact absurd rfl (quoted_cause_ne h g)
      | string =>
        rw [hopening] at h
        exact absurd rfl (quoted_cause_ne h g)
      | number =>
        rw [hopening] at h hfits
        exact absurd rfl (number_cause_ne hfits h g)
      | _ => simp [hopening] at h
  · rintro ⟨rfl, rest, rfl, hstray⟩
    rw [readCode, hstray]

/-- Template text has no invalid characters. -/
theorem read_invalid_iff (hne : ∀ k ∈ gs, k.chars ≠ []) :
    read place gs = .error ⟨.invalidCharacter g, left⟩ ↔
      place ≠ .templateText ∧ left = gs ∧ ∃ rest, gs = g :: rest ∧ Opening.of g rest = .stray := by
  by_cases hplace : place = .templateText
  · subst hplace
    refine iff_of_false ?_ fun h => h.1 rfl
    intro h
    unfold read TextLiteral.fragment at h
    cases hc : TextLiteral.content .template gs with
    | error found =>
      obtain rfl : found = ⟨.invalidCharacter g, left⟩ := by simpa [hc] using h
      exact TextLiteral.content_cause_ne hc g rfl
    | ok found =>
      obtain ⟨cs, rest⟩ := found
      obtain ⟨_, _, _, hend⟩ := TextLiteral.content_decodes hc
      by_cases hempty : cs = []
      · -- the mark that ends the text is read
        subst hempty
        obtain rfl := TextLiteral.eq_of_content_nil hc hne
        obtain ⟨_, _, _, -, hread, -⟩ := readCode_of_endsText hend .templateText
        simp [hc, hread] at h
      · simp [hc, hempty] at h
  · rw [read_eq_readCode hplace, readCode_invalid_iff]
    exact (and_iff_right hplace).symm

end Lexeme

end

/-! ## The message is no other error's -/

namespace LexicalError

/-- The first letters of a message name nothing yet, and only one message has its letter here. -/
theorem front_template (e : LexicalError) :
    '{' ∉ e.template.text.toList.take 27 ∧
      ((e.template.text.toList.take 27)[26]? = some 'c' → ∃ k, e = .invalidCharacter k) := by
  cases e with
  | invalidCharacter k => exact ⟨by simp only [template]; decide +kernel, fun _ => ⟨k, rfl⟩⟩
  | _ =>
    simp only [template]
    refine (show _ ∧ ¬_ from ?_).imp_right fun hletter h => absurd h hletter
    decide +kernel

theorem take_message (e : LexicalError) (p : Position) :
    (e.diagnostic p).message.toList.take 27 = e.template.text.toList.take 27 :=
  Text.Placeholder.take_fill e.front_template.1 e.arguments

/-- The message has the cluster as it stands in the source. -/
theorem message_invalidCharacter (g : Cluster) (p : Position) :
    ((invalidCharacter g).diagnostic p).message
      = "Unexpected token: invalid character '" ++ g.text ++ "'" := by
  have htext : MessageTemplate.invalidCharacter.text = String.ofList
      ("Unexpected token: invalid character '".toList
        ++ '{' :: (Text.Placeholder.key 0 ++ ['\''])) := by
    decide +kernel
  show Text.Placeholder.fill MessageTemplate.invalidCharacter.text [g.text] = _
  rw [htext, Text.Placeholder.fill_one (by decide +kernel) (by decide), String.ofList_append,
    String.ofList_append, String.ofList_toList, String.ofList_toList, ← String.append_assoc]

/-- **A diagnostic that names an invalid character comes from that error.** -/
theorem diagnostic_eq_invalidCharacter_iff {e : LexicalError} {g : Cluster} {p q : Position} :
    e.diagnostic p = (invalidCharacter g).diagnostic q ↔ e = .invalidCharacter g ∧ p = q := by
  constructor
  · intro h
    have hmessage := congrArg Diagnostic.message h
    have hletter := congrArg (fun m => (m.toList.take 27)[26]?) hmessage
    simp only [take_message] at hletter
    obtain ⟨k, rfl⟩ := e.front_template.2 (hletter.trans
      (show (MessageTemplate.invalidCharacter.text.toList.take 27)[26]? = some 'c' by
        decide +kernel))
    rw [message_invalidCharacter, message_invalidCharacter] at hmessage
    have htext : k.text = g.text := String.append_right_inj _ |>.mp (String.append_left_inj _ |>.mp hmessage)
    obtain ⟨ks⟩ := k
    obtain ⟨cs⟩ := g
    obtain rfl : ks = cs := String.ofList_injective htext
    exact ⟨rfl, congrArg Diagnostic.position h⟩
  · rintro ⟨rfl, rfl⟩
    rfl

end LexicalError

namespace Scanner

variable {s s' : Scanner} {g : Cluster} {p : Position}

/--
**A call names an invalid character exactly where one comes next in code, and does not pass it.**

The cluster is of several scalar values, so no character alone is ever invalid.
-/
theorem next_invalid_iff :
    s.next = (.error ((LexicalError.invalidCharacter g).diagnostic p), s') ↔
      s.frames.place ≠ .templateText ∧ s.codeAhead.head? = some g ∧ g.Invalid ∧
        p = s.position.passing s.blanksAhead ∧ s' = s.stopped s.blanksAhead := by
  have hsplit := s.ahead_eq
  constructor
  · intro h
    obtain ⟨blanks, passed, ⟨cause, left⟩, hf⟩ := fails_of_next h
    obtain ⟨rfl, rfl⟩ := LexicalError.diagnostic_eq_invalidCharacter_iff.mp hf.diagnostic.symm
    have hne : ∀ k ∈ passed ++ left, k.chars ≠ [] := by
      intro k hk
      refine Cursor.ne_nil_of_mem_ahead (c := s.cursor) ?_
      rw [hf.ahead]
      exact List.mem_append_right _ hk
    obtain ⟨hplace, hleft, rest, hgs, hstray⟩ := (Lexeme.read_invalid_iff hne).mp hf.read
    -- nothing of the lexeme was passed, so the scan stands behind the blanks
    obtain rfl : passed = [] := List.self_eq_append_left.mp hleft
    obtain rfl : s.blanksAhead = blanks := (blanksIn_of_place hplace _).symm.trans hf.blanksIn
    have hcode : s.codeAhead = g :: rest :=
      List.append_cancel_left (hsplit.symm.trans (hf.ahead.trans (congrArg _ hgs)))
    have hg : g.chars ≠ [] := hne g (by rw [hgs]; exact List.mem_cons_self)
    refine ⟨hplace, by rw [hcode]; rfl, ?_, ?_, ?_⟩
    · exact (Opening.of_eq_stray_iff hg (isBlank_of_codeAhead hcode)).mp hstray
    · rw [hf.after, List.append_nil]
      rfl
    · rw [hf.after, List.append_nil]
  · rintro ⟨hplace, hhead, hinvalid, rfl, rfl⟩
    obtain ⟨rest, hcode⟩ := List.head?_eq_some_iff.mp hhead
    have hread : Lexeme.read s.frames.place s.codeAhead
        = .error ⟨.invalidCharacter g, s.codeAhead⟩ := by
      rw [hcode, Lexeme.read_eq_readCode hplace]
      exact Lexeme.readCode_invalid_iff.mpr ⟨rfl, rest, rfl, Opening.of_invalid hinvalid⟩
    have hf : s.Fails s.blanksAhead [] ⟨.invalidCharacter g, s.codeAhead⟩ _ _ :=
      fails_of_read hsplit (blanksIn_of_place hplace _) hread
    rw [List.append_nil] at hf
    exact hf.next

end Scanner

end Lexis
