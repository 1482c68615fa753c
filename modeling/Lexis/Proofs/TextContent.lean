import Lexis.Literal.Text

/-!
# The content of text literals

Which scalar values the clusters between the delimiters of a literal stand for, as a relation that
does not follow the reader: a cluster stands for itself, and a backslash with the clusters of an
escape for one scalar value. Whatever the reader decodes is related in this way to the clusters it
passes (`content_decodes`), and it reads whatever is so related (`content_of_content`).
-/

namespace Lexis.TextLiteral

open TextForm

/-- The number of digits after the letter of a hexadecimal escape. -/
def hexLength? : Char → Option Nat
  | 'x' => some 2
  | 'u' => some 4
  | 'U' => some 8
  | _ => none

/-- The clusters after a backslash stand for a scalar value. -/
inductive Escape (form : TextForm) : List Cluster → Char → Prop where
  | named {symbol c : Char} (h : escape? form symbol = some c) : Escape form [.ofChar symbol] c
  | hex {letter c : Char} {digits : List Char}
      (length : hexLength? letter = some digits.length)
      (digit : ∀ d ∈ digits, Alphabet.isHexDigit d = true)
      (long : letter = 'U' → digits.head? = some '0')
      (value : scalar? (Alphabet.hexValue digits) = some c) :
      Escape form (.ofChar letter :: digits.map .ofChar) c

/--
Clusters are the content of a literal and stand for scalar values; `follow` are the clusters after
the content, which tell whether a dollar sign at its end opens an interpolation.
-/
inductive Content (form : TextForm) (follow : List Cluster) : List Cluster → List Char → Prop where
  | nil : Content form follow [] []
  | raw {g : Cluster} {body : List Cluster} {cs : List Char}
      (plain : g.is '\\' = false)
      (inside : closes form g (body ++ follow) = false)
      (line : g.isLineBreak = true → form = template)
      (rest : Content form follow body cs) : Content form follow (g :: body) (g.chars ++ cs)
  | escape {code body : List Cluster} {c : Char} {cs : List Char}
      (stands : Escape form code c)
      (rest : Content form follow body cs) :
      Content form follow (.ofChar '\\' :: (code ++ body)) (c :: cs)

/-- Clusters that a delimiter encloses, and the text they stand for. -/
def Quotes (form : TextForm) (delimiter : Char) (gs : List Cluster) (text : String) : Prop :=
  ∃ body, gs = .ofChar delimiter :: (body ++ [.ofChar delimiter]) ∧
    Content form [.ofChar delimiter] body text.toList

/-! ## Content in front of other clusters -/

theorem nextIs_append {gs hs : List Cluster} {c : Char} (h : Cluster.nextIs (gs ++ hs) c = false)
    (ks : List Cluster) (hk : Cluster.nextIs ks c = false) :
    Cluster.nextIs (gs ++ ks) c = false := by
  cases gs with
  | nil => exact hk
  | cons g gs => exact h

/-- What follows the content matters only if it could open an interpolation. -/
theorem Content.before {form : TextForm} {follow follow' body : List Cluster} {cs : List Char}
    (h : Content form follow body cs) (hf : Cluster.nextIs follow' '{' = false) :
    Content form follow' body cs := by
  induction h with
  | nil => exact .nil
  | @raw g body cs plain inside line _ ih =>
    refine .raw plain ?_ line ih
    cases form with
    | rune => exact inside
    | string => exact inside
    | template =>
      -- only a dollar sign at the end of the body looks at what follows
      simp only [closes, Bool.or_eq_false_iff, Bool.and_eq_false_iff] at inside ⊢
      exact ⟨inside.1, inside.2.imp_right fun h => nextIs_append h follow' hf⟩
  | escape stands _ ih => exact .escape stands ih

/-! ## What the reader decodes -/

/-- What is read as digits are as many hex digits as were asked for. -/
theorem hexDigits_eq {form : TextForm} {count : Nat} {gs rest : List Cluster} {digits : List Char}
    (h : hexDigits form count gs = .ok (digits, rest)) :
    gs = digits.map .ofChar ++ rest ∧ digits.length = count ∧
      ∀ d ∈ digits, Alphabet.isHexDigit d = true := by
  fun_induction hexDigits form count gs generalizing digits rest with
  | case1 gs =>
    obtain ⟨rfl, rfl⟩ := Prod.mk.inj (Except.ok.inj h)
    exact ⟨rfl, rfl, by simp⟩
  | case2 => simp at h
  | case3 => simp at h
  | case4 count g tail hg ds left hd ih =>
    obtain ⟨rfl, rfl⟩ := Prod.mk.inj (Except.ok.inj h)
    obtain ⟨rfl, hl, hall⟩ := ih hd
    obtain ⟨c, rfl, hc⟩ := Cluster.eq_ofChar_of_isOne hg
    refine ⟨rfl, ?_, ?_⟩
    · rw [List.length_append, hl]
      exact Nat.add_comm 1 count
    · intro d hmem
      rcases List.mem_append.mp hmem with hmem | hmem
      · rw [List.mem_singleton.mp hmem]
        exact hc
      · exact hall d hmem
  | case5 => simp at h

/-- What is read as a hex escape are the digits of a scalar value. -/
theorem hexEscape_eq {form : TextForm} {count : Nat} {gs rest : List Cluster} {c : Char}
    (h : hexEscape form count gs = .ok (c, rest)) :
    ∃ digits : List Char, gs = digits.map .ofChar ++ rest ∧ digits.length = count ∧
      (∀ d ∈ digits, Alphabet.isHexDigit d = true) ∧
      scalar? (Alphabet.hexValue digits) = some c := by
  unfold hexEscape at h
  split at h
  · simp at h
  · next digits left hd =>
    split at h
    · next d hv =>
      obtain ⟨rfl, rfl⟩ := Prod.mk.inj (Except.ok.inj h)
      obtain ⟨hgs, hlen, hall⟩ := hexDigits_eq hd
      exact ⟨digits, hgs, hlen, hall, hv⟩
    · simp at h

/-- A hexadecimal escape whose letter has just been passed. -/
theorem escape_hex {form : TextForm} {letter c : Char} {count : Nat} {gs rest : List Cluster}
    (hl : hexLength? letter = some count)
    (h : hexEscape form count gs = .ok (c, rest))
    (hu : letter = 'U' → ∃ tail, gs = .ofChar '0' :: tail) :
    ∃ code, .ofChar letter :: gs = code ++ rest ∧ Escape form code c := by
  obtain ⟨digits, rfl, hlen, hall, hv⟩ := hexEscape_eq h
  refine ⟨.ofChar letter :: digits.map .ofChar, rfl, .hex (hlen ▸ hl) hall ?_ hv⟩
  intro he
  obtain ⟨tail, ht⟩ := hu he
  cases digits with
  | nil =>
    subst he hlen
    exact absurd hl (by decide)
  | cons d digits =>
    have hd : d = '0' := by simpa [Cluster.ofChar] using (List.cons.inj ht).1
    rw [hd]
    rfl

/-- What is read as an escape is one. -/
theorem escape_decodes {form : TextForm} {backslash : Cluster} {gs rest : List Cluster} {c : Char}
    (h : escape form backslash gs = .ok (c, rest)) :
    ∃ code, gs = code ++ rest ∧ Escape form code c := by
  unfold escape at h
  -- the named symbols are tried first, and then the three letters of hex escapes
  split at h
  · simp at h
  · next symbol tail =>
    split at h
    · next d hd =>
      obtain ⟨rfl, rfl⟩ := Prod.mk.inj (Except.ok.inj h)
      obtain ⟨s, hs, he⟩ := Option.bind_eq_some_iff.mp hd
      rw [Cluster.eq_ofChar_of_single? hs]
      exact ⟨[.ofChar s], rfl, .named he⟩
    · split at h
      · next hx =>
        rw [Cluster.eq_ofChar_of_is hx]
        exact escape_hex rfl h (fun he => absurd he (by decide))
      · split at h
        · next hu =>
          rw [Cluster.eq_ofChar_of_is hu]
          exact escape_hex rfl h (fun he => absurd he (by decide))
        · split at h
          · next hU =>
            rw [Cluster.eq_ofChar_of_is hU]
            unfold longEscape at h
            split at h
            · simp at h
            · next g left =>
              split at h
              · next h0 =>
                rw [Cluster.eq_ofChar_of_is h0] at h ⊢
                exact escape_hex rfl h (fun _ => ⟨left, rfl⟩)
              · simp at h
          · simp at h

/-- **What is read as content stands for what it is decoded to, and ends before what closes it.** -/
theorem content_decodes {form : TextForm} {gs rest : List Cluster} {cs : List Char}
    (h : content form gs = .ok (cs, rest)) :
    ∃ body, gs = body ++ rest ∧ Content form rest body cs ∧
      ∃ g tail, rest = g :: tail ∧ closes form g tail = true := by
  fun_induction content form gs generalizing cs rest with
  | case1 => simp at h
  | case2 g tail hclose =>
    obtain ⟨rfl, rfl⟩ := Prod.mk.inj (Except.ok.inj h)
    exact ⟨[], rfl, .nil, g, tail, rfl, hclose⟩
  | case3 => simp at h
  | case4 => simp at h
  | case5 => simp at h
  | case6 g tail hclose hline hslash c left he ds left' hc ih =>
    obtain ⟨rfl, rfl⟩ := Prod.mk.inj (Except.ok.inj h)
    obtain ⟨code, rfl, hcode⟩ := escape_decodes he
    obtain ⟨body, rfl, hbody, hend⟩ := ih hc
    rw [Cluster.eq_ofChar_of_is hslash]
    exact ⟨.ofChar '\\' :: (code ++ body), by simp, .escape hcode hbody, hend⟩
  | case7 => simp at h
  | case8 g tail hclose hline hslash ds left hc ih =>
    obtain ⟨rfl, rfl⟩ := Prod.mk.inj (Except.ok.inj h)
    obtain ⟨body, rfl, hbody, hend⟩ := ih hc
    refine ⟨g :: body, rfl, .raw (by simpa using hslash) (by simpa using hclose) ?_ hbody, hend⟩
    intro hg
    simpa [hg] using hline

/-- A rune or string is read up to and including its closing delimiter. -/
theorem quoted_decodes {form : TextForm} {gs rest : List Cluster} {text : String}
    {delimiter : Char} (hd : ∀ g tail, closes form g tail = g.is delimiter)
    (hne : delimiter ≠ '{') (h : quoted form gs = .ok (text, rest)) :
    ∃ body, gs = body ++ .ofChar delimiter :: rest ∧
      Content form [.ofChar delimiter] body text.toList := by
  unfold quoted at h
  split at h
  · simp at h
  · next cs left hc =>
    obtain ⟨rfl, rfl⟩ := Prod.mk.inj (Except.ok.inj h)
    obtain ⟨body, rfl, hbody, g, tail, rfl, hclose⟩ := content_decodes hc
    rw [hd] at hclose
    rw [Cluster.eq_ofChar_of_is hclose]
    refine ⟨body, rfl, ?_⟩
    rw [String.toList_ofList]
    exact hbody.before (by simpa [Cluster.nextIs] using hne)

/-! ## What the reader accepts -/

theorem hexDigits_of_isHexDigit (form : TextForm) (digits : List Char) (rest : List Cluster)
    (h : ∀ d ∈ digits, Alphabet.isHexDigit d = true) :
    hexDigits form digits.length (digits.map .ofChar ++ rest) = .ok (digits, rest) := by
  induction digits with
  | nil => rfl
  | cons d digits ih =>
    have hd : (Cluster.ofChar d).isHexDigit = true := by
      simpa [Cluster.isHexDigit, Cluster.isOne] using h d (by simp)
    have htail := ih fun e he => h e (by simp [he])
    simp only [List.map_cons, List.cons_append, List.length_cons, hexDigits, hd, if_true, htail]
    rfl

/-- The digits of a scalar value are read as one, whatever follows them. -/
theorem hexEscape_of_isHexDigit {form : TextForm} {digits : List Char} {c : Char}
    (hd : ∀ d ∈ digits, Alphabet.isHexDigit d = true)
    (hv : scalar? (Alphabet.hexValue digits) = some c) (rest : List Cluster) :
    hexEscape form digits.length (digits.map .ofChar ++ rest) = .ok (c, rest) := by
  simp only [hexEscape, hexDigits_of_isHexDigit form digits rest hd, hv]

/-- The three letters of hex escapes. -/
theorem eq_of_hexLength? {letter : Char} {n : Nat} (h : hexLength? letter = some n) :
    letter = 'x' ∧ n = 2 ∨ letter = 'u' ∧ n = 4 ∨ letter = 'U' ∧ n = 8 := by
  unfold hexLength? at h
  split at h
  · exact .inl ⟨rfl, (Option.some.inj h).symm⟩
  · exact .inr (.inl ⟨rfl, (Option.some.inj h).symm⟩)
  · exact .inr (.inr ⟨rfl, (Option.some.inj h).symm⟩)
  · simp at h

/-- An escape is read whatever follows it. -/
theorem escape_of_escape {form : TextForm} {code : List Cluster} {c : Char}
    (h : Escape form code c) (backslash : Cluster) (rest : List Cluster) :
    escape form backslash (code ++ rest) = .ok (c, rest) := by
  cases h with
  | named h => simp [escape, h]
  | @hex letter _ digits length digit long value =>
    have hread := @hexEscape_of_isHexDigit form _ _ digit value rest
    have hletter : escape? form letter = none := by
      rcases eq_of_hexLength? length with ⟨rfl, _⟩ | ⟨rfl, _⟩ | ⟨rfl, _⟩ <;> cases form <;> decide
    rcases eq_of_hexLength? length with ⟨rfl, hn⟩ | ⟨rfl, hn⟩ | ⟨rfl, hn⟩
    · rw [hn] at hread
      simp [escape, hletter, hread]
    · rw [hn] at hread
      simp [escape, hletter, hread]
    · rw [hn] at hread
      obtain ⟨tail, rfl⟩ := List.head?_eq_some_iff.mp (long rfl)
      simp only [List.map_cons, List.cons_append] at hread ⊢
      simp [escape, hletter, longEscape, hread]

/-- **Clusters that are content are read as what they stand for.** -/
theorem content_of_content {form : TextForm} {follow body : List Cluster} {cs : List Char}
    (h : Content form follow body cs)
    (hend : ∃ g tail, follow = g :: tail ∧ closes form g tail = true) :
    content form (body ++ follow) = .ok (cs, follow) := by
  induction h with
  | nil =>
    obtain ⟨g, tail, rfl, hclose⟩ := hend
    rw [List.nil_append, content, if_pos hclose]
  | @raw g body cs plain inside line _ ih =>
    have hline : ¬(g.isLineBreak && decide (form ≠ template)) = true := by
      simpa using line
    rw [List.cons_append, content, if_neg (by simp [inside]), if_neg hline, if_neg (by simp [plain]),
      ih]
  | @escape code body c cs stands _ ih =>
    have hclose : closes form (.ofChar '\\') (code ++ (body ++ follow)) = false := by
      cases form <;> simp [closes]
    have hline : (Cluster.ofChar '\\').isLineBreak = false := by decide
    have hread := escape_of_escape stands (.ofChar '\\') (body ++ follow)
    rw [List.cons_append, List.append_assoc, content, if_neg (by simp [hclose]),
      if_neg (by simp [hline]), if_pos (by simp)]
    split
    · next he => simp [hread] at he
    · next he =>
      rw [hread] at he
      obtain ⟨rfl, rfl⟩ := Prod.mk.inj (Except.ok.inj he)
      rw [ih]

end Lexis.TextLiteral
