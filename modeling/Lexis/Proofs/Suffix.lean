import Lexis.Lexeme

/-!
# Readers leave an end part

Whether a reader succeeds or fails, the clusters it leaves are an end part of those it was given.
So the place where it stops is a place of the source, and what it has passed is a front part.
-/

namespace Lexis

/-- The clusters a reader leaves: after what it has read, or where it has noticed the error. -/
def leftBy {α : Type} (rest : α → List Cluster) : Except Fault α → List Cluster
  | .ok found => rest found
  | .error fault => fault.rest

theorem suffix_cons_of_suffix {gs hs : List Cluster} (g : Cluster) (h : gs <:+ hs) :
    gs <:+ g :: hs :=
  h.trans (List.suffix_cons g hs)

/-! ## Text literals -/

namespace TextLiteral

/-- Hex digits stop at the first cluster that is none. -/
theorem suffix_hexDigits (form : TextForm) (count : Nat) (gs : List Cluster) :
    leftBy Prod.snd (hexDigits form count gs) <:+ gs := by
  fun_induction hexDigits form count gs with
  | case1 gs => exact List.suffix_refl gs
  | case2 => exact List.nil_suffix
  | case3 count g rest _ fault hf ih =>
    rw [hf] at ih
    exact suffix_cons_of_suffix g ih
  | case4 count g rest _ digits left hd ih =>
    rw [hd] at ih
    exact suffix_cons_of_suffix g ih
  | case5 count g rest _ => exact List.suffix_refl _

/-- Whether the digits name a scalar value is asked behind them, so nothing is put back. -/
theorem suffix_hexEscape (form : TextForm) (count : Nat) (gs : List Cluster) :
    leftBy Prod.snd (hexEscape form count gs) <:+ gs := by
  have hd := suffix_hexDigits form count gs
  unfold hexEscape
  cases h : hexDigits form count gs with
  | error fault => rwa [h] at hd
  | ok found =>
    rw [h] at hd
    simp only
    split <;> exact hd

theorem suffix_longEscape (form : TextForm) (gs : List Cluster) :
    leftBy Prod.snd (longEscape form gs) <:+ gs := by
  unfold longEscape
  split
  · exact List.nil_suffix
  · split
    · exact suffix_hexEscape form 8 _
    · exact List.suffix_refl _

/-- An escape that is refused as a whole leaves its backslash. -/
theorem suffix_escape (form : TextForm) (backslash : Cluster) (gs : List Cluster) :
    leftBy Prod.snd (escape form backslash gs) <:+ backslash :: gs := by
  unfold escape
  split
  · exact List.nil_suffix
  · next symbol rest =>
    have hin : ∀ {left : List Cluster}, left <:+ rest → left <:+ backslash :: symbol :: rest :=
      fun h => suffix_cons_of_suffix _ (suffix_cons_of_suffix _ h)
    split
    · exact hin (List.suffix_refl rest)
    · repeat' split
      · exact hin (suffix_hexEscape form 2 rest)
      · exact hin (suffix_hexEscape form 4 rest)
      · exact hin (suffix_longEscape form rest)
      · exact List.suffix_refl _

/-- Content leaves its closing quote, or the cluster that is wrong. -/
theorem suffix_content (form : TextForm) (gs : List Cluster) :
    leftBy Prod.snd (content form gs) <:+ gs := by
  fun_induction content form gs with
  | case1 => exact List.nil_suffix
  | case2 g rest _ => exact List.suffix_refl _
  | case3 g rest _ _ => exact List.suffix_refl _
  | case4 g rest _ _ _ fault he =>
    have hs := suffix_escape form g rest
    rwa [he] at hs
  | case5 g rest _ _ _ c left he fault hc ih =>
    -- an escape leaves an end part, and the content behind it one of that
    have hs := suffix_escape form g rest
    rw [he] at hs
    rw [hc] at ih
    exact ih.trans hs
  | case6 g rest _ _ _ c left he cs left' hc ih =>
    have hs := suffix_escape form g rest
    rw [he] at hs
    rw [hc] at ih
    exact ih.trans hs
  | case7 g rest _ _ _ fault hc ih =>
    rw [hc] at ih
    exact suffix_cons_of_suffix g ih
  | case8 g rest _ _ _ cs left hc ih =>
    rw [hc] at ih
    exact suffix_cons_of_suffix g ih

theorem suffix_quoted (form : TextForm) (gs : List Cluster) :
    leftBy Prod.snd (quoted form gs) <:+ gs := by
  have hc := suffix_content form gs
  unfold quoted
  cases h : content form gs with
  | error fault => rwa [h] at hc
  | ok found =>
    rw [h] at hc
    exact (List.drop_suffix 1 _).trans hc

end TextLiteral

/-! ## Numbers -/

namespace Number

theorem suffix_afterSign (gs : List Cluster) : afterSign gs <:+ gs := by
  unfold afterSign
  split
  · split
    · exact List.suffix_cons _ _
    · exact List.suffix_refl _
  · exact List.nil_suffix

/-- The body of a number stops before a cluster that cannot continue it, and fails there too. -/
theorem suffix_body (radix : Radix) (met : Met) (gs : List Cluster) :
    leftBy Prod.snd (body radix met gs) <:+ gs := by
  fun_induction body radix met gs with
  | case1 => exact List.nil_suffix
  | case2 => exact List.suffix_refl _
  | case3 => exact List.suffix_refl _
  | case4 => exact List.suffix_refl _
  | case5 _ g rest _ _ _ _ ih => exact suffix_cons_of_suffix g ih
  | case6 => exact List.suffix_refl _
  | case7 => exact List.suffix_refl _
  | case8 _ g rest _ _ _ _ ih => exact suffix_cons_of_suffix g (ih.trans (suffix_afterSign rest))
  | case9 _ g rest _ _ _ ih => exact suffix_cons_of_suffix g ih
  | case10 => exact List.suffix_refl _

/-- What is refused about a number as a whole is refused behind its body. -/
theorem suffix_afterHead (radix : Radix) (integer : NumberForm) (head : List Char)
    (gs : List Cluster) : leftBy Found.rest (afterHead radix integer head gs) <:+ gs := by
  have hb := suffix_body radix .nothing gs
  unfold afterHead
  cases h : body radix .nothing gs with
  | error fault => rwa [h] at hb
  | ok found =>
    rw [h] at hb
    simp only
    repeat' split
    all_goals exact hb

/-- A marker is the first cluster of what it was found in. -/
theorem suffix_of_markedRadix? {gs rest : List Cluster} {radix : Radix} {marker : Cluster}
    (h : markedRadix? gs = some (radix, marker, rest)) : gs = marker :: rest := by
  unfold markedRadix? at h
  split at h
  · obtain ⟨_, _, hr⟩ := Option.map_eq_some_iff.1 h
    simp only [Prod.mk.injEq] at hr
    rw [hr.2.1, hr.2.2]
  · simp at h

/-- A number leaves what it cannot use, with or without zeros in front. -/
theorem suffix_read (first : Cluster) (gs : List Cluster) :
    leftBy Found.rest (read first gs) <:+ gs := by
  unfold read
  split
  · -- whatever follows the zeros is read from an end part
    have hz : gs.dropWhile (·.is '0') <:+ gs := List.dropWhile_suffix _
    unfold afterZero
    simp only
    split
    · exact hz
    · split
      · next hm =>
        rw [suffix_of_markedRadix? hm] at hz
        exact (suffix_cons_of_suffix _ (suffix_afterHead _ _ _ _)).trans hz
      · exact (suffix_afterHead _ _ _ _).trans hz
  · exact suffix_afterHead _ _ _ gs

end Number

/-! ## Lexemes -/

namespace Lexeme

theorem suffix_quoted (kind : TokenKind) (form : TextForm) (gs : List Cluster) :
    leftBy Lexeme.rest (quoted kind form gs) <:+ gs := by
  have hq := TextLiteral.suffix_quoted form gs
  unfold quoted
  cases h : TextLiteral.quoted form gs <;> rwa [h] at hq

theorem suffix_number (first : Cluster) (gs : List Cluster) :
    leftBy Lexeme.rest (number first gs) <:+ gs := by
  have hn := Number.suffix_read first gs
  unfold number
  cases h : Number.read first gs <;> rwa [h] at hn

/-- Every opening leaves an end part: what it takes stands at the front. -/
theorem suffix_readCode (place : Place) (gs : List Cluster) :
    leftBy Lexeme.rest (readCode place gs) <:+ gs := by
  cases gs with
  | nil => exact List.nil_suffix
  | cons g rest =>
    rw [readCode]
    cases Opening.of g rest with
    | lineBreak => exact List.suffix_cons g rest
    | comment => exact List.dropWhile_suffix _
    | mark p => exact List.drop_suffix _ _
    | templateQuote => exact List.suffix_cons g rest
    | interpolation => exact suffix_cons_of_suffix g (List.drop_suffix 1 rest)
    | rune => exact suffix_cons_of_suffix g (suffix_quoted _ _ rest)
    | string => exact suffix_cons_of_suffix g (suffix_quoted _ _ rest)
    | number => exact suffix_cons_of_suffix g (suffix_number g rest)
    | word => exact List.dropWhile_suffix _
    | stray => exact List.suffix_refl _

/-- **Reading a token leaves an end part, also where it fails.** -/
theorem suffix_read (place : Place) (gs : List Cluster) :
    leftBy Lexeme.rest (read place gs) <:+ gs := by
  unfold read
  split
  · have hf := TextLiteral.suffix_content .template gs
    unfold TextLiteral.fragment
    cases h : TextLiteral.content .template gs with
    | error fault => rwa [h] at hf
    | ok found =>
      rw [h] at hf
      simp only
      split
      · -- an empty fragment is no token, and the code is read from the front again
        exact suffix_readCode _ gs
      · exact hf
  · exact suffix_readCode _ gs

end Lexeme

end Lexis
