import Lexis.Proofs.Marks
import Lexis.Proofs.Numeral
import Lexis.Proofs.TextContent

/-!
# What a token spells

How the text of a token follows from the clusters it was read from: for most kinds it is what they
spell; a number's leading zeros are written once, and a rune, a string and a template fragment carry
the scalar values that their content stands for. Reading a token passes clusters that spell its text
(`read_spells`).
-/

namespace Lexis

/-- The text that clusters give a token of a kind. -/
def Spells : TokenKind → List Cluster → String → Prop
  | .number _, ls, text => text = String.ofList (Number.collapseZeros (Cluster.charsOf ls))
  | .rune, ls, text => TextLiteral.Quotes .rune '\'' ls text
  | .string, ls, text => TextLiteral.Quotes .string '"' ls text
  | .templateFragment, ls, text => TextLiteral.Content .template [] ls text.toList
  | _, ls, text => text = Cluster.textOf ls

namespace Lexeme

/-- A mark is spelled by as many clusters as its spelling is long. -/
theorem punctuation_spells {gs : List Cluster} {p : Punctuator} (h : Punctuator.ahead? gs = some p) :
    ∃ ls, gs = ls ++ (punctuation p gs).rest ∧ p.spelling = Cluster.textOf ls := by
  obtain ⟨rest, rfl⟩ := Punctuator.ahead?_spells h
  refine ⟨p.clusters, ?_, ?_⟩
  · show _ = p.clusters ++ (p.clusters ++ rest).drop p.spelling.length
    rw [List.drop_left' p.length_clusters]
  · rw [Cluster.textOf, Punctuator.clusters, Cluster.charsOf_map_ofChar, String.ofList_toList]

/-- A word spells itself, whether it is a keyword or not. -/
theorem identifier_spells (gs : List Cluster) :
    ∃ ls, gs = ls ++ (identifier gs).rest ∧ Spells (identifier gs).kind ls (identifier gs).text := by
  refine ⟨gs.takeWhile (·.isIdentifierPart), List.takeWhile_append_dropWhile.symm, ?_⟩
  unfold identifier TokenKind.ofKeyword?
  simp only
  cases Keyword.ofSpelling? _ <;> rfl

/-- A literal is its content between two delimiters, and its text what the content stands for. -/
theorem quoted_spells {kind : TokenKind} {form : TextForm} {delimiter : Char} {gs : List Cluster}
    {x : Lexeme} (hd : ∀ g tail, TextLiteral.closes form g tail = g.is delimiter)
    (hne : delimiter ≠ '{') (h : quoted kind form gs = .ok x) :
    ∃ ls, .ofChar delimiter :: gs = ls ++ x.rest ∧
      x.kind = kind ∧ TextLiteral.Quotes form delimiter ls x.text := by
  unfold quoted at h
  split at h
  · simp at h
  · next text rest hq =>
    obtain rfl := Except.ok.inj h
    obtain ⟨body, rfl, hbody⟩ := TextLiteral.quoted_decodes hd hne hq
    exact ⟨.ofChar delimiter :: (body ++ [.ofChar delimiter]), by simp, rfl, body, rfl, hbody⟩

/-- A number spells its text but for zeros in front. -/
theorem number_spells {first : Cluster} {gs : List Cluster} {x : Lexeme}
    (hf : first.isDecimalDigit = true) (h : number first gs = .ok x) :
    ∃ ls, first :: gs = ls ++ x.rest ∧ Spells x.kind ls x.text := by
  unfold number at h
  split at h
  · simp at h
  · next found hr =>
    obtain rfl := Except.ok.inj h
    obtain ⟨ls, rfl, ht⟩ := Number.read_text hf hr
    exact ⟨first :: ls, rfl, ht⟩

theorem readCode_spells {place : Place} {gs : List Cluster} {x : Lexeme}
    (h : readCode place gs = .ok x) : ∃ ls, gs = ls ++ x.rest ∧ Spells x.kind ls x.text := by
  cases gs with
  | nil => simp [readCode] at h
  | cons g rest =>
    have hone : g.text = Cluster.textOf [g] := by simp [Cluster.textOf, Cluster.text]
    have hfits := Opening.fits g rest
    rw [readCode] at h
    generalize Opening.of g rest = opening at h hfits
    cases opening with
    | lineBreak =>
      obtain rfl := Except.ok.inj h
      exact ⟨[g], rfl, hone⟩
    | comment =>
      obtain rfl := Except.ok.inj h
      exact ⟨_, List.takeWhile_append_dropWhile.symm, rfl⟩
    | mark p =>
      obtain rfl := Except.ok.inj h
      exact punctuation_spells hfits
    | templateQuote =>
      obtain rfl := Except.ok.inj h
      exact ⟨[g], rfl, hone⟩
    | interpolation =>
      -- two clusters, though one of them opened it
      obtain rfl := Except.ok.inj h
      obtain ⟨hdollar, hnext⟩ := hfits
      obtain ⟨tail, rfl⟩ := Cluster.eq_cons_of_nextIs hnext
      refine ⟨[g, .ofChar '{'], rfl, ?_⟩
      rw [Cluster.eq_ofChar_of_is hdollar]
      rfl
    | rune =>
      obtain ⟨ls, hls, hk, ht⟩ := quoted_spells (fun _ _ => rfl) (by decide) h
      rw [Cluster.eq_ofChar_of_is hfits, hk]
      exact ⟨ls, hls, ht⟩
    | string =>
      obtain ⟨ls, hls, hk, ht⟩ := quoted_spells (fun _ _ => rfl) (by decide) h
      rw [Cluster.eq_ofChar_of_is hfits, hk]
      exact ⟨ls, hls, ht⟩
    | number => exact number_spells hfits h
    | word =>
      obtain rfl := Except.ok.inj h
      exact identifier_spells _
    | stray => simp at h

/-- **A token is read from clusters that spell its text.** -/
theorem read_spells {place : Place} {gs : List Cluster} {x : Lexeme} (h : read place gs = .ok x) :
    ∃ ls, gs = ls ++ x.rest ∧ ls ≠ [] ∧ Spells x.kind ls x.text := by
  have hlen := length_of_read h
  have hspell : ∃ ls, gs = ls ++ x.rest ∧ Spells x.kind ls x.text := by
    unfold read at h
    split at h
    · split at h
      · simp at h
      · next cs rest hf =>
        split at h
        · -- an empty fragment gives way to the code behind it
          exact readCode_spells h
        · obtain rfl := Except.ok.inj h
          obtain ⟨body, rfl, hbody, _⟩ := TextLiteral.content_decodes hf
          refine ⟨body, rfl, ?_⟩
          show TextLiteral.Content .template [] body (String.ofList cs).toList
          rw [String.toList_ofList]
          exact hbody.before rfl
    · exact readCode_spells h
  obtain ⟨ls, hgs, ht⟩ := hspell
  refine ⟨ls, hgs, ?_, ht⟩
  rintro rfl
  rw [hgs] at hlen
  exact Nat.lt_irrefl _ hlen

end Lexeme

end Lexis
