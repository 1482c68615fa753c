import Lexis.Proofs.Marks
import Lexis.Proofs.Numeral
import Lexis.Proofs.TemplateText

/-!
# What follows a token

Other clusters may follow a token and it is still the same, if they can replace those that followed
it (`Lexeme.read_of_replaces`). Quoted literals are the same whatever follows them. Template text
and comments, which separators do not end, ask for a bit more.
-/

namespace Lexis

/-! ## Numbers -/

namespace Number

/-- No separator is a digit. -/
theorem accepts_separators (radix : Radix) : ∀ k ∈ separators, radix.accepts k = false := by
  cases radix <;> decide

/-- The body of a number ends before these clusters. -/
def stops (radix : Radix) : List Cluster → Bool
  | [] => true
  | g :: rest =>
    if g.is '.' then Cluster.nextIs rest '.'
    else !(g.is 'e' && radix ≠ .hex) && !radix.accepts g

/-- Where the body of a number stops it has nothing to read. -/
theorem body_of_stops {radix : Radix} {gs : List Cluster} (met : Met) (h : stops radix gs = true) :
    body radix met gs = .ok (met, gs) := by
  cases gs with
  | nil => rw [body]
  | cons g rest =>
    rw [stops] at h
    rw [body]
    split at h
    · next hp => rw [if_pos hp, if_pos h]
    · next hp =>
      rw [Bool.and_eq_true_iff, Bool.not_eq_true', Bool.not_eq_true'] at h
      rw [if_neg hp, if_neg (Bool.eq_false_iff.mp h.1), if_neg (Bool.eq_false_iff.mp h.2)]

/-- What the body leaves stops it. -/
theorem stops_of_body {radix : Radix} {met met' : Met} {gs rest : List Cluster}
    (h : body radix met gs = .ok (met', rest)) : stops radix rest = true := by
  fun_induction body radix met gs with
  | case1 =>
    obtain ⟨-, rfl⟩ := Prod.mk.inj (Except.ok.inj h)
    rfl
  | case2 _ g tail hp hn =>
    obtain ⟨-, rfl⟩ := Prod.mk.inj (Except.ok.inj h)
    rw [stops, if_pos hp, hn]
  | case3 => simp at h
  | case4 => simp at h
  | case5 _ _ _ _ _ _ _ ih => exact ih h
  | case6 => simp at h
  | case7 => simp at h
  | case8 _ _ _ _ _ _ _ ih => exact ih h
  | case9 _ _ _ _ _ _ ih => exact ih h
  | case10 _ g tail hp he hd =>
    obtain ⟨-, rfl⟩ := Prod.mk.inj (Except.ok.inj h)
    rw [stops, if_neg hp, Bool.and_eq_true_iff, Bool.not_eq_true', Bool.not_eq_true']
    exact ⟨Bool.eq_false_iff.mpr he, Bool.eq_false_iff.mpr hd⟩

/-- A replacement stops a number that the replaced clusters stop. -/
theorem stops_of_replaces {radix : Radix} {after rest : List Cluster} (h : Replaces after rest)
    (hr : stops radix rest = true) : stops radix after = true := by
  cases after with
  | nil => rfl
  | cons g gs =>
    cases hg : g.separates with
    | true =>
      have hmem : g ∈ separators := List.contains_iff_mem.mp hg
      have hsep : ∀ k ∈ separators, k.is '.' = false ∧ k.is 'e' = false := by decide
      simp [stops, hsep g hmem, accepts_separators radix g hmem]
    | false =>
      obtain ⟨tail, rfl⟩ := h.head hg
      cases hp : g.is '.' with
      | false => simpa [stops, hp] using hr
      | true =>
        -- the point is followed by another one, which is seen too
        have hnext : Cluster.nextIs tail '.' = true := by simpa [stops, hp] using hr
        obtain ⟨tail, rfl⟩ := Cluster.eq_cons_of_nextIs hnext
        obtain rfl := Cluster.eq_ofChar_of_is hp
        obtain ⟨gs', rfl⟩ := h.pair
        rw [stops, if_pos hp]
        rfl

/-- A sign after the exponent letter is passed whatever follows the number. -/
theorem afterSign_of_replaces {after rest ls : List Cluster} (h : Replaces after rest)
    (hlen : rest.length ≤ (afterSign (ls ++ rest)).length) :
    ∃ ls', afterSign (ls ++ rest) = ls' ++ rest ∧ afterSign (ls ++ after) = ls' ++ after := by
  cases ls with
  | cons g ls =>
    simp only [List.cons_append, afterSign]
    split
    · exact ⟨ls, rfl, rfl⟩
    · exact ⟨g :: ls, rfl, rfl⟩
  | nil =>
    have hrest : rest.head?.any (fun g => g.is '+' || g.is '-') = false := by
      cases rest with
      | nil => rfl
      | cons g rest =>
        simp only [List.nil_append, afterSign] at hlen
        split at hlen
        · simp only [List.length_cons] at hlen
          omega
        · next hs => simpa using hs
    have hself : ∀ gs : List Cluster, gs.head?.any (fun g => g.is '+' || g.is '-') = false →
        afterSign gs = gs := by
      intro gs hgs
      cases gs with
      | nil => rfl
      | cons g gs =>
        have hg : (g.is '+' || g.is '-') = false := hgs
        rw [afterSign, if_neg (by simp [hg])]
    exact ⟨[], hself rest hrest, hself after (h.stops (by decide) hrest)⟩

/-- What follows the body of a number may be replaced. -/
theorem body_of_replaces {radix : Radix} {met met' : Met} {after rest ls : List Cluster}
    (hr : Replaces after rest) (h : body radix met (ls ++ rest) = .ok (met', rest)) :
    body radix met (ls ++ after) = .ok (met', after) := by
  have hstop := stops_of_replaces hr (stops_of_body h)
  -- the clusters of the number shrink along the recursion, those behind it stay
  generalize hgs : ls ++ rest = gs at h
  have hend : gs = rest → ls = [] := fun he => List.append_left_eq_self.mp (hgs.trans he)
  fun_induction body radix met gs generalizing ls with
  | case1 =>
    obtain ⟨rfl, hrest⟩ := Prod.mk.inj (Except.ok.inj h)
    rw [hend hrest]
    exact body_of_stops _ hstop
  | case2 =>
    obtain ⟨rfl, hrest⟩ := Prod.mk.inj (Except.ok.inj h)
    rw [hend hrest]
    exact body_of_stops _ hstop
  | case3 => simp at h
  | case4 => simp at h
  | case5 met g tail hp hn hm he ih =>
    obtain ⟨ls, rfl, rfl⟩ := cons_of_append hgs.symm (length_of_body h)
    have hn' : Cluster.nextIs (ls ++ after) '.' = false :=
      hr.nextIs (by decide) (by simpa using hn)
    rw [List.cons_append, body, if_pos hp, if_neg (by simp [hn']), if_neg hm, if_neg he]
    exact ih rfl h fun hs => List.append_left_eq_self.mp hs
  | case6 => simp at h
  | case7 => simp at h
  | case8 met g tail hp he hm hx ih =>
    have hlen := length_of_body h
    obtain ⟨ls, rfl, rfl⟩ := cons_of_append hgs.symm (Nat.le_trans hlen (length_afterSign tail))
    obtain ⟨ls', hsign, hsign'⟩ := afterSign_of_replaces hr hlen
    rw [List.cons_append, body, if_neg hp, if_pos he, if_neg hm, if_neg hx, hsign']
    exact ih hsign.symm h fun hs => List.append_left_eq_self.mp (hsign.symm.trans hs)
  | case9 met g tail hp he hd ih =>
    obtain ⟨ls, rfl, rfl⟩ := cons_of_append hgs.symm (length_of_body h)
    rw [List.cons_append, body, if_neg hp, if_neg he, if_pos hd]
    exact ih rfl h fun hs => List.append_left_eq_self.mp hs
  | case10 =>
    obtain ⟨rfl, hrest⟩ := Prod.mk.inj (Except.ok.inj h)
    rw [hend hrest]
    exact body_of_stops _ hstop

section

variable {after rest ls : List Cluster} {form : NumberForm} {text : String}

/-- What follows a number behind its head may be replaced. -/
theorem afterHead_of_replaces {radix : Radix} {integer : NumberForm} {head : List Char}
    (hr : Replaces after rest) (h : afterHead radix integer head (ls ++ rest) = .ok ⟨form, text, rest⟩) :
    afterHead radix integer head (ls ++ after) = .ok ⟨form, text, after⟩ := by
  obtain ⟨met, hb, hsettles, ht⟩ := afterHead_ok_iff.mp h
  rw [upTo_append] at ht
  refine afterHead_ok_iff.mpr ⟨met, body_of_replaces hr hb, hsettles, ?_⟩
  rw [upTo_append, ht]

theorem suffix_of_afterHead {radix : Radix} {integer : NumberForm} {head : List Char}
    {gs : List Cluster} {found : Found} (h : afterHead radix integer head gs = .ok found) :
    found.rest <:+ gs := by
  have hs := suffix_afterHead radix integer head gs
  rwa [h] at hs

/-- What follows a number with a leading zero may be replaced. -/
theorem afterZero_of_replaces (hr : Replaces after rest)
    (h : afterZero (ls ++ rest) = .ok ⟨form, text, rest⟩) :
    afterZero (ls ++ after) = .ok ⟨form, text, after⟩ := by
  rw [afterZero_ok_iff] at h ⊢
  rcases h with ⟨marker, radix, tail, hsplit, hm, h⟩ | ⟨n, left, hsplit, hstop, hlone, hm, h⟩
  · obtain ⟨ls', rfl⟩ := suffix_of_afterHead h
    rw [← List.cons_append] at hsplit
    obtain rfl := List.append_cancel_right hsplit
    exact .inl ⟨marker, radix, ls' ++ after, rfl, hm, afterHead_of_replaces hr h⟩
  · -- the clusters after the zeros are some of the number's, and what follows it
    obtain ⟨ls', rfl⟩ := suffix_of_afterHead h
    rw [← List.append_assoc] at hsplit
    obtain rfl := List.append_cancel_right hsplit
    refine .inr ⟨n, ls' ++ after, List.append_assoc .., hr.stops_append (by decide) hstop, ?_,
      hr.stops_append (by decide) hm, afterHead_of_replaces hr h⟩
    intro hn
    have hrejects := hlone hn
    exact hr.stops_append (by decide) hrejects

theorem read_of_replaces {first : Cluster} (hr : Replaces after rest)
    (h : read first (ls ++ rest) = .ok ⟨form, text, rest⟩) :
    read first (ls ++ after) = .ok ⟨form, text, after⟩ := by
  unfold read at h ⊢
  split at h
  · next hz =>
    rw [if_pos hz]
    exact afterZero_of_replaces hr h
  · next hz =>
    rw [if_neg hz]
    exact afterHead_of_replaces hr h

end

end Number

/-! ## Text literals -/

namespace TextLiteral

/-- What closes a literal opens no interpolation. -/
theorem nextIs_of_closes {form : TextForm} {g : Cluster} {tail : List Cluster}
    (h : closes form g tail = true) : Cluster.nextIs (g :: tail) '{' = false := by
  have hne : ∀ c, c ≠ '{' → g.is c = true → Cluster.nextIs (g :: tail) '{' = false := by
    intro c hc hg
    obtain rfl := Cluster.eq_ofChar_of_is hg
    simpa [Cluster.nextIs] using hc
  cases form with
  | rune => exact hne '\'' (by decide) h
  | string => exact hne '"' (by decide) h
  | template =>
    rcases Bool.or_eq_true_iff.mp h with h | h
    · exact hne '`' (by decide) h
    · exact hne '$' (by decide) (Bool.and_eq_true_iff.mp h).1

/-- Content is the same before anything that closes it. -/
theorem content_of_closes {form : TextForm} {ls rest after : List Cluster} {cs : List Char}
    (h : content form (ls ++ rest) = .ok (cs, rest))
    (hend : ∃ g tail, after = g :: tail ∧ closes form g tail = true) :
    content form (ls ++ after) = .ok (cs, after) := by
  obtain ⟨body, hbody, hcontent, -⟩ := content_decodes h
  obtain rfl := List.append_cancel_right hbody
  refine content_of_content (hcontent.before ?_) hend
  obtain ⟨g, tail, rfl, hclose⟩ := hend
  exact nextIs_of_closes hclose

/-- A quoted literal is the same whatever follows it. -/
theorem quoted_append {form : TextForm} {ls rest : List Cluster} {text : String} {delimiter : Char}
    (hd : ∀ g tail, closes form g tail = g.is delimiter) (hne : delimiter ≠ '{')
    (h : quoted form (ls ++ rest) = .ok (text, rest)) (after : List Cluster) :
    quoted form (ls ++ after) = .ok (text, after) := by
  obtain ⟨body, hbody, hcontent⟩ := quoted_decodes hd hne h
  obtain rfl : ls = body ++ [.ofChar delimiter] := by
    rw [List.append_cons] at hbody
    exact List.append_cancel_right hbody
  have hclose : closes form (.ofChar delimiter) after = true := by
    rw [hd, Cluster.is_ofChar, beq_self_eq_true]
  have hread := content_of_content (hcontent.before (nextIs_of_closes hclose)) ⟨_, _, rfl, hclose⟩
  rw [List.append_assoc, List.singleton_append, quoted, hread]
  show Except.ok (String.ofList text.toList, after) = _
  rw [String.ofList_toList]

end TextLiteral

/-! ## Lexemes -/

namespace Punctuator

/-- No mark is longer than three clusters. -/
theorem length_le_three (p : Punctuator) : p.clusters.length ≤ 3 := by
  cases p <;> decide

theorem length_clusters_pos (p : Punctuator) : 0 < p.clusters.length := by
  cases p <;> decide

theorem separates_clusters (p : Punctuator) : ∀ g ∈ p.clusters, g.separates = false := by
  cases p <;> decide

/-- A longer mark would be seen past the end of this one. -/
theorem ahead?_of_replaces {p : Punctuator} {after rest : List Cluster} (hr : Replaces after rest)
    (h : ahead? (p.clusters ++ rest) = some p) : ahead? (p.clusters ++ after) = some p := by
  have hspells : p.SpelledBy (p.clusters ++ after) := ⟨after, rfl⟩
  obtain ⟨q, hq, hle⟩ := exists_of_spelledBy hspells
  obtain ⟨more, hmore⟩ : p.clusters <+: q.clusters := by
    refine List.prefix_of_prefix_length_le ⟨after, rfl⟩ (ahead?_spells hq) ?_
    rwa [length_clusters, length_clusters]
  cases more with
  | nil =>
    rw [List.append_nil] at hmore
    have hpq := ahead?_clusters p
    rw [hmore, ahead?_clusters q] at hpq
    rw [hq, hpq]
  | cons g more =>
    exfalso
    -- at most two clusters of the longer mark lie behind this one
    have hlen : (g :: more).length ≤ 2 := by
      have h₁ := q.length_le_three
      have h₂ := p.length_clusters_pos
      rw [← hmore, List.length_append] at h₁
      omega
    have hsep : ∀ k ∈ g :: more, k.separates = false := by
      intro k hk
      refine q.separates_clusters k ?_
      rw [← hmore]
      exact List.mem_append_right _ hk
    have hafter : g :: more <+: after := by
      have hq' := ahead?_spells hq
      rw [SpelledBy, ← hmore] at hq'
      exact (List.prefix_append_right_inj _).mp hq'
    have hrest : g :: more <+: rest :=
      ((prefix_sight hafter hlen hsep).trans hr.seen).trans (sight_prefix_self rest)
    have hspelled : q.SpelledBy (p.clusters ++ rest) := by
      rw [SpelledBy, ← hmore]
      exact (List.prefix_append_right_inj _).mpr hrest
    obtain ⟨p', hp', hle'⟩ := exists_of_spelledBy hspelled
    obtain rfl := Option.some.inj (h.symm.trans hp')
    rw [← length_clusters, ← length_clusters, ← hmore, List.length_append, List.length_cons] at hle'
    omega

end Punctuator

namespace Opening

/-- Openings that the first cluster shows, once the longer ones are ruled out. -/
def isShort : Opening → Bool
  | .comment | .mark _ | .interpolation => false
  | _ => true

/-- Two clusters that begin nothing together do not when the second is replaced. -/
theorem pair_of_replaces {after rest ls : List Cluster} {g : Cluster} {c d : Char}
    (hd : ∀ k ∈ separators, k.is d = false) (hr : Replaces after rest)
    (h : (g.is c && Cluster.nextIs (ls ++ rest) d) = false) :
    (g.is c && Cluster.nextIs (ls ++ after) d) = false := by
  cases hg : g.is c with
  | false => rfl
  | true =>
    have hnext : Cluster.nextIs (ls ++ rest) d = false := by simpa [hg] using h
    rw [hr.nextIs hd hnext]
    rfl

/--
What a cluster begins does not depend on what replaces the clusters behind its token.

Comments and interpolations, which begin with two clusters, are left to the caller.
-/
theorem of_of_replaces {after rest : List Cluster} (g : Cluster) (ls : List Cluster)
    (hr : Replaces after rest)
    (hcomment : of g (ls ++ rest) ≠ .comment) (hopen : of g (ls ++ rest) ≠ .interpolation)
    (hmark : ∀ p, of g (ls ++ rest) = .mark p → Punctuator.ahead? (g :: (ls ++ after)) = some p) :
    of g (ls ++ after) = of g (ls ++ rest) := by
  have hslash : (g.is '/' && Cluster.nextIs (ls ++ rest) '/') = false :=
    Bool.eq_false_iff.mpr fun h => hcomment (of_comment h)
  have hdollar : (g.is '$' && Cluster.nextIs (ls ++ rest) '{') = false :=
    Bool.eq_false_iff.mpr fun h => hopen (of_interpolation h)
  have hslash' := pair_of_replaces (by decide) hr hslash
  have hdollar' := pair_of_replaces (by decide) hr hdollar
  unfold of at hmark ⊢
  rw [hslash, hdollar] at hmark ⊢
  rw [hslash', hdollar']
  cases hline : g.isLineBreak with
  | true => rfl
  | false =>
    simp only [hline, Bool.false_eq_true, if_false] at hmark ⊢
    cases hp : Punctuator.ahead? (g :: (ls ++ rest)) with
    | some p =>
      rw [hmark p (by rw [hp])]
    | none =>
      have hsome := Punctuator.ahead?_isSome g (ls ++ after) (ls ++ rest)
      rw [hp, Option.isSome_none, Option.isSome_eq_false_iff, Option.isNone_iff_eq_none] at hsome
      rw [hsome]

/-- An opening that is settled by two clusters is the same in front of a replacement. -/
theorem of_of_isShort {after rest : List Cluster} (g : Cluster) (ls : List Cluster)
    (hr : Replaces after rest) (h : (of g (ls ++ rest)).isShort = true) :
    of g (ls ++ after) = of g (ls ++ rest) := by
  refine of_of_replaces g ls hr ?_ ?_ ?_
  · intro hcomment
    rw [hcomment] at h
    exact absurd h Bool.false_ne_true
  · intro hopen
    rw [hopen] at h
    exact absurd h Bool.false_ne_true
  · intro p hp
    rw [hp] at h
    exact absurd h Bool.false_ne_true

/-- A mark is the opening as long as it is ahead. -/
theorem of_of_mark {after rest : List Cluster} (g : Cluster) (ls : List Cluster)
    (hr : Replaces after rest) (p : Punctuator) (h : of g (ls ++ rest) = .mark p)
    (hp : Punctuator.ahead? (g :: (ls ++ after)) = some p) : of g (ls ++ after) = .mark p := by
  have hsame : of g (ls ++ after) = of g (ls ++ rest) := by
    refine of_of_replaces g ls hr ?_ ?_ ?_
    · rw [h]
      simp
    · rw [h]
      simp
    · intro q hq
      rw [hp, Opening.mark.inj (h.symm.trans hq)]
  rw [hsame, h]

end Opening

namespace Lexeme

variable {after rest : List Cluster} {kind : TokenKind} {text : String}

/-- A comment ends with its line, so only the end of the line must stay. -/
theorem comment_of_endsLine {ls : List Cluster} (h : comment (ls ++ rest) = ⟨kind, text, rest⟩)
    (hend : EndsLine after) : comment (ls ++ after) = ⟨kind, text, after⟩ := by
  obtain ⟨rfl, rfl, hdrop⟩ := Lexeme.mk.inj h
  have hsplit := List.takeWhile_append_dropWhile (p := (!·.isLineBreak)) (l := ls ++ rest)
  have hall : ∀ g ∈ (ls ++ rest).takeWhile (!·.isLineBreak), (!g.isLineBreak) = true :=
    List.all_eq_true.mp List.all_takeWhile
  rw [hdrop] at hsplit
  obtain htake := List.append_cancel_right hsplit
  rw [htake] at hall ⊢
  obtain ⟨htake', hdrop'⟩ := span_append hall hend
  rw [comment, htake', hdrop']

/-- A word is followed by what is no part of it, and so is it by a replacement. -/
theorem identifier_of_replaces {ls : List Cluster} (hr : Replaces after rest)
    (h : identifier (ls ++ rest) = ⟨kind, text, rest⟩) :
    identifier (ls ++ after) = ⟨kind, text, after⟩ := by
  obtain ⟨rfl, rfl, hdrop⟩ := Lexeme.mk.inj h
  obtain ⟨htake, hdrop'⟩ := hr.span (q := (·.isIdentifierPart)) (by decide) hdrop
  simp only [identifier, htake, hdrop']

/-- The mark that is ahead is still the longest one. -/
theorem punctuation_of_replaces {p : Punctuator} {ls : List Cluster} (hr : Replaces after rest)
    (hp : Punctuator.ahead? (ls ++ rest) = some p)
    (h : punctuation p (ls ++ rest) = ⟨kind, text, rest⟩) :
    Punctuator.ahead? (ls ++ after) = some p ∧
      punctuation p (ls ++ after) = ⟨kind, text, after⟩ := by
  obtain ⟨rfl, rfl, hdrop⟩ := Lexeme.mk.inj h
  obtain ⟨tail, htail⟩ := Punctuator.ahead?_spells hp
  rw [← htail, List.drop_left' p.length_clusters] at hdrop
  subst hdrop
  obtain rfl := List.append_cancel_right htail
  refine ⟨Punctuator.ahead?_of_replaces hr hp, ?_⟩
  rw [punctuation, List.drop_left' p.length_clusters]

theorem quoted_append {k : TokenKind} {form : TextForm} {ls : List Cluster} {delimiter : Char}
    (hd : ∀ g tail, TextLiteral.closes form g tail = g.is delimiter) (hne : delimiter ≠ '{')
    (h : quoted k form (ls ++ rest) = .ok ⟨kind, text, rest⟩) (after : List Cluster) :
    quoted k form (ls ++ after) = .ok ⟨kind, text, after⟩ := by
  unfold quoted at h
  split at h
  · simp at h
  · next hq =>
    obtain ⟨rfl, rfl, rfl⟩ := Lexeme.mk.inj (Except.ok.inj h)
    rw [quoted, TextLiteral.quoted_append hd hne hq after]

/-- A number is the same token in front of a replacement. -/
theorem number_of_replaces {first : Cluster} {ls : List Cluster} (hr : Replaces after rest)
    (h : number first (ls ++ rest) = .ok ⟨kind, text, rest⟩) :
    number first (ls ++ after) = .ok ⟨kind, text, after⟩ := by
  unfold number at h
  split at h
  · simp at h
  · next found hq =>
    obtain ⟨form, text, left⟩ := found
    obtain ⟨rfl, rfl, rfl⟩ := Lexeme.mk.inj (Except.ok.inj h)
    rw [number, Number.read_of_replaces hr hq]

theorem endsLine_of_comment {ls : List Cluster} (h : comment (ls ++ rest) = ⟨kind, text, rest⟩) :
    EndsLine rest := by
  have hstop := stops_dropWhile (q := (!·.isLineBreak)) (ls ++ rest)
  rwa [show (ls ++ rest).dropWhile (!·.isLineBreak) = rest from (Lexeme.mk.inj h).2.2] at hstop

/-- The second slash belongs to its comment. -/
theorem nextIs_of_endsLine {ls : List Cluster} (hend : EndsLine rest)
    (h : Cluster.nextIs (ls ++ rest) '/' = true) : Cluster.nextIs (ls ++ after) '/' = true := by
  cases ls with
  | nil =>
    obtain ⟨tail, rfl⟩ := Cluster.eq_cons_of_nextIs h
    have hslash : (Cluster.ofChar '/').isLineBreak = false := by decide
    simp [EndsLine, hslash] at hend
  | cons k ls => exact h

/-- The brace belongs to the mark of its interpolation. -/
theorem eq_brace_of_nextIs {ls : List Cluster} (h : Cluster.nextIs (ls ++ rest) '{' = true)
    (hrest : (ls ++ rest).drop 1 = rest) : ls = [.ofChar '{'] := by
  obtain ⟨tail, htail⟩ := Cluster.eq_cons_of_nextIs h
  rw [htail, List.drop_succ_cons, List.drop_zero] at hrest
  rw [hrest] at htail
  exact List.append_cancel_right htail

/-- A token in code stays, if a comment still ends where it did. -/
theorem readCode_of_replaces {place : Place} {ls : List Cluster} (hr : Replaces after rest)
    (hcomment : kind = .lineComment → EndsLine rest → EndsLine after)
    (h : readCode place (ls ++ rest) = .ok ⟨kind, text, rest⟩) :
    readCode place (ls ++ after) = .ok ⟨kind, text, after⟩ := by
  obtain ⟨g, ls, rfl⟩ : ∃ g ls', ls = g :: ls' := by
    refine List.exists_cons_of_ne_nil ?_
    rintro rfl
    have hlen := length_of_readCode h
    exact Nat.lt_irrefl _ hlen
  -- the opening is settled in front of the replacement, by two clusters or by the mark found
  have hfits := Opening.fits g (ls ++ rest)
  have hshort := Opening.of_of_isShort g ls hr
  have hmarked := Opening.of_of_mark g ls hr
  rw [List.cons_append, readCode] at h
  rw [List.cons_append, readCode]
  generalize Opening.of g (ls ++ rest) = opening at h hfits hshort hmarked
  cases opening with
  | lineBreak =>
    obtain ⟨rfl, rfl, hrest⟩ := Lexeme.mk.inj (Except.ok.inj h)
    obtain rfl := List.append_left_eq_self.mp hrest
    rw [hshort rfl]
    rfl
  | comment =>
    obtain ⟨hg, hnext⟩ := hfits
    have hread : comment (g :: ls ++ rest) = ⟨kind, text, rest⟩ := Except.ok.inj h
    have hend := endsLine_of_comment hread
    -- the second slash is part of the comment, as a line does not end at it
    have hnext' : Cluster.nextIs (ls ++ after) '/' = true := nextIs_of_endsLine hend hnext
    rw [Opening.of_comment (by rw [hg, hnext']; rfl)]
    have hkind : kind = .lineComment := (Lexeme.mk.inj hread).1.symm
    exact congrArg Except.ok (comment_of_endsLine hread (hcomment hkind hend))
  | mark p =>
    have hmark : Punctuator.ahead? (g :: ls ++ rest) = some p := hfits
    obtain ⟨hmark', hread⟩ := punctuation_of_replaces hr hmark (Except.ok.inj h)
    rw [List.cons_append] at hmark' hread
    rw [hmarked p rfl hmark']
    exact congrArg Except.ok hread
  | templateQuote =>
    obtain ⟨rfl, rfl, hrest⟩ := Lexeme.mk.inj (Except.ok.inj h)
    obtain rfl := List.append_left_eq_self.mp hrest
    rw [hshort rfl]
    rfl
  | interpolation =>
    obtain ⟨hg, hnext⟩ := hfits
    obtain ⟨rfl, rfl, hrest⟩ := Lexeme.mk.inj (Except.ok.inj h)
    obtain rfl := eq_brace_of_nextIs hnext hrest
    rw [Opening.of_interpolation (by rw [hg]; rfl)]
    rfl
  | rune =>
    rw [hshort rfl]
    exact quoted_append (fun _ _ => rfl) (by decide) h after
  | string =>
    rw [hshort rfl]
    exact quoted_append (fun _ _ => rfl) (by decide) h after
  | number =>
    rw [hshort rfl]
    exact number_of_replaces hr h
  | word =>
    have hread : identifier (g :: ls ++ rest) = ⟨kind, text, rest⟩ := Except.ok.inj h
    have hread' := identifier_of_replaces hr hread
    rw [List.cons_append] at hread'
    rw [hshort rfl]
    exact congrArg Except.ok hread'
  | stray => simp at h

/-- What looks like the end of template text is one. -/
theorem endsText_of_sight (h : EndsText rest) (hs : sight after = sight rest) : EndsText after := by
  obtain ⟨g, tail, rfl, hclose⟩ := h
  have hg : g.separates = false := by
    rcases Bool.or_eq_true_iff.mp hclose with hg | hg
    · exact separates_eq_false (q := (·.is '`')) (by decide) hg
    · exact separates_eq_false (q := (·.is '$')) (by decide) (Bool.and_eq_true_iff.mp hg).1
  rcases Bool.or_eq_true_iff.mp hclose with hquote | hopen
  · obtain ⟨tail', rfl⟩ := (Replaces.of_sight hs.symm).head hg
    exact ⟨g, tail', rfl, Bool.or_eq_true_iff.mpr (.inl hquote)⟩
  · obtain ⟨hdollar, hbrace⟩ := Bool.and_eq_true_iff.mp hopen
    obtain ⟨tail, rfl⟩ := Cluster.eq_cons_of_nextIs hbrace
    rw [sight_pair hg (by decide)] at hs
    obtain ⟨tail', rfl⟩ := eq_cons_of_sight_pair hs
    exact ⟨g, _, rfl, Bool.or_eq_true_iff.mpr (.inr (Bool.and_eq_true_iff.mpr ⟨hdollar, rfl⟩))⟩

/--
**A token stays the same when what follows it is replaced.**

A comment and a fragment of template text still have to end there.
-/
theorem read_of_replaces {place : Place} {ls : List Cluster} (hr : Replaces after rest)
    (hne : ∀ g ∈ ls ++ rest, g.chars ≠ [])
    (hcomment : kind = .lineComment → EndsLine rest → EndsLine after)
    (hfragment : kind = .templateFragment → EndsText rest → EndsText after)
    (h : read place (ls ++ rest) = .ok ⟨kind, text, rest⟩) :
    read place (ls ++ after) = .ok ⟨kind, text, after⟩ := by
  cases place with
  | code => exact readCode_of_replaces hr hcomment h
  | interpolation => exact readCode_of_replaces hr hcomment h
  | templateText =>
    unfold read TextLiteral.fragment at h ⊢
    simp only at h ⊢
    cases hc : TextLiteral.content .template (ls ++ rest) with
    | error fault => simp [hc] at h
    | ok found =>
      obtain ⟨cs, left⟩ := found
      obtain ⟨_, _, _, hend⟩ := TextLiteral.content_decodes hc
      simp only [hc] at h
      split at h
      · next hempty =>
        -- the same mark ends the text
        obtain rfl := List.isEmpty_iff.mp hempty
        obtain rfl := TextLiteral.eq_of_content_nil hc hne
        obtain ⟨_, mark, tail, hsplit, hread, -, hmark⟩ := readCode_of_endsText hend .templateText
        obtain ⟨-, -, rfl⟩ := Lexeme.mk.inj (Except.ok.inj (h.symm.trans hread))
        obtain rfl := List.append_cancel_right hsplit
        rw [TextLiteral.content_of_endsText (hmark after)]
        exact readCode_of_replaces hr hcomment h
      · next hempty =>
        obtain ⟨rfl, rfl, rfl⟩ := Lexeme.mk.inj (Except.ok.inj h)
        rw [TextLiteral.content_of_closes hc (hfragment rfl hend)]
        simp only [if_neg hempty]

end Lexeme

end Lexis
