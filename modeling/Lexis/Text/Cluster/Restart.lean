import Lexis.Text.Cluster

/-!
# Cutting anew at a boundary

Whether a scalar joins the cluster before it may depend on the whole text on the left. It never
depends on what lies beyond a boundary (`joins_append`), so the clusters of the text that follows a
boundary are the same whether or not the text before it is known. A text can therefore be cut from
any boundary on (`clusters_of_suffix`), and two texts that meet in a boundary can be cut apart
(`clusters_append`). What is added to a text leaves all of its clusters but the last as they were
(`clusters_append_of_split`).

Three rules look further back than one scalar. Each passes marks of one sort to find a base; where
all that follows the boundary are such marks, the boundary itself shows that there is no base.
-/

namespace Lexis.Text

open BreakClass

/-! ## What a boundary says about its left -/

/-- There is a boundary before a mark only at the front of a text and after a control. -/
theorem isControl_of_boundary {b : List BreakClass} {first : BreakClass}
    (h : joins b first = false) (hf : first.attaches = true) :
    ∀ last ∈ b.head?, last.isControl = true := by
  intro last hl
  cases b with
  | nil => simp at hl
  | cons k b =>
    obtain rfl : k = last := by simpa using hl
    have hc : first.isControl = false := by revert hf; cases first <;> decide
    cases hk : k.isControl with
    | true => rfl
    | false => simp [joins, hk, hc, hf] at h

/-- There is a boundary before a regional indicator only where those before it are paired. -/
theorem flagOpen_of_boundary {b : List BreakClass} (h : joins b .regionalIndicator = false) :
    flagOpen b = false := by
  cases b with
  | nil => rfl
  | cons k b =>
    cases hk : k.isControl with
    | true =>
      have hne : (k == regionalIndicator) = false := by revert hk; cases k <;> decide
      simp [flagOpen, hne]
    | false =>
      have hc : BreakClass.regionalIndicator.isControl = false := rfl
      simp [joins, hk, hc] at h
      exact h.2

/-! ## Marks and their base -/

/-- Passing marks either passes everything or stops at a base. -/
theorem all_or_base (q : BreakClass → Bool) : ∀ p : List BreakClass,
    (∀ k ∈ p, q k = true) ∨
      ∃ marks base rest, p = marks ++ base :: rest ∧ (∀ k ∈ marks, q k = true) ∧ q base = false
  | [] => Or.inl (by simp)
  | k :: p => by
    cases hk : q k with
    | false => exact Or.inr ⟨[], k, p, rfl, by simp, hk⟩
    | true =>
      rcases all_or_base q p with hall | ⟨marks, base, rest, rfl, hm, hb⟩
      · exact Or.inl (by simpa [hk] using hall)
      · exact Or.inr ⟨k :: marks, base, rest, rfl, by simpa [hk] using hm, hb⟩

section

variable {q : BreakClass → Bool} {base : BreakClass} {p marks rest b : List BreakClass}

/-- Marks up to the base they stand on. -/
theorem takeWhile_base (hm : ∀ k ∈ marks, q k = true) (hb : q base = false) :
    (marks ++ base :: rest).takeWhile q = marks := by
  rw [List.takeWhile_append_of_pos hm, List.takeWhile_cons_of_neg (by simp [hb]), List.append_nil]

theorem dropWhile_base (hm : ∀ k ∈ marks, q k = true) (hb : q base = false) :
    (marks ++ base :: rest).dropWhile q = base :: rest := by
  rw [List.dropWhile_append_of_pos hm, List.dropWhile_cons_of_neg (by simp [hb])]

theorem takeWhile_all (h : ∀ k ∈ p, q k = true) : p.takeWhile q = p := by
  have ht : (p ++ []).takeWhile q = p ++ [].takeWhile q := List.takeWhile_append_of_pos h
  simpa using ht

theorem dropWhile_all (h : ∀ k ∈ p, q k = true) : p.dropWhile q = [] := by
  have hd : (p ++ []).dropWhile q = [].dropWhile q := List.dropWhile_append_of_pos h
  simpa using hd

/-- A control is neither a mark nor a base. -/
theorem head?_dropWhile_control (hb : ∀ last ∈ b.head?, last.isControl = true)
    (hq : ∀ k, k.isControl = true → q k = false) (hc : base.isControl = false) :
    ((b.dropWhile q).head? == some base) = false := by
  cases b with
  | nil => rfl
  | cons k b =>
    have hk := hb k rfl
    rw [List.dropWhile_cons_of_neg (by simp [hq k hk])]
    have hne : k ≠ base := by
      intro he
      rw [he, hc] at hk
      exact absurd hk (by decide)
    simpa using hne

end

/-! ## No rule looks beyond a boundary -/

section

variable {p b : List BreakClass}

/-- What stands behind a boundary does not count for a conjunct. -/
theorem conjunctOpen_append (hp : p ≠ []) (h : joins b (p.getLast hp) = false) :
    conjunctOpen (p ++ b) = conjunctOpen p := by
  rcases all_or_base inConjunct p with hall | ⟨marks, base, rest, rfl, hm, hb⟩
  · have hf := hall _ (List.getLast_mem hp)
    have hctl := isControl_of_boundary h (by revert hf; cases p.getLast hp <;> decide)
    have hnone : ((b.dropWhile inConjunct).head? == some consonant) = false :=
      head?_dropWhile_control hctl (fun k => by cases k <;> decide) rfl
    simp only [conjunctOpen, List.dropWhile_append_of_pos hall, dropWhile_all hall, hnone]
    simp
  · simp only [conjunctOpen, List.append_assoc, List.cons_append, takeWhile_base hm hb,
      dropWhile_base hm hb, List.head?_cons]

/-- What stands behind a boundary does not count for a row of pictographs. -/
theorem pictographOpen_append (hp : p ≠ []) (h : joins b (p.getLast hp) = false) :
    pictographOpen (p ++ b) = pictographOpen p := by
  cases p with
  | nil => exact absurd rfl hp
  | cons last p =>
    by_cases hl : last = joiner
    · subst hl
      simp only [List.cons_append, pictographOpen]
      rcases all_or_base isExtend p with hall | ⟨marks, base, rest, rfl, hm, hb⟩
      · have hf : ((joiner :: p).getLast hp).attaches = true := by
          rcases List.mem_cons.mp (List.getLast_mem hp) with he | hmem
          · rw [he]; rfl
          · simp [attaches, hall _ hmem]
        have hctl := isControl_of_boundary h hf
        have hnone : ((b.dropWhile isExtend).head? == some pictographic) = false :=
          head?_dropWhile_control hctl (fun k => by cases k <;> decide) rfl
        rw [List.dropWhile_append_of_pos hall, dropWhile_all hall, hnone]
        rfl
      · simp only [List.append_assoc, List.cons_append, dropWhile_base hm hb, List.head?_cons]
    · have hclosed : ∀ ks, pictographOpen (last :: ks) = false := by
        intro ks
        unfold pictographOpen
        split
        · next heq => exact absurd (List.cons.inj heq).1 hl
        · rfl
      rw [List.cons_append, hclosed, hclosed]

/-- What stands behind a boundary does not count for a flag. -/
theorem flagOpen_append (hp : p ≠ []) (h : joins b (p.getLast hp) = false) :
    flagOpen (p ++ b) = flagOpen p := by
  rcases all_or_base (· == regionalIndicator) p with hall | ⟨marks, base, rest, rfl, hm, hb⟩
  · have hf : p.getLast hp = regionalIndicator := by simpa using hall _ (List.getLast_mem hp)
    have heven := flagOpen_of_boundary (hf ▸ h)
    simp only [flagOpen, beq_eq_false_iff_ne] at heven ⊢
    rw [List.takeWhile_append_of_pos hall, takeWhile_all hall, List.length_append]
    congr 1
    omega
  · simp only [flagOpen, List.append_assoc, List.cons_append, takeWhile_base hm hb]

/-- **No rule looks beyond a boundary.** -/
theorem joins_append (hp : p ≠ []) (h : joins b (p.getLast hp) = false) (next : BreakClass) :
    joins (p ++ b) next = joins p next := by
  have hc := conjunctOpen_append hp h
  have hg := pictographOpen_append hp h
  have hr := flagOpen_append hp h
  cases p with
  | nil => exact absurd rfl hp
  | cons last p =>
    rw [List.cons_append] at hc hg hr ⊢
    simp only [joins, hc, hg, hr]

end

/-! ## Cutting the text after a boundary -/

/-- The context beyond a boundary may be forgotten. -/
theorem clustersAfter_append {b : List BreakClass} : ∀ (cs : List Char) (c : Char)
    (p : List BreakClass), joins b ((.ofChar c :: p).getLast (List.cons_ne_nil _ _)) = false →
    clustersAfter (p ++ b) (c :: cs) = clustersAfter p (c :: cs)
  | [], _, _, _ => rfl
  | d :: cs, c, p, h => by
    have ih := clustersAfter_append cs d (.ofChar c :: p) (by rwa [List.getLast_cons_cons])
    have hj := joins_append (List.cons_ne_nil (BreakClass.ofChar c) p) h (.ofChar d)
    rw [List.cons_append] at ih hj
    simp only [clustersAfter, hj, ih]

/-- At a boundary nothing of what stood before matters. -/
theorem clustersAfter_of_boundary {b : List BreakClass} {c : Char} (cs : List Char)
    (h : joins b (.ofChar c) = false) : clustersAfter b (c :: cs) = clusters (c :: cs) :=
  clustersAfter_append cs c [] h

theorem clusters_of_clustersAfter {before : List BreakClass} {cs : List Char}
    {gs rest : List Cluster} (hne : gs ≠ []) (h : clustersAfter before cs = gs ++ rest) :
    clusters (Cluster.charsOf rest) = rest := by
  obtain ⟨g, gs, rfl⟩ := List.exists_cons_of_ne_nil hne
  fun_induction clustersAfter before cs generalizing g gs with
  | case1 => simp at h
  | case2 before c =>
    obtain ⟨_, hr⟩ := List.cons.inj h
    obtain ⟨_, rfl⟩ := List.append_eq_nil_iff.mp hr.symm
    rfl
  | case3 before c d cs here _ ih =>
    -- the scalar joins the first cluster, which is passed in any case
    cases hk : clustersAfter here (d :: cs) with
    | nil =>
      rw [hk] at h
      obtain ⟨_, hr⟩ := List.cons.inj h
      obtain ⟨_, rfl⟩ := List.append_eq_nil_iff.mp hr.symm
      rfl
    | cons k ks =>
      rw [hk] at h
      obtain ⟨_, hr⟩ := List.cons.inj h
      exact ih k gs (List.cons_ne_nil _ _) (by rw [hk, hr]; rfl)
  | case4 before c d cs here hj ih =>
    obtain ⟨_, hr⟩ := List.cons.inj h
    cases gs with
    | nil =>
      -- the rest starts at this boundary
      have hcut := clustersAfter_of_boundary cs (by simpa using hj : joins here (.ofChar d) = false)
      have hr : clustersAfter here (d :: cs) = rest := hr
      rw [← hr, charsOf_clustersAfter, hcut]
    | cons g' gs => exact ih g' gs (List.cons_ne_nil _ _) hr

/-- **The clusters at the end of a text are those of the text they make up.** -/
theorem clusters_of_suffix {cs : List Char} {rest : List Cluster} (h : rest <:+ clusters cs) :
    clusters (Cluster.charsOf rest) = rest := by
  obtain ⟨gs, hg⟩ := h
  cases gs with
  | nil => rw [← List.nil_append rest, hg, chars_clusters]
  | cons g gs => exact clusters_of_clustersAfter (List.cons_ne_nil g gs) hg.symm

/-! ## Texts that meet in a boundary -/

/-- A character is attached to the first cluster only. -/
theorem attach_append {c : Char} {gs : List Cluster} (hne : gs ≠ []) (hs : List Cluster) :
    attach c (gs ++ hs) = attach c gs ++ hs := by
  cases gs with
  | nil => exact absurd rfl hne
  | cons g gs => rfl

theorem clustersAfter_ne_nil (before : List BreakClass) (c : Char) (cs : List Char) :
    clustersAfter before (c :: cs) ≠ [] := by
  intro h
  have hc := charsOf_clustersAfter before (c :: cs)
  rw [h] at hc
  exact List.cons_ne_nil c cs hc.symm

theorem clustersAfter_append_text (d : Char) (ds : List Char) : ∀ (c : Char) (cs : List Char)
    (before : List BreakClass),
    joins (((c :: cs).map BreakClass.ofChar).reverse ++ before) (.ofChar d) = false →
    clustersAfter before (c :: cs ++ d :: ds) = clustersAfter before (c :: cs) ++ clusters (d :: ds)
  | c, [], before, h => by
    have h : joins (.ofChar c :: before) (.ofChar d) = false := h
    simp only [List.cons_append, List.nil_append, clustersAfter, h, clustersAfter_of_boundary ds h]
    rfl
  | c, c' :: cs, before, h => by
    have ih := clustersAfter_append_text d ds c' cs (.ofChar c :: before) (by simpa using h)
    rw [List.cons_append] at ih
    simp only [List.cons_append, clustersAfter, ih]
    split
    · exact attach_append (clustersAfter_ne_nil _ _ _) _
    · rfl

/-- Two texts that meet in a boundary are cut one by one. -/
theorem clusters_append {cs : List Char} {d : Char} (ds : List Char)
    (h : joins (cs.map BreakClass.ofChar).reverse (.ofChar d) = false) :
    clusters (cs ++ d :: ds) = clusters cs ++ clusters (d :: ds) := by
  cases cs with
  | nil => rfl
  | cons c cs => exact clustersAfter_append_text d ds c cs [] (by simpa using h)

/-! ## The front of a text -/

/-- Between two clusters of a text there is a boundary. -/
theorem boundary_of_clustersAfter {before : List BreakClass} {cs ds : List Char} {d : Char}
    {gs rest : List Cluster} (hne : gs ≠ []) (h : clustersAfter before cs = gs ++ rest)
    (hrest : Cluster.charsOf rest = d :: ds) :
    joins (((Cluster.charsOf gs).map BreakClass.ofChar).reverse ++ before) (.ofChar d) = false := by
  have hnil : rest ≠ [] := by
    rintro rfl
    exact List.cons_ne_nil d ds hrest.symm
  obtain ⟨g, gs, rfl⟩ := List.exists_cons_of_ne_nil hne
  fun_induction clustersAfter before cs generalizing g gs with
  | case1 => simp at h
  | case2 before c =>
    obtain ⟨-, hr⟩ := List.cons.inj h
    exact absurd (List.append_eq_nil_iff.mp hr.symm).2 hnil
  | case3 before c c' cs here _ ih =>
    -- the scalar joins the first cluster, which stays in front of the boundary
    cases hk : clustersAfter here (c' :: cs) with
    | nil => exact absurd hk (clustersAfter_ne_nil here c' cs)
    | cons k ks =>
      rw [hk] at h
      obtain ⟨rfl, hr⟩ := List.cons.inj h
      have hb := ih k gs (List.cons_ne_nil _ _) (by rw [hk, hr]; rfl)
      simpa [here] using hb
  | case4 before c c' cs here hj ih =>
    obtain ⟨rfl, hr⟩ := List.cons.inj h
    cases gs with
    | nil =>
      have hchars := charsOf_clustersAfter here (c' :: cs)
      rw [show clustersAfter here (c' :: cs) = rest from hr, hrest] at hchars
      obtain ⟨rfl, -⟩ := List.cons.inj hchars
      simpa [here, Cluster.ofChar] using hj
    | cons k gs =>
      have hb := ih k gs (List.cons_ne_nil _ _) hr
      simpa [here, Cluster.ofChar] using hb

section

variable {cs : List Char} {gs rest : List Cluster}

/-- Clusters that are left have a first character. -/
theorem exists_charsOf_eq_cons (h : clusters cs = gs ++ rest) (hne : rest ≠ []) :
    ∃ d ds, Cluster.charsOf rest = d :: ds := by
  obtain ⟨g, tail, rfl⟩ := List.exists_cons_of_ne_nil hne
  have hmem : g ∈ clusters cs := by
    rw [h]
    exact List.mem_append_right _ List.mem_cons_self
  have hg : g.chars ≠ [] := ne_nil_of_mem_clusters hmem
  exact List.exists_cons_of_ne_nil (List.append_ne_nil_of_left_ne_nil hg _)

theorem eq_charsOf_append (h : clusters cs = gs ++ rest) :
    cs = Cluster.charsOf gs ++ Cluster.charsOf rest := by
  rw [← Cluster.charsOf_append, ← h, chars_clusters]

/-- What follows the clusters `gs` in a text may be replaced by a text that begins alike. -/
theorem clusters_charsOf_append (h : clusters cs = gs ++ rest) {d : Char} {ds : List Char}
    (hrest : Cluster.charsOf rest = d :: ds) (more : List Char) :
    clusters (Cluster.charsOf gs ++ d :: more)
      = clusters (Cluster.charsOf gs) ++ clusters (d :: more) := by
  by_cases hgs : gs = []
  · rw [hgs]
    rfl
  · have hb := boundary_of_clustersAfter hgs h hrest
    rw [List.append_nil] at hb
    exact clusters_append more hb

/-- **The clusters at the front of a text are those of the text they make up.** -/
theorem clusters_of_front (h : gs <+: clusters cs) : clusters (Cluster.charsOf gs) = gs := by
  obtain ⟨rest, hsplit⟩ := h
  by_cases hrest : rest = []
  · rw [hrest, List.append_nil] at hsplit
    rw [hsplit, chars_clusters]
  · obtain ⟨d, ds, hchars⟩ := exists_charsOf_eq_cons hsplit.symm hrest
    have hcut := clusters_charsOf_append hsplit.symm hchars ds
    rw [← hchars, ← eq_charsOf_append hsplit.symm, ← hsplit,
      clusters_of_suffix ⟨gs, hsplit⟩] at hcut
    exact (List.append_cancel_right hcut).symm

/-- **What is added to a text changes none of its clusters but the last.** -/
theorem clusters_append_of_split (h : clusters cs = gs ++ rest) (hne : rest ≠ [])
    (more : List Char) :
    clusters (cs ++ more) = gs ++ clusters (Cluster.charsOf rest ++ more) := by
  obtain ⟨d, ds, hchars⟩ := exists_charsOf_eq_cons h hne
  have hcut := clusters_charsOf_append h hchars (ds ++ more)
  rw [clusters_of_front ⟨rest, h.symm⟩] at hcut
  rw [eq_charsOf_append h, hchars, List.append_assoc, List.cons_append]
  exact hcut

end

end Lexis.Text
