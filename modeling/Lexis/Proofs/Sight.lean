import Lexis.Alphabet

/-!
# What can be seen behind a token

A reader looks past the token it reads, but not far: at two clusters at most, and at none from a
separator on (`sight`). Clusters can be replaced behind a token by others that look alike in this way,
or that hide some of what was seen, as a separator does (`Replaces`); only two points in a row, which
numbers stop before, have to be hidden both or not at all. What a reader asks about the clusters
behind a token then has the same answer (`Replaces.stops`, `Replaces.nextIs`, `Replaces.span`).
-/

namespace Lexis

/-- The clusters that separate tokens: blanks and line breaks. -/
def separators : List Cluster :=
  [.ofChar ' ', .ofChar '\t', .ofChar '\r', .ofChar '\n', ⟨['\r', '\n']⟩]

def Cluster.separates (g : Cluster) : Bool := separators.contains g

theorem Cluster.separates_of_isLineBreak {g : Cluster} (h : g.isLineBreak = true) :
    g.separates = true := by
  obtain ⟨cs⟩ := g
  rcases Bool.or_eq_true_iff.mp h with hcs | hcs
  · obtain rfl : cs = ['\n'] := by simpa using hcs
    decide
  · obtain rfl : cs = ['\r', '\n'] := by simpa using hcs
    decide

/-- What a reader can tell of the clusters behind a token. -/
def sight (gs : List Cluster) : List Cluster := (gs.take 2).takeWhile (!·.separates)

/-- A token that ends before `rest` also ends before `after`, where no more is seen. -/
structure Replaces (after rest : List Cluster) : Prop where
  seen : sight after <+: sight rest
  points : sight after = [.ofChar '.'] → sight rest ≠ [.ofChar '.', .ofChar '.']

/-- A comment ends before these clusters. -/
def EndsLine (gs : List Cluster) : Prop := gs.head?.any (!·.isLineBreak) = false

/-! ## Looking at the next clusters -/

section

variable {after rest : List Cluster}

/-- A cluster that does not separate is seen, and one more behind it. -/
theorem sight_cons {g : Cluster} (h : g.separates = false) (gs : List Cluster) :
    sight (g :: gs) = g :: (gs.take 1).takeWhile (!·.separates) := by
  simp [sight, h]

theorem sight_eq_nil_of_separates {g : Cluster} (h : g.separates = true) (gs : List Cluster) :
    sight (g :: gs) = [] := by
  simp [sight, h]

/-- What is seen stands in front. -/
theorem sight_prefix_self (gs : List Cluster) : sight gs <+: gs :=
  (List.takeWhile_prefix _).trans (List.take_prefix 2 gs)

/-- Up to two clusters that are no separators are seen. -/
theorem prefix_sight {ks gs : List Cluster} (h : ks <+: gs) (hlen : ks.length ≤ 2)
    (hsep : ∀ k ∈ ks, k.separates = false) : ks <+: sight gs := by
  obtain ⟨tail, rfl⟩ := h
  rw [sight, List.take_append, List.take_of_length_le hlen,
    List.takeWhile_append_of_pos fun k hk => by simp [hsep k hk]]
  exact List.prefix_append _ _

/-- Clusters that look alike replace each other. -/
theorem Replaces.of_sight (h : sight after = sight rest) : Replaces after rest where
  seen := h ▸ List.prefix_refl _
  points hafter hrest := by
    rw [hafter, hrest] at h
    exact absurd h (by decide)

/-- Clusters of which nothing is seen replace all others. -/
theorem Replaces.of_nil (h : sight after = []) (rest : List Cluster) : Replaces after rest where
  seen := by
    rw [h]
    exact List.nil_prefix
  points hafter := absurd (h.symm.trans hafter) (List.cons_ne_nil _ _).symm

/-- What replaces clusters begins as they do, unless it begins with a separator. -/
theorem Replaces.head {g : Cluster} {gs : List Cluster} (h : Replaces (g :: gs) rest)
    (hg : g.separates = false) : ∃ tail, rest = g :: tail := by
  have hseen := h.seen.trans (sight_prefix_self rest)
  rw [sight_cons hg] at hseen
  obtain ⟨tail, rfl⟩ := hseen
  exact ⟨_, List.cons_append⟩

variable {q : Cluster → Bool}

/-- What is of a class without separators does not separate. -/
theorem separates_eq_false (hq : ∀ k ∈ separators, q k = false) {g : Cluster} (h : q g = true) :
    g.separates = false := by
  cases hg : g.separates with
  | false => rfl
  | true => exact absurd h (by simp [hq g (List.contains_iff_mem.mp hg)])

/-- What is no separator and does not follow does not follow then either. -/
theorem Replaces.stops (hq : ∀ k ∈ separators, q k = false) (h : Replaces after rest)
    (hr : rest.head?.any q = false) : after.head?.any q = false := by
  cases after with
  | nil => rfl
  | cons g gs =>
    cases hg : q g with
    | false => simpa using hg
    | true =>
      obtain ⟨tail, rfl⟩ := h.head (separates_eq_false hq hg)
      simp [hg] at hr

theorem Replaces.stops_append (hq : ∀ k ∈ separators, q k = false) (h : Replaces after rest)
    {ls : List Cluster} (hr : (ls ++ rest).head?.any q = false) :
    (ls ++ after).head?.any q = false := by
  cases ls with
  | nil => exact h.stops hq hr
  | cons g ls => exact hr

/-- A character that does not come next does not come next in a replacement. -/
theorem Replaces.nextIs {c : Char} (hc : ∀ k ∈ separators, k.is c = false)
    (h : Replaces after rest) {ls : List Cluster} (hr : Cluster.nextIs (ls ++ rest) c = false) :
    Cluster.nextIs (ls ++ after) c = false :=
  h.stops_append hc hr

/-- Two clusters that are no separators are seen as they are. -/
theorem sight_pair {g k : Cluster} (hg : g.separates = false) (hk : k.separates = false)
    (tail : List Cluster) : sight (g :: k :: tail) = [g, k] := by
  rw [sight_cons hg]
  simp [hk]

theorem eq_cons_of_sight_pair {g k : Cluster} (h : sight rest = [g, k]) :
    ∃ tail, rest = g :: k :: tail := by
  obtain ⟨tail, htail⟩ := sight_prefix_self rest
  rw [h] at htail
  exact ⟨tail, htail.symm⟩

/-- Two points in a row are not parted. -/
theorem Replaces.pair {gs tail : List Cluster}
    (h : Replaces (.ofChar '.' :: gs) (.ofChar '.' :: .ofChar '.' :: tail)) :
    ∃ gs', gs = .ofChar '.' :: gs' := by
  have hpoint : (Cluster.ofChar '.').separates = false := by decide
  have hpair := sight_pair hpoint hpoint tail
  have hlone : sight (.ofChar '.' :: gs) ≠ [.ofChar '.'] := fun hs => h.points hs hpair
  have hseen := h.seen
  rw [hpair] at hseen
  rw [sight_cons hpoint] at hseen hlone
  -- more than the first point is seen, so both are
  obtain ⟨more, hmore⟩ := hseen
  obtain ⟨-, hmore⟩ := List.cons.inj hmore
  cases gs with
  | nil => exact absurd rfl hlone
  | cons k gs =>
    cases hk : k.separates with
    | true => exact absurd (by simp [hk]) hlone
    | false =>
      obtain ⟨rfl, -⟩ : k = .ofChar '.' ∧ more = [] := by simpa [hk] using hmore
      exact ⟨gs, rfl⟩

/-- A run of clusters of a kind ends where the next one is not of it. -/
theorem span_append {ls : List Cluster} (hls : ∀ g ∈ ls, q g = true)
    (hr : rest.head?.any q = false) :
    (ls ++ rest).takeWhile q = ls ∧ (ls ++ rest).dropWhile q = rest := by
  rw [List.takeWhile_append_of_pos hls, List.dropWhile_append_of_pos hls]
  cases rest with
  | nil => exact ⟨by simp, rfl⟩
  | cons g rest =>
    have hg : q g = false := by simpa using hr
    exact ⟨by simp [hg], by simp [hg]⟩

/-- What is left of a row is not of its class. -/
theorem stops_dropWhile (gs : List Cluster) : (gs.dropWhile q).head?.any q = false := by
  induction gs with
  | nil => rfl
  | cons g gs ih =>
    cases hg : q g with
    | true => rwa [List.dropWhile_cons_of_pos hg]
    | false =>
      rw [List.dropWhile_cons_of_neg (by simp [hg])]
      simpa using hg

/-- A run that leaves `rest` leaves `after` when that follows instead. -/
theorem Replaces.span (hq : ∀ k ∈ separators, q k = false) (h : Replaces after rest)
    {ls : List Cluster} (hr : (ls ++ rest).dropWhile q = rest) :
    (ls ++ after).takeWhile q = (ls ++ rest).takeWhile q ∧
      (ls ++ after).dropWhile q = after := by
  have hstop := stops_dropWhile (q := q) (ls ++ rest)
  rw [hr] at hstop
  have hls : ∀ g ∈ ls, q g = true := by
    have htake : (ls ++ rest).takeWhile q = ls := by
      have hsplit := List.takeWhile_append_dropWhile (p := q) (l := ls ++ rest)
      rw [hr] at hsplit
      exact List.append_cancel_right hsplit
    intro g hg
    rw [← htake] at hg
    exact List.all_eq_true.mp List.all_takeWhile g hg
  obtain ⟨htake, hdrop⟩ := span_append hls (h.stops hq hstop)
  exact ⟨by rw [htake, (span_append hls hstop).1], hdrop⟩

theorem cons_of_append {g : Cluster} {gs ls : List Cluster} (h : g :: gs = ls ++ rest)
    (hlen : rest.length ≤ gs.length) : ∃ ls', ls = g :: ls' ∧ gs = ls' ++ rest := by
  cases ls with
  | nil =>
    have hl := congrArg List.length h
    simp only [List.nil_append, List.length_cons] at hl
    omega
  | cons k ls =>
    obtain ⟨rfl, rfl⟩ := List.cons.inj h
    exact ⟨ls, rfl, rfl⟩

end

end Lexis
