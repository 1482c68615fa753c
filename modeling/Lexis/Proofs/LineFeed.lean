import Lexis.Position
import Lexis.Text.Cluster.Restart
import Mathlib.Data.List.Count

/-!
# Line feeds and clusters

Controls stand in clusters of their own (`clusters_control`), and so does a line feed, with at most a
carriage return before it. So there are as many clusters that break a line as there are line feeds
(`countP_isLineBreak`), and a text is cut on both sides of a line feed (`clusters_lineFeed`).
-/

namespace Lexis.Text

open BreakClass

/-! ## The class of a carriage return -/

theorem eq_of_carriageReturn {c : Char} (h : BreakClass.ofChar c = .carriageReturn) : c = '\r' := by
  have htables : ∀ n, ofTables n ≠ .carriageReturn := by
    intro n hn
    -- none of the values of the tables is a carriage return
    simp only [ofTables, apply_ite (· = BreakClass.carriageReturn), reduceCtorEq, ite_self] at hn
  unfold BreakClass.ofChar at h
  split at h
  · unfold ofAscii at h
    split at h
    · next hn => exact Char.toNat_inj.mp hn
    · repeat' split at h
      all_goals simp at h
  · exact absurd h (htables _)

/-! ## Boundaries at line feeds -/

theorem joins_lineFeed {last : BreakClass} {before : List BreakClass}
    (h : joins (last :: before) .lineFeed = true) : last = .carriageReturn := by
  unfold joins at h
  simp only at h
  split at h
  · next hl => simpa using hl
  · simp [isControl] at h

/-- A control joins nothing before it, unless it is a line feed. -/
theorem joins_control {next : BreakClass} (h : next.isControl = true) (hne : next ≠ .lineFeed)
    (before : List BreakClass) : joins before next = false := by
  cases before <;> simp [joins, h, hne]

/-- Nothing joins a control before it, unless that is a carriage return. -/
theorem joins_of_control {last : BreakClass} (h : last.isControl = true)
    (hne : last ≠ .carriageReturn) (before : List BreakClass) (next : BreakClass) :
    joins (last :: before) next = false := by
  simp [joins, h, hne]

/-- A text is cut behind a control at its front. -/
theorem clusters_control {c : Char} (h : (BreakClass.ofChar c).isControl = true)
    (hne : BreakClass.ofChar c ≠ .carriageReturn) (ds : List Char) :
    clusters (c :: ds) = .ofChar c :: clusters ds := by
  cases ds with
  | nil => rfl
  | cons d ds =>
    have hcut : joins ([c].map BreakClass.ofChar).reverse (.ofChar d) = false :=
      joins_of_control h hne [] _
    exact clusters_append ds hcut

/-! ## The clusters of a text -/

/-- A cluster with a line feed is a line break. -/
theorem isLineBreak_of_mem_clustersAfter (before : List BreakClass) (cs : List Char) :
    ∀ g ∈ clustersAfter before cs, '\n' ∈ g.chars → g.isLineBreak = true := by
  -- on how the text is cut: a character opens a cluster of its own or joins the one behind it
  fun_induction clustersAfter before cs with
  | case1 => simp
  | case2 before c =>
    intro g h hg
    obtain rfl := List.mem_singleton.mp h
    obtain rfl : '\n' = c := List.mem_singleton.mp hg
    rfl
  | case3 before c d cs here hj ih =>
    intro g h hg
    obtain ⟨k, ks, hk⟩ := List.exists_cons_of_ne_nil
      (clustersAfter_ne_nil here d cs)
    rw [hk] at h ih
    rcases List.mem_cons.mp h with rfl | h
    · rcases List.mem_cons.mp hg with rfl | hg
      · -- nothing joins a line feed
        rw [show here = .lineFeed :: before from rfl, joins_of_control rfl (by decide)] at hj
        exact absurd hj (by decide)
      · -- the cluster that is joined begins with `d`
        have hbreak := ih k List.mem_cons_self hg
        have hd : k.chars.head? = some d := by
          have hchars := charsOf_clustersAfter here (d :: cs)
          rw [hk, Cluster.charsOf_cons] at hchars
          obtain ⟨e, es, he⟩ := List.exists_cons_of_ne_nil (List.ne_nil_of_mem hg)
          rw [he] at hchars ⊢
          exact congrArg some (List.cons.inj hchars).1
        rcases Bool.or_eq_true_iff.mp hbreak with hlf | hcrlf
        · have hchars : k.chars = ['\n'] := by simpa using hlf
          obtain rfl : '\n' = d := by simpa [hchars] using hd
          obtain rfl := eq_of_carriageReturn (joins_lineFeed hj)
          rw [hchars]
          rfl
        · have hchars : k.chars = ['\r', '\n'] := by simpa using hcrlf
          obtain rfl : '\r' = d := by simpa [hchars] using hd
          rw [show BreakClass.ofChar '\r' = .carriageReturn from rfl,
            joins_control rfl (by decide)] at hj
          exact absurd hj (by decide)
    · exact ih g (List.mem_cons_of_mem _ h) hg
  | case4 before c d cs here hj ih =>
    intro g h hg
    rcases List.mem_cons.mp h with rfl | h
    · obtain rfl : '\n' = c := List.mem_singleton.mp hg
      rfl
    · exact ih g h hg

/-- Every cluster holds as many line feeds as it breaks lines. -/
theorem count_of_mem_clusters {cs : List Char} {g : Cluster} (h : g ∈ clusters cs) :
    g.chars.count '\n' = if g.isLineBreak then 1 else 0 := by
  cases hg : g.isLineBreak with
  | true =>
    rcases Bool.or_eq_true_iff.mp hg with hlf | hcrlf
    · rw [show g.chars = ['\n'] by simpa using hlf]
      rfl
    · rw [show g.chars = ['\r', '\n'] by simpa using hcrlf]
      rfl
  | false =>
    refine List.count_eq_zero.mpr ?_
    intro hmem
    rw [isLineBreak_of_mem_clustersAfter [] cs g h hmem] at hg
    exact absurd hg (by decide)

/-- **The line breaks among the clusters of a text are its line feeds.** -/
theorem countP_isLineBreak (cs : List Char) :
    (clusters cs).countP Cluster.isLineBreak = cs.count '\n' := by
  have hcount : ∀ gs : List Cluster,
      (∀ g ∈ gs, g.chars.count '\n' = if g.isLineBreak then 1 else 0) →
      gs.countP Cluster.isLineBreak = (Cluster.charsOf gs).count '\n' := by
    intro gs hgs
    induction gs with
    | nil => rfl
    | cons g gs ih =>
      rw [List.countP_cons, Cluster.charsOf_cons, List.count_append, hgs g List.mem_cons_self,
        ih fun k hk => hgs k (List.mem_cons_of_mem _ hk), Nat.add_comm]
  rw [hcount _ fun g hg => count_of_mem_clusters hg, chars_clusters]

/-- **A text is cut on both sides of a line feed**, unless a carriage return stands before it. -/
theorem clusters_lineFeed {cs : List Char} (h : cs.getLast? ≠ some '\r') (ds : List Char) :
    clusters (cs ++ '\n' :: ds) = clusters cs ++ .ofChar '\n' :: clusters ds := by
  have hleft : joins (cs.map BreakClass.ofChar).reverse (.ofChar '\n') = false := by
    rw [← List.map_reverse]
    cases hr : cs.reverse with
    | nil => rfl
    | cons c before =>
      cases hj : joins ((c :: before).map BreakClass.ofChar) (.ofChar '\n') with
      | false => rfl
      | true =>
        have hc : c = '\r' := eq_of_carriageReturn (joins_lineFeed hj)
        refine absurd ?_ h
        rw [List.getLast?_eq_head?_reverse, hr, hc]
        rfl
  rw [clusters_append ds hleft, clusters_control rfl (by decide)]

end Lexis.Text
