import Lexis.Proofs.EndOfInput
import Lexis.Proofs.Lookahead
import Lexis.Proofs.Passing
import Lexis.Proofs.Spelling

/-!
# Tokens and blanks make up the source

A token is read from whole clusters of the source, and only blanks stand between the clusters of one
token and those of the next. So the tokens that a scan gives, with the blanks before each of them,
are the source up to where the scan has stopped: nothing is lost, and nothing is read twice
(`scan_partition`).
-/

namespace Lexis

/-- A token, the blanks passed before it, and the clusters it was read from. -/
structure Piece where
  gap : List Cluster
  lexeme : List Cluster
  token : Token

namespace Piece

def clusters (p : Piece) : List Cluster := p.gap ++ p.lexeme

/-- The clusters of pieces in a row. -/
def clustersOf (ps : List Piece) : List Cluster := ps.flatMap clusters

/--
How a piece lies in a source.

`before` are the clusters of the source in front of the piece, and `stop` is where the cursor stood
after its token.
-/
structure Lies (p : Piece) (source : String) (before : List Cluster) (stop : Nat) : Prop where
  blank : ∀ g ∈ p.gap, g = .ofChar ' ' ∨ g = .ofChar '\t' ∨ g = .ofChar '\r'
  starts : p.token.position.offset = Text.size (Cluster.charsOf (before ++ p.gap))
  stops : stop = Text.size (Cluster.charsOf (before ++ p.clusters))
  nonempty : p.token.position.offset < stop
  slice : Text.slice? p.token.position.offset stop source.toList
    = some (Cluster.charsOf p.lexeme)
  spells : Spells p.token.kind p.lexeme p.token.text

end Piece

theorem eq_of_isBlank {g : Cluster} (h : g.isBlank = true) :
    g = .ofChar ' ' ∨ g = .ofChar '\t' ∨ g = .ofChar '\r' := by
  unfold Cluster.isBlank at h
  rcases Bool.or_eq_true_iff.mp h with h | h
  · rcases Bool.or_eq_true_iff.mp h with h | h
    · exact .inl (Cluster.eq_ofChar_of_is h)
    · exact .inr (.inl (Cluster.eq_ofChar_of_is h))
  · exact .inr (.inr (Cluster.eq_ofChar_of_is h))

namespace Scanner

/-- The scan stands behind the clusters `before` of its source. -/
structure StandsBehind (s : Scanner) (before : List Cluster) : Prop where
  clusters : Text.clusters s.source.toList = before ++ s.cursor.ahead
  offset : s.cursor.offset = Text.size (Cluster.charsOf before)

theorem standsBehind_ofText (source : String) (options : ScannerOptions) :
    (ofText source options).StandsBehind [] :=
  { clusters := (Cursor.ahead_ofText source).symm
    offset := rfl }

/-- What is passed is then behind. -/
theorem Passes.standsBehind {s s' : Scanner} {gs before : List Cluster} (h : s.Passes gs s')
    (hs : s.StandsBehind before) : s'.StandsBehind (before ++ gs) where
  clusters := by rw [h.source, hs.clusters, h.ahead, List.append_assoc]
  offset := by rw [h.offset, hs.offset, Cluster.charsOf_append, Text.size_append]

section

variable {s s' : Scanner} {t : Token} {blanks lexeme before : List Cluster}

theorem Takes.offset (h : s.Takes blanks lexeme t s') :
    s'.cursor.offset = t.position.offset + Text.size (Cluster.charsOf lexeme) := by
  rw [h.position, ← Position.offset_passing, h.after]
  rfl

/-- A lexeme is a slice of the source that is not empty. -/
theorem Takes.size_pos (h : s.Takes blanks lexeme t s') :
    0 < Text.size (Cluster.charsOf lexeme) := by
  refine Cursor.size_pos_of_mem_ahead h.lexeme_ne_nil (c := s.cursor) fun g hg => ?_
  rw [h.ahead]
  exact List.mem_append_right _ (List.mem_append_left _ hg)

theorem Takes.spells (h : s.Takes blanks lexeme t s') : Spells t.kind lexeme t.text := by
  obtain ⟨ls, hls, -, hspells⟩ := Lexeme.read_spells h.read
  rwa [List.append_cancel_right hls]

/-- **The token of one call lies in the source behind what was passed before.** -/
theorem Takes.lies (h : s.Takes blanks lexeme t s') (hs : s.StandsBehind before) :
    (Piece.mk blanks lexeme t).Lies s.source before s'.cursor.offset where
  blank g hg := eq_of_isBlank (isBlank_of_mem_blanksIn (h.blanksIn.symm ▸ hg))
  starts := by
    have hstart : s.position.offset = Text.size (Cluster.charsOf before) := hs.offset
    show t.position.offset = _
    rw [h.position, Position.offset_passing, hstart, Cluster.charsOf_append, Text.size_append]
  stops := (h.passes.standsBehind hs).offset
  nonempty := by
    rw [h.offset]
    exact Nat.lt_add_of_pos_right h.size_pos
  slice := by
    have hchars : s.source.toList = Cluster.charsOf (before ++ blanks) ++ Cluster.charsOf lexeme
        ++ Cluster.charsOf s'.cursor.ahead := by
      rw [← Text.chars_clusters s.source.toList, hs.clusters, h.ahead]
      simp only [Cluster.charsOf_append, List.append_assoc]
    have hstart : t.position.offset = Text.size (Cluster.charsOf (before ++ blanks)) := by
      have hs' : s.position.offset = Text.size (Cluster.charsOf before) := hs.offset
      rw [h.position, Position.offset_passing, hs', Cluster.charsOf_append, Text.size_append]
    show Text.slice? t.position.offset _ _ = _
    rw [h.offset, hstart, hchars]
    exact Text.slice?_append _ _ _
  spells := h.spells

end

/-! ## Runs -/

theorem after_succ_of_next {s s' : Scanner} {t : Token} (h : s.next = (.ok t, s')) (n : Nat) :
    s.after (n + 1) = s'.after n := by
  rw [after, h]

/-- The tokens of a run are pieces in a row, each of them where its call has found it. -/
theorem Run.pieces {s s' : Scanner} {ts : List Token} {before : List Cluster} (h : Run s ts s')
    (hs : s.StandsBehind before) : ∃ ps : List Piece, ps.map Piece.token = ts ∧
      s'.source = s.source ∧ s'.StandsBehind (before ++ Piece.clustersOf ps) ∧
      ∀ front p back, ps = front ++ p :: back →
        (s.after front.length).next = (.ok p.token, s.after (front.length + 1)) ∧
        p.Lies s.source (before ++ Piece.clustersOf front)
          (s.after (front.length + 1)).cursor.offset := by
  -- `before` grows with the run, so that every piece is placed in the whole source
  induction h generalizing before with
  | nil s => exact ⟨[], rfl, rfl, by simpa [Piece.clustersOf] using hs, by simp⟩
  | @cons s u s' t ts hnext _ ih =>
    obtain ⟨blanks, lexeme, ht⟩ := takes_of_next hnext
    obtain ⟨ps, hmap, hsource, hend, hps⟩ := ih (ht.passes.standsBehind hs)
    have hcons : ∀ front, before ++ Piece.clustersOf (⟨blanks, lexeme, t⟩ :: front)
        = before ++ (blanks ++ lexeme) ++ Piece.clustersOf front := by
      intro front
      rw [List.append_assoc]
      rfl
    refine ⟨⟨blanks, lexeme, t⟩ :: ps, by rw [List.map_cons, hmap], hsource.trans ht.passes.source, ?_, ?_⟩
    · rw [hcons]
      exact hend
    · intro front p back hsplit
      cases front with
      | nil =>
        obtain ⟨rfl, rfl⟩ := List.cons.inj hsplit
        refine ⟨?_, ?_⟩
        · rw [List.length_nil, after_succ_of_next hnext]
          exact hnext
        · rw [List.length_nil, after_succ_of_next hnext]
          simpa [Piece.clustersOf, after] using ht.lies hs
      | cons q front =>
        obtain ⟨rfl, htail⟩ := List.cons.inj hsplit
        obtain ⟨htoken, hlies⟩ := hps front p back htail
        rw [List.length_cons, after_succ_of_next hnext, after_succ_of_next hnext, hcons,
          ← ht.passes.source]
        exact ⟨htoken, hlies⟩

/--
**The tokens of a scan and the blanks before them are the source, up to where it stopped.**

Every piece is made of whole clusters of the source. Without an error only blanks are left.
-/
theorem scan_partition (source : String) (options : ScannerOptions) :
    ∃ (ps : List Piece) (tail : List Cluster),
      ps.map Piece.token = (scan source options).tokens ∧
      Text.clusters source.toList = Piece.clustersOf ps ++ tail ∧
      Text.takeBytes? ((ofText source options).after ps.length).cursor.offset source.toList
        = some (Cluster.charsOf (Piece.clustersOf ps)) ∧
      (∀ front p back, ps = front ++ p :: back →
        ((ofText source options).after front.length).next
          = (.ok p.token, (ofText source options).after (front.length + 1)) ∧
        p.Lies source (Piece.clustersOf front)
          ((ofText source options).after (front.length + 1)).cursor.offset) ∧
      ((scan source options).error = none →
        ∀ g ∈ tail, g = .ofChar ' ' ∨ g = .ofChar '\t' ∨ g = .ofChar '\r') := by
  obtain ⟨s', d, s'', hrun, hd, herror, -⟩ := exists_run_scan source options
  obtain ⟨ps, hmap, hsource, hend, hps⟩ := hrun.pieces (standsBehind_ofText source options)
  have hclusters : Text.clusters source.toList = Piece.clustersOf ps ++ s'.cursor.ahead := by
    have hc := hend.clusters
    rwa [hsource] at hc
  refine ⟨ps, s'.cursor.ahead, hmap, hclusters, ?_, hps, ?_⟩
  · have hlen := hrun.after_length
    rw [← hmap, List.length_map] at hlen
    rw [hlen, hend.offset, ← Text.chars_clusters source.toList, hclusters, List.nil_append,
      Cluster.charsOf_append]
    exact Text.takeBytes?_append _ _
  · -- without an error the last call has found blanks up to the end
    intro hnone g hg
    obtain ⟨-, hblanks, -⟩ := ends_of_error_none hd (herror.symm.trans hnone)
    rw [← hblanks] at hg
    exact eq_of_isBlank (isBlank_of_mem_blanksIn hg)

end Scanner

end Lexis
