import Lexis.Proofs.JsonReading
import Lexis.Settings.Reader

/-!
# Values of settings

Which values of JSON denote a limit, a name and a list of files. The readers of settings read
exactly these, whatever stands behind them (`reads_readSize`, `reads_readName`, `reads_readFiles`).
-/

namespace Lexis.Settings

open Json

/-! ## Limits and names -/

/-- A number of 64 bits. -/
def DenotesSize (v : List Char) (n : UInt64) : Prop := IsWhole v ∧ decimal v = n.toNat

/-- A string of JSON and the text that it spells. -/
inductive DenotesName : List Char → String → Prop
  | mk {spelling : List Char} {name : String} (h : Spells spelling name.toList) :
      DenotesName ('"' :: (spelling ++ ['"'])) name

/-- A limit is written as a number without fraction and exponent. -/
theorem DenotesSize.isValue {v : List Char} {n : UInt64} (h : DenotesSize v n) : IsValue v := by
  have hnumber : IsUnsigned v := ⟨v, [], [], h.1, .none, .none, by simp⟩
  exact .scalar (.number (.inl hnumber))

/-- A name is written as a string. -/
theorem DenotesName.isValue {v : List Char} {name : String} (h : DenotesName v name) :
    IsValue v := by
  cases h with
  | mk h => exact .scalar (.string h.isString)

/-- Only numbers that were read as whole ones make a limit. -/
theorem sizeOf_ok_iff {n : Number} {cs rest : List Char} {size : UInt64} :
    sizeOf n cs = .ok (size, rest) ↔ ∃ k, n = .whole k ∧ size = UInt64.ofNat k ∧ rest = cs := by
  cases n with
  | whole k => simp [sizeOf, eq_comm]
  | negated k => simp [sizeOf, refuseBefore]
  | float negative x => simp [sizeOf, refuseMet, refuseBefore]

/-- The reader of limits reads whole numbers of 64 bits, and nothing else. -/
theorem reads_readSize : Reads readSize DenotesSize where
  isValue := DenotesSize.isValue
  sound := by
    intro cs rest size h
    unfold readSize at h
    split at h
    · cases h
    · next c tail hcs =>
      obtain ⟨lead, hlead, rfl⟩ := exists_blank_of_skipBlanks hcs
      split at h
      · split at h
        · cases h
        · next n rest' hread =>
          obtain ⟨k, rfl, rfl, rfl⟩ := sizeOf_ok_iff.mp h
          obtain ⟨hneg, hmax, ds, hds, rfl, htail⟩ := exists_of_readNumber hread
          have hc : ¬c = '-' := of_decide_eq_false hneg
          rw [if_neg hc] at htail
          refine ⟨lead, ds, hlead, ⟨hds, ?_⟩, by rw [htail]⟩
          exact (UInt64.toNat_ofNat_of_lt (Nat.lt_succ_of_le hmax)).symm
      · exact absurd h refuseValue_ne_ok
  complete := by
    intro lead v rest n hlead h hrest
    obtain ⟨hwhole, hvalue⟩ := h
    have hmax : decimal v ≤ maxWhole := by
      rw [hvalue]
      exact Nat.le_of_lt_succ n.toNat_lt
    have hread := readNumber_append hwhole hmax hrest
    obtain ⟨d, tail, rfl, hd⟩ := hwhole.exists_cons
    -- the reader asks for a sign first, and a digit is none
    have hminus : d ≠ '-' := by
      rintro rfl
      exact absurd hd (by decide)
    have hblank : isBlank d = false :=
      not_isBlank_of_mem_valueStarts (mem_valueStarts_of_isDigit hd)
    rw [List.cons_append] at hread ⊢
    rw [readSize, skipBlanks_append_cons hlead hblank]
    simp only [hminus, hd, decide_false, Bool.or_true, if_true, if_false, hread, hvalue]
    exact sizeOf_ok_iff.mpr ⟨_, rfl, by simp, rfl⟩

/-- The reader of names reads strings, by what they spell. -/
theorem reads_readName : Reads readName DenotesName where
  isValue := DenotesName.isValue
  sound := by
    intro cs rest name h
    unfold readName at h
    split at h
    · cases h
    · next c tail hcs =>
      obtain ⟨lead, hlead, rfl⟩ := exists_blank_of_skipBlanks hcs
      split at h
      · next hc =>
        subst hc
        split at h
        · cases h
        · next text rest' hread =>
          cases h
          obtain ⟨spelling, hspells, rfl⟩ := readString_ok_iff.mp hread
          refine ⟨lead, _, hlead, .mk (by rwa [String.toList_ofList]), by simp⟩
      · exact absurd h refuseValue_ne_ok
  complete := by
    intro lead v rest name hlead h hrest
    cases h with
    | mk h =>
      simp only [List.cons_append, List.append_assoc, List.nil_append]
      rw [readName, skipBlanks_append_cons hlead rfl]
      simp only [if_true, h.readString, String.ofList_toList]

/-! ## Lists of files -/

/-- A list of names, or the word for none. -/
inductive DenotesFiles : List Char → Option (List String) → Prop
  | none : DenotesFiles ['n', 'u', 'l', 'l'] none
  | list {names : List String} {body : List Char}
      (h : Series (IsElement DenotesName) true names body) :
      DenotesFiles ('[' :: (body ++ [']'])) (some names)

theorem DenotesFiles.isValue {v : List Char} {files : Option (List String)}
    (h : DenotesFiles v files) : IsValue v := by
  cases h with
  | none => exact .scalar (.word (by decide))
  | list h => exact h.isValue (b := .list) fun _ _ => IsElement.isEntry DenotesName.isValue

/-- The walk over names, step by step. -/
theorem readNames_eq (first : Bool) (cs : List Char) :
    readNames first cs =
      match nextElement first cs with
      | .error r => .error r
      | .ok none => .ok ([], cs)
      | .ok (some element) =>
        match readName element with
        | .error r => .error r
        | .ok (name, rest) =>
          match readNames false rest with
          | .error r => .error r
          | .ok (names, rest) => .ok (name :: names, rest) := by
  rw [readNames]
  split
  · next h => rw [h]
  · next h => rw [h]
  · next h =>
    rw [h]
    dsimp only
    split
    · next hn => simp only [hn]
    · next name rest hn =>
      cases hs : readNames false rest with
      | error r => simp only [hn, hs]
      | ok p => simp only [hn, hs]

/-- An element is read as the next name. -/
theorem readNames_element {first : Bool} {cs v rest rest' : List Char} {name : String}
    {names : List String} (he : nextElement first cs = .ok (some (v ++ rest)))
    (hname : DenotesName v name) (hrest : Delimits rest)
    (hs : readNames false rest = .ok (names, rest')) :
    readNames first cs = .ok (name :: names, rest') := by
  have hread : readName (v ++ rest) = .ok (name, rest) :=
    reads_readName.complete blank_nil hname hrest
  rw [readNames_eq, he]
  simp only [hread, hs]

/-- A series of names is read up to the closing bracket. -/
theorem exists_readNames {first : Bool} {names : List String} {body : List Char}
    (h : Series (IsElement DenotesName) first names body) (rest : List Char) :
    ∃ mid, readNames first (body ++ ']' :: rest) = .ok (names, mid) ∧ endList mid = .ok rest := by
  induction h with
  | @done first before hb =>
    refine ⟨before ++ ']' :: rest, ?_, endList_ok_iff.mpr ⟨before, hb, rfl⟩⟩
    rw [readNames_eq, nextElement_none_iff.mpr ⟨before, rest, hb, rfl⟩]
  | first hname hs ih =>
    obtain ⟨mid, hread, hend⟩ := ih
    cases hname with
    | mk hb h =>
      refine ⟨mid, ?_, hend⟩
      simp only [List.append_assoc]
      exact readNames_element (nextElement_first hb h.isValue) h (hs.delimits .list rest) hread
  | more ha hname hs ih =>
    obtain ⟨mid, hread, hend⟩ := ih
    cases hname with
    | mk hb h =>
      refine ⟨mid, ?_, hend⟩
      simp only [List.append_assoc, List.cons_append]
      exact readNames_element (nextElement_more ha hb h.isValue) h (hs.delimits .list rest) hread

/-- Names that were read stand in a series up to the closing bracket. -/
theorem exists_series_of_readNames {first : Bool} {names : List String} {cs mid rest : List Char}
    (h : readNames first cs = .ok (names, mid)) (hend : endList mid = .ok rest) :
    ∃ body, Series (IsElement DenotesName) first names body ∧ cs = body ++ ']' :: rest := by
  fun_induction readNames first cs generalizing names mid with
  | case1 => cases h
  | case2 first cs _ =>
    cases h
    obtain ⟨before, hb, rfl⟩ := endList_ok_iff.mp hend
    exact ⟨before, .done hb, rfl⟩
  | case3 => cases h
  | case4 => cases h
  | case5 first cs element he name tail hname names' mid' hnames ih =>
    cases h
    obtain ⟨body, hbody, rfl⟩ := ih hnames hend
    obtain ⟨lead, v, hlead, hv, rfl⟩ := reads_readName.sound hname
    cases first with
    | true =>
      obtain ⟨before, hb, rfl⟩ := exists_of_nextElement_first he
      exact ⟨_, .first (.mk (hb.append hlead) hv) hbody, by simp⟩
    | false =>
      obtain ⟨after, before, ha, hb, rfl⟩ := exists_of_nextElement_more he
      exact ⟨_, .more ha (.mk (hb.append hlead) hv) hbody, by simp⟩

/-- The reader of files reads a list of names, or the word for none. -/
theorem reads_readFiles : Reads readFiles DenotesFiles where
  isValue := DenotesFiles.isValue
  sound := by
    intro cs rest files h
    unfold readFiles at h
    split at h
    · cases h
    · next c tail hcs =>
      obtain ⟨lead, hlead, rfl⟩ := exists_blank_of_skipBlanks hcs
      split at h
      · next hc =>
        subst hc
        split at h
        · cases h
        · next hword =>
          cases h
          rw [passWord_ok_iff.mp hword]
          exact ⟨lead, _, hlead, .none, rfl⟩
      · split at h
        · next hc =>
          subst hc
          split at h
          · cases h
          · next hnames =>
            split at h
            · cases h
            · next hend =>
              cases h
              obtain ⟨body, hbody, rfl⟩ := exists_series_of_readNames hnames hend
              exact ⟨lead, _, hlead, .list hbody, by simp⟩
        · exact absurd h refuseValue_ne_ok
  complete := by
    intro lead v rest files hlead h hrest
    cases h with
    | none =>
      rw [readFiles, List.cons_append, skipBlanks_append_cons hlead rfl]
      rfl
    | list h =>
      obtain ⟨mid, hread, hend⟩ := exists_readNames h rest
      simp only [List.cons_append, List.append_assoc, List.nil_append]
      rw [readFiles, skipBlanks_append_cons hlead rfl]
      simp [hread, hend]

end Lexis.Settings
