import Lexis.Proofs.JsonValues

/-!
# The members of an object of JSON

Items with commas between them are a series, be they the elements of a list or the members of an
object (`Series`). A series between brackets is a value, and the text of an object has its members
in one way only (`IsObject.unique`), since every part of a text is found by a reader that takes
nothing else.
-/

namespace Lexis.Json

/-! ## Series of items -/

/-- Items with commas between them, up to a closing bracket: from the opening one on, or from behind
an item. -/
inductive Series {α : Type} (P : α → List Char → Prop) : (first : Bool) → List α → List Char → Prop
  | done {first : Bool} {cs : List Char} (h : Blank cs) : Series P first [] cs
  | first {a : α} {as : List α} {cs rest : List Char} (h : P a cs) (hs : Series P false as rest) :
      Series P true (a :: as) (cs ++ rest)
  | more {a : α} {as : List α} {after cs rest : List Char} (ha : Blank after) (h : P a cs)
      (hs : Series P false as rest) : Series P false (a :: as) (after ++ ',' :: (cs ++ rest))

/-- Behind an item stands what delimits a number. -/
theorem Series.delimits {α : Type} {P : α → List Char → Prop} {as : List α} {cs : List Char}
    (h : Series P false as cs) (b : Bracket) (rest : List Char) :
    Delimits (cs ++ b.close :: rest) := by
  cases h with
  | done h => exact h.delimits_close b rest
  | more ha _ _ =>
    rw [List.append_assoc]
    exact ha.delimits_comma _

/-- An entry of a bracket, with its value but without what follows. -/
def IsEntry (b : Bracket) (cs : List Char) : Prop :=
  ∃ front before v, Front b front ∧ Blank before ∧ IsValue v ∧ cs = front ++ before ++ v

theorem IsEntry.row {α : Type} {P : α → List Char → Prop} {b : Bracket}
    (hP : ∀ a cs, P a cs → IsEntry b cs) {as : List α} {cs rest : List Char}
    (h : IsEntry b cs) (hs : Series P false as rest) : Derives (.row b) (cs ++ rest) := by
  -- Each item behind the entry is an entry itself, and starts the row that follows the comma.
  generalize hfirst : false = first at hs
  induction hs generalizing cs with
  | done ha =>
    obtain ⟨front, before, v, hf, hb, hv, rfl⟩ := h
    exact .last hf hb hv ha
  | first => cases hfirst
  | @more a as after cs' rest ha hitem _ ih =>
    obtain ⟨front, before, v, hf, hb, hv, rfl⟩ := h
    rw [← List.append_assoc]
    exact .more hf hb hv ha (ih (hP a cs' hitem) hfirst)

/-- A series of entries between brackets is a value. -/
theorem Series.isValue {α : Type} {P : α → List Char → Prop} {b : Bracket}
    (hP : ∀ a cs, P a cs → IsEntry b cs) {as : List α} {cs : List Char} (h : Series P true as cs) :
    IsValue (b.opening :: cs ++ [b.close]) := by
  cases h with
  | done h => exact .empty b h
  | first h hs => exact .full ((hP _ _ h).row hP hs)

theorem IsEntry.head {b : Bracket} {cs : List Char} (h : IsEntry b cs) (rest : List Char) :
    ∃ c tail, skipBlanks (cs ++ rest) = c :: tail ∧ c ≠ b.close := by
  obtain ⟨front, before, v, hf, hb, hv, rfl⟩ := h
  simp only [List.append_assoc]
  exact hf.head hb hv rest

/-- What stands behind blanks is the same if the whole is. -/
theorem Blank.append_cons_inj {before before' cs cs' : List Char} {c c' : Char}
    (hb : Blank before) (hb' : Blank before') (hc : isBlank c = false) (hc' : isBlank c' = false)
    (h : before ++ c :: cs = before' ++ c' :: cs') : c = c' ∧ cs = cs' := by
  have hskip := congrArg skipBlanks h
  rw [skipBlanks_append_cons hb hc, skipBlanks_append_cons hb' hc'] at hskip
  exact List.cons.inj hskip

/-- An entry is not mistaken for the end. -/
theorem IsEntry.ne_close {b : Bracket} {cs before : List Char} (h : IsEntry b cs)
    (hb : Blank before) (rest tail : List Char) : before ++ b.close :: rest ≠ cs ++ tail := by
  intro heq
  obtain ⟨c, tail', hhead, hne⟩ := h.head tail
  rw [← heq, skipBlanks_append_cons hb b.not_isBlank_close] at hhead
  exact hne (List.cons.inj hhead).1.symm

/-- A comma is not mistaken for the end. -/
theorem Blank.ne_close {before after : List Char} (hb : Blank before) (ha : Blank after)
    (b : Bracket) (rest tail : List Char) : before ++ b.close :: rest ≠ after ++ ',' :: tail := by
  intro heq
  exact b.close_ne_comma (hb.append_cons_inj ha b.not_isBlank_close rfl heq).1

/-- A text has the items of a series in one way only, if it has each of them so. -/
theorem Series.unique {α : Type} {P : α → List Char → Prop} {b : Bracket}
    (hP : ∀ a cs, P a cs → IsEntry b cs)
    (hunique : ∀ {a a' : α} {cs cs' rest rest' : List Char}, P a cs → P a' cs' → Delimits rest →
      Delimits rest' → cs ++ rest = cs' ++ rest' → a = a' ∧ rest = rest')
    {first : Bool} {as as' : List α} {cs cs' rest rest' : List Char} (h : Series P first as cs)
    (h' : Series P first as' cs') (heq : cs ++ b.close :: rest = cs' ++ b.close :: rest') :
    as = as' ∧ rest = rest' := by
  -- what comes next tells which of the three cases both are in
  induction h generalizing as' cs' with
  | done hb =>
    cases h' with
    | done hb' =>
      exact ⟨rfl, (hb.append_cons_inj hb' b.not_isBlank_close b.not_isBlank_close heq).2⟩
    | first hitem _ =>
      rw [List.append_assoc] at heq
      exact absurd heq ((hP _ _ hitem).ne_close hb _ _)
    | more ha _ _ =>
      rw [List.append_assoc] at heq
      exact absurd heq (hb.ne_close ha b _ _)
  | first hitem hs ih =>
    cases h' with
    | done hb' =>
      rw [List.append_assoc] at heq
      exact absurd heq.symm ((hP _ _ hitem).ne_close hb' _ _)
    | first hitem' hs' =>
      rw [List.append_assoc, List.append_assoc] at heq
      obtain ⟨rfl, htail⟩ := hunique hitem hitem' (hs.delimits b rest) (hs'.delimits b rest') heq
      obtain ⟨rfl, hrest⟩ := ih hs' htail
      exact ⟨rfl, hrest⟩
  | more ha hitem hs ih =>
    cases h' with
    | done hb' =>
      rw [List.append_assoc] at heq
      exact absurd heq.symm (hb'.ne_close ha b _ _)
    | more ha' hitem' hs' =>
      simp only [List.append_assoc, List.cons_append] at heq
      obtain ⟨-, heq⟩ := ha.append_cons_inj ha' rfl rfl heq
      obtain ⟨rfl, htail⟩ := hunique hitem hitem' (hs.delimits b rest) (hs'.delimits b rest') heq
      obtain ⟨rfl, hrest⟩ := ih hs' htail
      exact ⟨rfl, hrest⟩

/-! ## Members -/

/-- A member of an object: its key without escapes, and its value as it is written. -/
abbrev Member := String × List Char

/-- A colon and the value of a member, with blanks in front of each. -/
inductive IsAnswer (v : List Char) : List Char → Prop
  | mk {after lead : List Char} (ha : Blank after) (hl : Blank lead) (hv : IsValue v) :
      IsAnswer v (after ++ ':' :: (lead ++ v))

/-- A member as it is written. -/
inductive IsMember : Member → List Char → Prop
  | mk {before spelling answer v : List Char} {key : String} (hb : Blank before)
      (hkey : Spells spelling key.toList) (h : IsAnswer v answer) :
      IsMember (key, v) (before ++ '"' :: (spelling ++ '"' :: answer))

/-- A value that is an object with these members. -/
def IsObject (ms : List Member) (v : List Char) : Prop :=
  ∃ body, Series IsMember true ms body ∧ v = '{' :: body ++ ['}']

/-- The text is an object with these members, and blanks. -/
def Holds (ms : List Member) (text : String) : Prop :=
  ∃ before v after, Blank before ∧ IsObject ms v ∧ Blank after ∧ text.toList = before ++ v ++ after

theorem IsMember.isEntry {m : Member} {cs : List Char} (h : IsMember m cs) :
    IsEntry .object cs := by
  cases h with
  | @mk before spelling answer v key hb hkey h =>
    cases h with
    | @mk after lead ha hl hv =>
      exact ⟨_, lead, v, .object hb hkey.isString ha, hl, hv, by simp⟩

theorem IsObject.isValue {ms : List Member} {v : List Char} (h : IsObject ms v) : IsValue v := by
  obtain ⟨body, hbody, rfl⟩ := h
  exact hbody.isValue (b := .object) fun _ _ => IsMember.isEntry

/-- A text starts with one value only, if nothing follows that could be a part of it. -/
theorem IsValue.unique {v v' rest rest' : List Char} (hv : IsValue v) (hv' : IsValue v')
    (hrest : Delimits rest) (hrest' : Delimits rest') (h : v ++ rest = v' ++ rest') :
    v = v' ∧ rest = rest' := by
  have hskip : skipValue (v ++ rest) = .ok rest := skipValue_append blank_nil hv hrest
  have hskip' : skipValue (v' ++ rest') = .ok rest' := skipValue_append blank_nil hv' hrest'
  rw [h, hskip', Except.ok.injEq] at hskip
  subst hskip
  exact ⟨List.append_cancel_right h, rfl⟩

theorem IsValue.skipBlanks_append {lead v : List Char} (hlead : Blank lead) (hv : IsValue v)
    (rest : List Char) : skipBlanks (lead ++ (v ++ rest)) = v ++ rest := by
  obtain ⟨c, tail, rfl, hc⟩ := hv.exists_cons
  exact skipBlanks_append_cons hlead (not_isBlank_of_mem_valueStarts hc) _

/-- Whether a text is a value is told by skipping one. -/
theorem isValue_iff {v : List Char} :
    IsValue v ↔ (skipValue v).toOption = some [] ∧ skipBlanks v = v := by
  constructor
  · intro hv
    have hskip := skipValue_append blank_nil hv delimits_nil
    have hblank := hv.skipBlanks_append blank_nil []
    rw [List.nil_append, List.append_nil] at hskip hblank
    exact ⟨by rw [hskip]; rfl, hblank⟩
  · rintro ⟨hoption, hblank⟩
    have hskip : skipValue v = .ok [] := by
      cases hread : skipValue v with
      | error r =>
        rw [hread] at hoption
        cases hoption
      | ok rest =>
        rw [hread] at hoption
        cases hoption
        rfl
    obtain ⟨lead, w, hlead, hw, rfl⟩ := exists_of_skipValue hskip
    rw [hw.skipBlanks_append hlead, List.append_nil] at hblank
    rw [List.append_nil, ← hblank]
    exact hw

instance (v : List Char) : Decidable (IsValue v) := decidable_of_iff _ isValue_iff.symm

theorem IsAnswer.unique {v v' cs cs' rest rest' : List Char} (h : IsAnswer v cs)
    (h' : IsAnswer v' cs') (hrest : Delimits rest) (hrest' : Delimits rest')
    (heq : cs ++ rest = cs' ++ rest') : v = v' ∧ rest = rest' := by
  cases h with
  | mk ha hl hv =>
    cases h' with
    | mk ha' hl' hv' =>
      simp only [List.append_assoc, List.cons_append] at heq
      obtain ⟨-, htail⟩ := ha.append_cons_inj ha' rfl rfl heq
      have hvalue := congrArg skipBlanks htail
      rw [hv.skipBlanks_append hl, hv'.skipBlanks_append hl'] at hvalue
      exact hv.unique hv' hrest hrest' hvalue

theorem IsMember.unique {m m' : Member} {cs cs' rest rest' : List Char} (h : IsMember m cs)
    (h' : IsMember m' cs') (hrest : Delimits rest) (hrest' : Delimits rest')
    (heq : cs ++ rest = cs' ++ rest') : m = m' ∧ rest = rest' := by
  cases h with
  | mk hb hkey h =>
    cases h' with
    | mk hb' hkey' h' =>
      simp only [List.append_assoc, List.cons_append] at heq
      obtain ⟨-, htail⟩ := hb.append_cons_inj hb' rfl rfl heq
      have hread := congrArg readString htail
      rw [hkey.readString, hkey'.readString, Except.ok.injEq, Prod.mk.injEq] at hread
      obtain ⟨rfl, hrest⟩ := h.unique h' hrest hrest' hread.2
      exact ⟨Prod.ext (String.toList_injective hread.1) rfl, hrest⟩

/-- An object has its members in one way only. -/
theorem IsObject.unique {ms ms' : List Member} {v : List Char} (h : IsObject ms v)
    (h' : IsObject ms' v) : ms = ms' := by
  obtain ⟨body, hbody, rfl⟩ := h
  obtain ⟨body', hbody', heq⟩ := h'
  have hclose : body ++ '}' :: [] = body' ++ '}' :: [] := (List.cons.inj heq).2
  exact (Series.unique (b := .object) (fun _ _ => IsMember.isEntry) IsMember.unique hbody hbody'
    hclose).1

end Lexis.Json
