import Lexis.Json.Container
import Lexis.Proofs.JsonMembers

/-!
# Reading wanted values of JSON

A reader is known by the values that it reads, and what they denote (`Reads`); a reader of members
by what each member makes of the value gathered so far (`MemberReader.Means`). The walk over an
object succeeds exactly if its members, one after another, make the result of the initial value
(`readMembers_ok_iff`), and a wanted member is read only if no other with its key came before.
-/

namespace Lexis.Json

/-- A reader reads exactly the values that denote something. -/
structure Reads {α : Type} (read : List Char → Reading α) (D : List Char → α → Prop) : Prop where
  isValue : ∀ {v : List Char} {a : α}, D v a → IsValue v
  sound : ∀ {cs rest : List Char} {a : α}, read cs = .ok (a, rest) →
    ∃ lead v, Blank lead ∧ D v a ∧ cs = lead ++ (v ++ rest)
  complete : ∀ {lead v rest : List Char} {a : α}, Blank lead → D v a → Delimits rest →
    read (lead ++ (v ++ rest)) = .ok (a, rest)

/-! ## Single members -/

section Single

variable {σ α : Type} {s s' : σ} {v answer cs rest : List Char}

/-- An answer to an unknown key is skipped, and nothing is learnt from it. -/
theorem skipMember_append (h : IsAnswer v answer) (hrest : Delimits rest) :
    skipMember s (answer ++ rest) = .ok (s, rest) := by
  cases h with
  | @mk after lead ha hl hv =>
    have hcolon : passColon (after ++ ':' :: (lead ++ (v ++ rest))) = .ok (lead ++ (v ++ rest)) :=
      passColon_ok_iff.mpr ⟨after, ha, rfl⟩
    simp only [List.append_assoc, List.cons_append, skipMember, hcolon,
      skipValue_append hl hv hrest]

/-- What is skipped as a member is an answer. -/
theorem exists_of_skipMember (h : skipMember s cs = .ok (s', rest)) :
    s' = s ∧ ∃ v answer, IsAnswer v answer ∧ cs = answer ++ rest := by
  unfold skipMember at h
  split at h
  · cases h
  · next hcolon =>
    obtain ⟨after, ha, rfl⟩ := passColon_ok_iff.mp hcolon
    split at h
    · cases h
    · next hvalue =>
      obtain ⟨lead, v, hl, hv, rfl⟩ := exists_of_skipValue hvalue
      cases h
      exact ⟨rfl, v, _, .mk ha hl hv, by simp⟩

variable {value : List Char → Reading α} {D : List Char → α → Prop} {a : α} {put : α → σ}
variable {key : String} {known : Option α}

/-- An answer to a known key is read by its value, if nothing was known. -/
theorem readMember_append (hr : Reads value D) (h : IsAnswer v answer) (hD : D v a)
    (hrest : Delimits rest) :
    readMember key false value put (answer ++ rest) = .ok (put a, rest) := by
  cases h with
  | @mk after lead ha hl _ =>
    have hcolon : passColon (after ++ ':' :: (lead ++ (v ++ rest))) = .ok (lead ++ (v ++ rest)) :=
      passColon_ok_iff.mpr ⟨after, ha, rfl⟩
    simp only [List.append_assoc, List.cons_append, readMember, hcolon, hr.complete hl hD hrest,
      Bool.false_eq_true, if_false]

/-- A member is read only if its key is not known yet. -/
theorem exists_of_readMember (hr : Reads value D)
    (h : readMember key known.isSome value put cs = .ok (s, rest)) :
    known = none ∧
      ∃ a v answer, IsAnswer v answer ∧ D v a ∧ s = put a ∧ cs = answer ++ rest := by
  unfold readMember at h
  split at h
  · cases h
  · next hknown =>
    split at h
    · cases h
    · next hcolon =>
      obtain ⟨after, ha, rfl⟩ := passColon_ok_iff.mp hcolon
      split at h
      · cases h
      · next hvalue =>
        obtain ⟨lead, v, hl, hD, rfl⟩ := hr.sound hvalue
        cases h
        exact ⟨Option.not_isSome_iff_eq_none.mp hknown, _, v, _, .mk ha hl (hr.isValue hD), hD, rfl,
          by simp⟩

end Single

/-! ## Keys -/

section Keys

variable {first : Bool} {cs rest : List Char} {key : String}

theorem nextQuote_end_iff : nextQuote first cs = .ok (false, rest) ↔
    ∃ before, Blank before ∧ cs = before ++ '}' :: rest := by
  constructor
  · intro h
    unfold nextQuote at h
    split at h
    · cases h
    · next c tail hcs =>
      obtain ⟨before, hb, rfl⟩ := exists_blank_of_skipBlanks hcs
      split at h
      · next hc =>
        subst hc
        cases h
        exact ⟨before, hb, rfl⟩
      · repeat' split at h
        all_goals cases h
  · rintro ⟨before, hb, rfl⟩
    rw [nextQuote, skipBlanks_append_cons hb rfl]
    simp only [if_true]

theorem nextQuote_first_iff : nextQuote true cs = .ok (true, rest) ↔
    ∃ before, Blank before ∧ cs = before ++ '"' :: rest := by
  constructor
  · intro h
    unfold nextQuote at h
    split at h
    · cases h
    · next c tail hcs =>
      obtain ⟨before, hb, rfl⟩ := exists_blank_of_skipBlanks hcs
      simp only [if_true] at h
      split at h
      · cases h
      · split at h
        · next hc =>
          subst hc
          cases h
          exact ⟨before, hb, rfl⟩
        · cases h
  · rintro ⟨before, hb, rfl⟩
    rw [nextQuote, skipBlanks_append_cons hb rfl]
    rfl

/-- Behind a member another key starts after a comma. -/
theorem nextQuote_more_iff : nextQuote false cs = .ok (true, rest) ↔
    ∃ after before, Blank after ∧ Blank before ∧ cs = after ++ ',' :: (before ++ '"' :: rest) := by
  constructor
  · intro h
    unfold nextQuote at h
    split at h
    · cases h
    · next c tail hcs =>
      obtain ⟨after, ha, rfl⟩ := exists_blank_of_skipBlanks hcs
      simp only [Bool.false_eq_true, if_false] at h
      split at h
      · cases h
      · split at h
        · next hc =>
          subst hc
          split at h
          · cases h
          · next d tail' htail =>
            obtain ⟨before, hb, rfl⟩ := exists_blank_of_skipBlanks htail
            split at h
            · next hd =>
              subst hd
              cases h
              exact ⟨after, before, ha, hb, rfl⟩
            · split at h <;> cases h
        · cases h
  · rintro ⟨after, before, ha, hb, rfl⟩
    rw [nextQuote, skipBlanks_append_cons ha rfl]
    simp only [skipBlanks_append_cons hb (show isBlank '"' = false from rfl)]
    rfl

/-- There is no key before the closing brace. -/
theorem nextKey_end_iff : nextKey first cs = .ok (none, rest) ↔
    ∃ before, Blank before ∧ cs = before ++ '}' :: rest := by
  rw [← @nextQuote_end_iff first]
  unfold nextKey
  split
  · next h => simp [h]
  · next h => simp [h]
  · next h =>
    rw [h]
    split <;> simp

/-- A key is what its quoted spelling spells. -/
theorem nextKey_some_iff : nextKey first cs = .ok (some key, rest) ↔
    ∃ spelling, Spells spelling key.toList ∧
      nextQuote first cs = .ok (true, spelling ++ '"' :: rest) := by
  constructor
  · intro h
    unfold nextKey at h
    split at h
    · cases h
    · cases h
    · next tail hquote =>
      split at h
      · cases h
      · next text rest' hread =>
        cases h
        obtain ⟨spelling, hkey, rfl⟩ := readString_ok_iff.mp hread
        rw [String.toList_ofList]
        exact ⟨spelling, hkey, hquote⟩
  · rintro ⟨spelling, hkey, hquote⟩
    simp only [nextKey, hquote, hkey.readString, String.ofList_toList]

end Keys

/-! ## Objects -/

section Objects

variable {σ : Type} {m : MemberReader σ} {takes : σ → Member → σ → Prop} {first : Bool}
variable {s s' : σ} {cs rest : List Char} {key : String}

/-- What a reader makes of each member. -/
structure MemberReader.Means (m : MemberReader σ) (takes : σ → Member → σ → Prop) : Prop where
  sound : ∀ {s s' : σ} {key : String} {cs rest : List Char}, m.read s key cs = .ok (s', rest) →
    ∃ v answer, IsAnswer v answer ∧ takes s (key, v) s' ∧ cs = answer ++ rest
  complete : ∀ {s s' : σ} {key : String} {v answer rest : List Char}, IsAnswer v answer →
    takes s (key, v) s' → Delimits rest → m.read s key (answer ++ rest) = .ok (s', rest)

/-- What members make of a value, one after another. -/
inductive Gathers (takes : σ → Member → σ → Prop) : σ → List Member → σ → Prop
  | nil {s : σ} : Gathers takes s [] s
  | cons {s s' t : σ} {m : Member} {ms : List Member} (h : takes s m s')
      (hs : Gathers takes s' ms t) : Gathers takes s (m :: ms) t

theorem gathers_nil_iff {t : σ} : Gathers takes s [] t ↔ t = s := by
  constructor
  · intro h
    cases h
    rfl
  · rintro rfl
    exact .nil

/-- The first member is taken, and the others from what it leaves known. -/
theorem gathers_cons_iff {t : σ} {x : Member} {ms : List Member} :
    Gathers takes s (x :: ms) t ↔ ∃ s', takes s x s' ∧ Gathers takes s' ms t := by
  constructor
  · intro h
    cases h with
    | cons h hs => exact ⟨_, h, hs⟩
  · rintro ⟨s', h, hs⟩
    exact .cons h hs

/-- The walk over members, step by step. -/
theorem readMembers_eq (m : MemberReader σ) (first : Bool) (s : σ) (cs : List Char) :
    readMembers m first s cs =
      match nextKey first cs with
      | .error r => .error r
      | .ok (none, rest) => .ok (s, rest)
      | .ok (some key, rest) =>
        match m.read s key rest with
        | .error r => .error r
        | .ok (s, rest) => readMembers m false s rest := by
  rw [readMembers]
  split
  · next h => rw [h]
  · next h => rw [h]
  · next h =>
    rw [h]
    dsimp only
    split
    · next hm => rw [hm]
    · next hm => rw [hm]

/-- A key and its answer are passed by a walk in which the member counts. -/
theorem readMembers_member (hm : m.Means takes) {spelling v answer tail : List Char}
    (hkey : Spells spelling key.toList)
    (hquote : nextQuote first cs = .ok (true, spelling ++ '"' :: (answer ++ tail)))
    (hanswer : IsAnswer v answer) (htakes : takes s (key, v) s') (htail : Delimits tail) :
    readMembers m first s cs = readMembers m false s' tail := by
  rw [readMembers_eq, nextKey_some_iff.mpr ⟨spelling, hkey, hquote⟩]
  simp only [hm.complete hanswer htakes htail]

/-- The members of an object are read exactly if they make something of the initial value. -/
theorem readMembers_ok_iff (hm : m.Means takes) : readMembers m first s cs = .ok (s', rest) ↔
    ∃ ms body, Series IsMember first ms body ∧ Gathers takes s ms s' ∧
      cs = body ++ '}' :: rest := by
  constructor
  · intro h
    -- Where the walk goes on, a member stood ahead: the first one, or one behind a comma.
    fun_induction readMembers m first s cs with
    | case1 => cases h
    | case2 first s cs tail hk =>
      cases h
      obtain ⟨before, hb, rfl⟩ := nextKey_end_iff.mp hk
      exact ⟨[], before, .done hb, .nil, rfl⟩
    | case3 => cases h
    | case4 first s cs key tail hk s₁ rest₁ hread ih =>
      obtain ⟨ms, body, hbody, hgathers, rfl⟩ := ih h
      obtain ⟨v, answer, hanswer, htakes, rfl⟩ := hm.sound hread
      obtain ⟨spelling, hkey, hquote⟩ := nextKey_some_iff.mp hk
      cases first with
      | true =>
        obtain ⟨before, hb, rfl⟩ := nextQuote_first_iff.mp hquote
        exact ⟨_, _, .first (.mk hb hkey hanswer) hbody, .cons htakes hgathers, by simp⟩
      | false =>
        obtain ⟨after, before, ha, hb, rfl⟩ := nextQuote_more_iff.mp hquote
        exact ⟨_, _, .more ha (.mk hb hkey hanswer) hbody, .cons htakes hgathers, by simp⟩
  · rintro ⟨ms, body, hbody, hgathers, rfl⟩
    induction hbody generalizing s with
    | done hb =>
      cases hgathers
      rw [readMembers_eq, nextKey_end_iff.mpr ⟨_, hb, rfl⟩]
    | first hmember hs ih =>
      cases hgathers with
      | cons htakes hgathers =>
        cases hmember with
        | mk hb hkey hanswer =>
          rw [← ih hgathers]
          refine readMembers_member hm hkey ?_ hanswer htakes (hs.delimits .object rest)
          exact nextQuote_first_iff.mpr ⟨_, hb, by simp⟩
    | more ha hmember hs ih =>
      cases hgathers with
      | cons htakes hgathers =>
        cases hmember with
        | mk hb hkey hanswer =>
          rw [← ih hgathers]
          refine readMembers_member hm hkey ?_ hanswer htakes (hs.delimits .object rest)
          exact nextQuote_more_iff.mpr ⟨_, _, ha, hb, by simp⟩

end Objects

/-! ## Lists -/

section Lists

variable {first : Bool} {cs rest : List Char}

/-- Only blanks may stand before the closing bracket. -/
theorem endList_ok_iff : endList cs = .ok rest ↔
    ∃ before, Blank before ∧ cs = before ++ ']' :: rest := by
  constructor
  · intro h
    unfold endList at h
    split at h
    · cases h
    · next c tail hcs =>
      obtain ⟨before, hb, rfl⟩ := exists_blank_of_skipBlanks hcs
      split at h
      · next hc =>
        subst hc
        cases h
        exact ⟨before, hb, rfl⟩
      · split at h
        · split at h <;> cases h
        · cases h
  · rintro ⟨before, hb, rfl⟩
    rw [endList, skipBlanks_append_cons hb rfl]
    rfl

/-- Only a list that ends has no next element. -/
theorem nextElement_none_iff : nextElement first cs = .ok none ↔
    ∃ before tail, Blank before ∧ cs = before ++ ']' :: tail := by
  constructor
  · intro h
    unfold nextElement at h
    split at h
    · cases h
    · next c tail hcs =>
      obtain ⟨before, hb, rfl⟩ := exists_blank_of_skipBlanks hcs
      split at h
      · next hc =>
        subst hc
        exact ⟨before, tail, hb, rfl⟩
      · split at h
        · cases h
        · split at h
          · split at h
            · cases h
            · split at h <;> cases h
          · cases h
  · rintro ⟨before, tail, hb, rfl⟩
    rw [nextElement, skipBlanks_append_cons hb rfl]
    rfl

/-- An element: blanks and a value that denotes something. -/
inductive IsElement {α : Type} (D : List Char → α → Prop) (a : α) : List Char → Prop
  | mk {before v : List Char} (hb : Blank before) (h : D v a) : IsElement D a (before ++ v)

/-- No blanks are needed in front of an element. -/
theorem IsElement.bare {α : Type} {D : List Char → α → Prop} {a : α} {v : List Char} (h : D v a) :
    IsElement D a v := by
  have helement : IsElement D a ([] ++ v) := .mk blank_nil h
  exact helement

/-- An element of a list is an entry, whatever its value denotes. -/
theorem IsElement.isEntry {α : Type} {D : List Char → α → Prop}
    (hD : ∀ {v : List Char} {a : α}, D v a → IsValue v) {a : α} {cs : List Char}
    (h : IsElement D a cs) : IsEntry .list cs := by
  cases h with
  | @mk before v hb h => exact ⟨[], before, v, .list, hb, hD h, rfl⟩

/-- The first element is found behind blanks. -/
theorem nextElement_first {before v : List Char} (hb : Blank before) (hv : IsValue v) :
    nextElement true (before ++ (v ++ rest)) = .ok (some (v ++ rest)) := by
  obtain ⟨c, tail, rfl, hc⟩ := hv.exists_cons
  have hclose : c ≠ ']' := by
    rintro rfl
    exact close_not_mem_valueStarts .list hc
  rw [nextElement, List.cons_append,
    skipBlanks_append_cons hb (not_isBlank_of_mem_valueStarts hc)]
  simp only [hclose, if_false, if_true]

/-- Every other element is found behind a comma. -/
theorem nextElement_more {after before v : List Char} (ha : Blank after) (hb : Blank before)
    (hv : IsValue v) :
    nextElement false (after ++ ',' :: (before ++ (v ++ rest))) = .ok (some (v ++ rest)) := by
  obtain ⟨c, tail, rfl, hc⟩ := hv.exists_cons
  have hclose : c ≠ ']' := by
    rintro rfl
    exact close_not_mem_valueStarts .list hc
  rw [nextElement, skipBlanks_append_cons ha rfl]
  simp only [List.cons_append, skipBlanks_append_cons hb (not_isBlank_of_mem_valueStarts hc)]
  simp [hclose]

/-- Before a first element stand blanks only. -/
theorem exists_of_nextElement_first {element : List Char}
    (h : nextElement true cs = .ok (some element)) :
    ∃ before, Blank before ∧ cs = before ++ element := by
  unfold nextElement at h
  split at h
  · cases h
  · next c tail hcs =>
    obtain ⟨before, hb, rfl⟩ := exists_blank_of_skipBlanks hcs
    simp only [if_true] at h
    split at h <;> cases h
    exact ⟨before, hb, rfl⟩

/-- Before every other element stands one comma. -/
theorem exists_of_nextElement_more {element : List Char}
    (h : nextElement false cs = .ok (some element)) :
    ∃ after before, Blank after ∧ Blank before ∧ cs = after ++ ',' :: (before ++ element) := by
  unfold nextElement at h
  split at h
  · cases h
  · next c tail hcs =>
    obtain ⟨after, ha, rfl⟩ := exists_blank_of_skipBlanks hcs
    simp only [Bool.false_eq_true, if_false] at h
    split at h
    · cases h
    · split at h
      · next hc =>
        subst hc
        split at h
        · cases h
        · next htail =>
          obtain ⟨before, hb, rfl⟩ := exists_blank_of_skipBlanks htail
          split at h <;> cases h
          exact ⟨after, before, ha, hb, rfl⟩
      · cases h

end Lists

end Lexis.Json
