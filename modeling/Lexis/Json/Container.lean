import Lexis.Json.Skip

/-!
# Lists and objects of JSON

How the elements of a list and the members of an object are walked when their values are wanted. An
object is read by a rule for its members (`MemberReader`): what a key and the text after it make of
the value gathered so far. The rule says itself that it never goes back in the text, so the walk
over the members ends (`readMembers`).
-/

namespace Lexis.Json

/-! ## Wrong values -/

/-- Refuses what was read, as a value of the wrong sort. -/
def refuseMet {α : Type} (met : Met) (wanted : Wanted) (rest : List Char) : Except Refusal α :=
  refuseBefore (.wrongType met wanted) rest

/-- Refuses a word as a value of the wrong sort, once its letters have been passed. -/
def refuseWord {α : Type} (letters : List Char) (met : Met) (wanted : Wanted) (rest : List Char) :
    Except Refusal α :=
  match passWord letters rest with
  | .error r => .error r
  | .ok rest => refuseMet met wanted rest

/-- Refuses a number as a value of the wrong sort, once it has been read. -/
def refuseNumber {α : Type} (wanted : Wanted) (reading : Reading Number) : Except Refusal α :=
  match reading with
  | .error r => .error r
  | .ok (n, rest) => refuseMet n.met wanted rest

/-- Refuses a string as a value of the wrong sort, once it has been read. -/
def refuseString {α : Type} (wanted : Wanted) (rest : List Char) : Except Refusal α :=
  match readString rest with
  | .error r => .error r
  | .ok (text, rest) => refuseMet (.string (String.ofList text)) wanted rest

/-- Refuses the value ahead as one of the wrong sort. Scalars are read first, brackets are not. -/
def refuseValue {α : Type} (wanted : Wanted) (cs : List Char) : Except Refusal α :=
  match cs with
  | [] => refuseBefore .expectedValue []
  | c :: rest =>
    if c = 'n' then refuseWord ['u', 'l', 'l'] .null wanted rest
    else if c = 't' then refuseWord ['r', 'u', 'e'] (.boolean true) wanted rest
    else if c = 'f' then refuseWord ['a', 'l', 's', 'e'] (.boolean false) wanted rest
    else if c = '-' then refuseNumber wanted (readNumber true rest)
    else if isDigit c then refuseNumber wanted (readNumber false cs)
    else if c = '"' then refuseString wanted rest
    else if c = '[' then refuseMet .sequence wanted cs
    else if c = '{' then refuseMet .map wanted cs
    else refuseUpon .expectedValue cs

/-! ## Lists -/

/-- Goes to the next element of a list, or to its closing bracket. -/
def nextElement (first : Bool) (cs : List Char) : Except Refusal (Option (List Char)) :=
  match skipBlanks cs with
  | [] => refuseBefore .eofInList []
  | c :: rest =>
    if c = ']' then .ok none
    else if first then .ok (some (c :: rest))
    else if c = ',' then
      match skipBlanks rest with
      | [] => refuseBefore .eofInValue []
      | d :: tail =>
        if d = ']' then refuseUpon .trailingComma (d :: tail) else .ok (some (d :: tail))
    else refuseUpon .expectedCommaOrBracket (c :: rest)

/-- Passes the closing bracket of a list whose wanted elements have been read. -/
def endList (cs : List Char) : Except Refusal (List Char) :=
  match skipBlanks cs with
  | [] => refuseBefore .eofInList []
  | c :: rest =>
    if c = ']' then .ok rest
    else if c = ',' then
      match skipBlanks rest with
      | ']' :: tail => refuseUpon .trailingComma (']' :: tail)
      | tail => refuseUpon .trailingCharacters tail
    else refuseUpon .trailingCharacters (c :: rest)

/-- The element itself is not read yet. -/
theorem length_of_nextElement {first : Bool} {cs rest : List Char}
    (h : nextElement first cs = .ok (some rest)) : rest.length ≤ cs.length := by
  have hb := length_skipBlanks cs
  unfold nextElement at h
  split at h
  · simp [refuseBefore] at h
  · next tail hc =>
    have ht := length_skipBlanks tail
    rw [hc, List.length_cons] at hb
    repeat' split at h
    · simp at h
    · simp only [Except.ok.injEq, Option.some.injEq] at h
      subst h
      simpa using hb
    · simp [refuseBefore] at h
    · simp [refuseUpon] at h
    · next hd _ =>
      rw [hd] at ht
      simp only [Except.ok.injEq, Option.some.injEq] at h
      subst h
      omega
    · simp [refuseUpon] at h

/-- The closing bracket is passed. -/
theorem length_of_endList {cs rest : List Char} (h : endList cs = .ok rest) :
    rest.length < cs.length := by
  have hb := length_skipBlanks cs
  unfold endList at h
  split at h
  · simp [refuseBefore] at h
  · next hc =>
    rw [hc, List.length_cons] at hb
    repeat' split at h
    · simp only [Except.ok.injEq] at h
      subst h
      omega
    · simp [refuseUpon] at h
    · simp [refuseUpon] at h
    · simp [refuseUpon] at h

/-! ## Objects -/

/-- Goes behind the opening quote of the next key, or behind the closing brace. -/
def nextQuote (first : Bool) (cs : List Char) : Except Refusal (Bool × List Char) :=
  match skipBlanks cs with
  | [] => refuseBefore .eofInObject []
  | c :: rest =>
    if c = '}' then .ok (false, rest)
    else if first then
      if c = '"' then .ok (true, rest) else refuseUpon .keyNotAString (c :: rest)
    else if c = ',' then
      match skipBlanks rest with
      | [] => refuseBefore .eofInValue []
      | d :: tail =>
        if d = '"' then .ok (true, tail)
        else if d = '}' then refuseUpon .trailingComma (d :: tail)
        else refuseUpon .keyNotAString (d :: tail)
    else refuseUpon .expectedCommaOrBrace (c :: rest)

/-- Reads the next key of an object; nothing if the object ends. -/
def nextKey (first : Bool) (cs : List Char) : Except Refusal (Option String × List Char) :=
  match nextQuote first cs with
  | .error r => .error r
  | .ok (false, rest) => .ok (none, rest)
  | .ok (true, rest) =>
    match readString rest with
    | .error r => .error r
    | .ok (key, rest) => .ok (some (String.ofList key), rest)

theorem length_of_nextQuote {first more : Bool} {cs rest : List Char}
    (h : nextQuote first cs = .ok (more, rest)) : rest.length < cs.length := by
  have hb := length_skipBlanks cs
  unfold nextQuote at h
  split at h
  · simp [refuseBefore] at h
  · next tail hc =>
    have ht := length_skipBlanks tail
    rw [hc, List.length_cons] at hb
    repeat' split at h
    all_goals try simp [refuseBefore, refuseUpon] at h
    · obtain ⟨_, rfl⟩ := h
      omega
    · obtain ⟨_, rfl⟩ := h
      omega
    · next hd _ =>
      rw [hd, List.length_cons] at ht
      obtain ⟨_, rfl⟩ := h
      omega

theorem length_of_nextKey {first : Bool} {cs rest : List Char} {key : Option String}
    (h : nextKey first cs = .ok (key, rest)) : rest.length < cs.length := by
  unfold nextKey at h
  split at h
  · simp at h
  · next hq =>
    have := length_of_nextQuote hq
    simp_all
  · next hq =>
    have := length_of_nextQuote hq
    split at h
    · simp at h
    · next hs =>
      have := length_of_readString hs
      simp_all
      omega

/-- What the members of an object make of the value gathered so far. -/
structure MemberReader (σ : Type) where
  /-- Reads what follows a key. -/
  read : σ → (key : String) → List Char → Reading σ
  /-- Reading goes forward only. -/
  length_le : ∀ {s s' : σ} {key : String} {cs rest : List Char},
    read s key cs = .ok (s', rest) → rest.length ≤ cs.length

/-- Reads the members of an object up to its end. -/
def readMembers {σ : Type} (m : MemberReader σ) (first : Bool) (s : σ) (cs : List Char) :
    Reading σ :=
  match _hk : nextKey first cs with
  | .error r => .error r
  | .ok (none, rest) => .ok (s, rest)
  | .ok (some key, rest) =>
    match _hm : m.read s key rest with
    | .error r => .error r
    | .ok (s, rest) => readMembers m false s rest
termination_by cs.length
decreasing_by
  have := length_of_nextKey _hk
  have := m.length_le _hm
  omega

/-- The members of an object end with its brace, which is passed. -/
theorem length_of_readMembers {σ : Type} {m : MemberReader σ} {first : Bool} {s s' : σ}
    {cs rest : List Char} (h : readMembers m first s cs = .ok (s', rest)) :
    rest.length < cs.length := by
  fun_induction readMembers m first s cs with
  | case1 => simp at h
  | case2 _ _ _ _ hk =>
    have := length_of_nextKey hk
    simp_all
  | case3 => simp at h
  | case4 _ _ _ _ _ hk _ _ hm ih =>
    have := length_of_nextKey hk
    have := m.length_le hm
    have := ih h
    omega

/-- Skips the colon and value of a member that nobody wants. -/
def skipMember {σ : Type} (s : σ) (cs : List Char) : Reading σ :=
  match passColon cs with
  | .error r => .error r
  | .ok rest =>
    match skipValue rest with
    | .error r => .error r
    | .ok rest => .ok (s, rest)

/-- Where a repeated key is noticed: behind the key, or behind the closing brace if that follows. -/
def repeatedKeyStop (cs : List Char) : Stop :=
  match skipBlanks cs with
  | '}' :: rest => .before rest
  | rest => .before rest

/-- Reads the colon and value of a wanted member, which may stand only once. -/
def readMember {σ α : Type} (key : String) (present : Bool) (value : List Char → Reading α)
    (put : α → σ) (cs : List Char) : Reading σ :=
  if present then .error ⟨.duplicateField key, repeatedKeyStop cs⟩
  else
    match passColon cs with
    | .error r => .error r
    | .ok rest =>
      match value rest with
      | .error r => .error r
      | .ok (a, rest) => .ok (put a, rest)

theorem length_of_skipMember {σ : Type} {s s' : σ} {cs rest : List Char}
    (h : skipMember s cs = .ok (s', rest)) : rest.length ≤ cs.length := by
  unfold skipMember at h
  split at h
  · simp at h
  · next hc =>
    have := length_of_passColon hc
    split at h
    · simp at h
    · next hv =>
      have := length_of_skipValues hv
      simp_all
      omega

/-- A member goes on if its value does. -/
theorem length_of_readMember {σ α : Type} {key : String} {present : Bool}
    {value : List Char → Reading α} {put : α → σ} {cs rest : List Char} {s : σ}
    (hv : ∀ {cs rest : List Char} {a : α}, value cs = .ok (a, rest) → rest.length ≤ cs.length)
    (h : readMember key present value put cs = .ok (s, rest)) : rest.length ≤ cs.length := by
  unfold readMember at h
  split at h
  · simp at h
  · split at h
    · simp at h
    · next hc =>
      have := length_of_passColon hc
      split at h
      · simp at h
      · next ha =>
        have hle := hv ha
        simp only [Except.ok.injEq, Prod.mk.injEq] at h
        rw [← h.2]
        omega

end Lexis.Json
