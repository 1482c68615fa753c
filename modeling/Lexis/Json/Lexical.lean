import Lexis.Alphabet
import Lexis.Json.Fault

/-!
# Words and strings of JSON

The readers of the parts of a JSON text that hold no other values. Each takes the characters ahead
and gives what it read with the characters left, or what is wrong and where.

A string that is wanted is read strictly: surrogates have to pair up. A string that is skipped is
only checked for its form. In both, an escape takes at least one character, so the loops end.
-/

namespace Lexis.Json

def isBlank (c : Char) : Bool := c = ' ' || c = '\n' || c = '\t' || c = '\r'

/-- The characters after any blanks. -/
def skipBlanks (cs : List Char) : List Char := cs.dropWhile isBlank

theorem length_skipBlanks (cs : List Char) : (skipBlanks cs).length ≤ cs.length :=
  (List.dropWhile_sublist _).length_le

/-- Passes the letters of a word such as `null`. -/
def passWord : (letters : List Char) → List Char → Except Refusal (List Char)
  | [], cs => .ok cs
  | _ :: _, [] => refuseBefore .eofInValue []
  | w :: ws, c :: cs => if c = w then passWord ws cs else refuseUpon .expectedWord (c :: cs)

theorem length_of_passWord {letters cs rest : List Char} (h : passWord letters cs = .ok rest) :
    rest.length ≤ cs.length := by
  fun_induction passWord letters cs with
  | case1 => simp_all
  | case2 => simp [refuseBefore] at h
  | case3 _ _ _ ih => have := ih h; simp only [List.length_cons]; omega
  | case4 => simp [refuseUpon] at h

/-! ## Escapes -/

/-- Reads four hexadecimal digits. Shorter input ends the string, whatever it holds. -/
def readHex4 (cs : List Char) : Reading Nat :=
  match cs with
  | a :: b :: c :: d :: rest =>
    if [a, b, c, d].all Alphabet.isHexDigit then .ok (Alphabet.hexValue [a, b, c, d], rest)
    else .error ⟨.invalidEscape, ⟨cs, 4⟩⟩
  | _ =>
    if 4 ≤ Text.size cs then .error ⟨.invalidEscape, ⟨cs, 4⟩⟩
    else refuseBefore .eofInString []

theorem length_of_readHex4 {cs rest : List Char} {n : Nat} (h : readHex4 cs = .ok (n, rest)) :
    rest.length ≤ cs.length := by
  unfold readHex4 at h
  split at h
  · split at h
    · simp only [Except.ok.injEq, Prod.mk.injEq] at h
      simp only [← h.2, List.length_cons]
      omega
    · simp at h
  · split at h <;> simp [refuseBefore] at h

def isLeadSurrogate (n : Nat) : Bool := 0xD800 ≤ n && n ≤ 0xDBFF

def isTrailSurrogate (n : Nat) : Bool := 0xDC00 ≤ n && n ≤ 0xDFFF

/-- The scalar value of a surrogate pair. -/
def pairValue (lead trail : Nat) : Nat := 0x10000 + (lead - 0xD800) * 0x400 + (trail - 0xDC00)

/-- Reads the second half of a surrogate pair whose first half was `lead`. -/
def readTrail (lead : Nat) (cs : List Char) : Reading Char :=
  match cs with
  | [] => refuseBefore .eofInString []
  | '\\' :: [] => refuseBefore .eofInString []
  | '\\' :: 'u' :: cs =>
    match readHex4 cs with
    | .error r => .error r
    | .ok (trail, rest) =>
      if isTrailSurrogate trail then .ok (Char.ofNat (pairValue lead trail), rest)
      else refuseBefore .loneSurrogate rest
  | '\\' :: cs => refuseUpon .unexpectedEndOfHexEscape cs
  | cs => refuseUpon .unexpectedEndOfHexEscape cs

/-- Reads the number of an escape, and of its other half where it is a surrogate. -/
def readCodeUnits (cs : List Char) : Reading Char :=
  match readHex4 cs with
  | .error r => .error r
  | .ok (n, rest) =>
    if isTrailSurrogate n then refuseBefore .loneSurrogate rest
    else if isLeadSurrogate n then readTrail n rest
    else .ok (Char.ofNat n, rest)

/-- The character that a one-letter escape stands for. -/
def letterEscape? : Char → Option Char
  | '"' => some '"'
  | '\\' => some '\\'
  | '/' => some '/'
  | 'b' => some '\x08'
  | 'f' => some '\x0c'
  | 'n' => some '\n'
  | 'r' => some '\r'
  | 't' => some '\t'
  | _ => none

/-- Reads an escape whose backslash has just been passed. -/
def readEscape (cs : List Char) : Reading Char :=
  match cs with
  | [] => refuseBefore .eofInString []
  | c :: rest =>
    match letterEscape? c with
    | some e => .ok (e, rest)
    | none => if c = 'u' then readCodeUnits rest else refuseUpon .invalidEscape cs

/-- Skips an escape whose backslash has just been passed; surrogates need not pair up. -/
def skipEscape (cs : List Char) : Except Refusal (List Char) :=
  match cs with
  | [] => refuseBefore .eofInString []
  | c :: rest =>
    match letterEscape? c with
    | some _ => .ok rest
    | none =>
      if c = 'u' then
        match readHex4 rest with
        | .error r => .error r
        | .ok (_, rest) => .ok rest
      else refuseUpon .invalidEscape cs

theorem length_of_readTrail {lead : Nat} {cs rest : List Char} {c : Char}
    (h : readTrail lead cs = .ok (c, rest)) : rest.length ≤ cs.length := by
  unfold readTrail at h
  split at h
  · simp [refuseBefore] at h
  · simp [refuseBefore] at h
  · split at h
    · simp at h
    · next hx =>
      have := length_of_readHex4 hx
      split at h
      · simp_all
        omega
      · simp [refuseBefore] at h
  · simp [refuseUpon] at h
  · simp [refuseUpon] at h

theorem length_of_readCodeUnits {cs rest : List Char} {c : Char}
    (h : readCodeUnits cs = .ok (c, rest)) : rest.length ≤ cs.length := by
  unfold readCodeUnits at h
  split at h
  · simp at h
  · next hx =>
    have := length_of_readHex4 hx
    repeat' split at h
    · simp [refuseBefore] at h
    · have := length_of_readTrail h
      omega
    · simp_all

/-- An escape has a letter at least. -/
theorem length_of_readEscape {cs rest : List Char} {c : Char} (h : readEscape cs = .ok (c, rest)) :
    rest.length < cs.length := by
  unfold readEscape at h
  split at h
  · simp [refuseBefore] at h
  · repeat' split at h
    · simp_all
    · have := length_of_readCodeUnits h
      simp only [List.length_cons]
      omega
    · simp [refuseUpon] at h

theorem length_of_skipEscape {cs rest : List Char} (h : skipEscape cs = .ok rest) :
    rest.length < cs.length := by
  unfold skipEscape at h
  split at h
  · simp [refuseBefore] at h
  · repeat' split at h
    · simp_all
    · simp at h
    · next hx =>
      have := length_of_readHex4 hx
      simp only [Except.ok.injEq] at h
      subst h
      simp only [List.length_cons]
      omega
    · simp [refuseUpon] at h

/-! ## Strings -/

def isControl (c : Char) : Bool := c.toNat < 0x20

/-- Reads a string whose opening quote has just been passed. -/
def readString : List Char → Reading (List Char)
  | [] => refuseBefore .eofInString []
  | c :: cs =>
    if c = '"' then .ok ([], cs)
    else if c = '\\' then
      match _h : readEscape cs with
      | .error r => .error r
      | .ok (e, rest) =>
        match readString rest with
        | .error r => .error r
        | .ok (text, rest) => .ok (e :: text, rest)
    else if isControl c then refuseUpon .controlCharacter (c :: cs)
    else
      match readString cs with
      | .error r => .error r
      | .ok (text, rest) => .ok (c :: text, rest)
termination_by cs => cs.length
decreasing_by
  · have := length_of_readEscape _h
    simp only [List.length_cons]
    omega
  · simp

/-- Skips a string whose opening quote has just been passed. -/
def skipString : List Char → Except Refusal (List Char)
  | [] => refuseBefore .eofInString []
  | c :: cs =>
    if c = '"' then .ok cs
    else if c = '\\' then
      match _h : skipEscape cs with
      | .error r => .error r
      | .ok rest => skipString rest
    else if isControl c then refuseBefore .controlCharacter (c :: cs)
    else skipString cs
termination_by cs => cs.length
decreasing_by
  · have := length_of_skipEscape _h
    simp only [List.length_cons]
    omega
  · simp

/-- A string has its closing quote. -/
theorem length_of_readString {cs rest text : List Char} (h : readString cs = .ok (text, rest)) :
    rest.length < cs.length := by
  fun_induction readString cs generalizing text rest with
  | case1 => simp [refuseBefore] at h
  | case2 => simp_all
  | case3 => simp at h
  | case4 => simp at h
  | case5 _ _ _ he _ _ hs _ ih =>
    have := length_of_readEscape he
    have := ih hs
    simp_all
    omega
  | case6 => simp [refuseUpon] at h
  | case7 => simp at h
  | case8 _ _ _ _ _ _ _ hs ih =>
    have := ih hs
    simp_all
    omega

theorem length_of_skipString {cs rest : List Char} (h : skipString cs = .ok rest) :
    rest.length < cs.length := by
  fun_induction skipString cs with
  | case1 => simp [refuseBefore] at h
  | case2 => simp_all
  | case3 => simp at h
  | case4 _ _ he _ ih =>
    have := length_of_skipEscape he
    have := ih h
    simp only [List.length_cons]
    omega
  | case5 => simp [refuseBefore] at h
  | case6 _ _ _ _ _ ih =>
    have := ih h
    simp only [List.length_cons]
    omega

end Lexis.Json
