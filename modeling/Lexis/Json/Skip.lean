import Lexis.Json.Number

/-!
# Skipping values of JSON

A value that nobody wants is only checked for its form. Numbers may be of any size, surrogates need
not pair up, and nesting has no limit: the brackets still open are kept on a stack, so one loop
walks the whole value. Every turn of the loop passes at least one character.
-/

namespace Lexis.Json

/-- A bracket that holds values. -/
inductive Bracket where
  | list
  | object
  deriving DecidableEq, Repr

namespace Bracket

def close : Bracket → Char
  | list => ']'
  | object => '}'

/-- What is wrong when the input ends inside. -/
def eof : Bracket → Fault
  | list => .eofInList
  | object => .eofInObject

/-- What is wrong when something else than a comma or the closing bracket follows a value. -/
def expectedComma : Bracket → Fault
  | list => .expectedCommaOrBracket
  | object => .expectedCommaOrBrace

end Bracket

/-! ## Numbers -/

/-- Skips an exponent whose marker has just been passed. -/
def skipExponent (cs : List Char) : Except Refusal (List Char) :=
  let cs := (exponentSign cs).2
  if startsWithDigit cs then .ok (cs.dropWhile isDigit) else refuseUpon .invalidNumber cs

/-- Skips an exponent if there is one. -/
def skipAfterFraction (cs : List Char) : Except Refusal (List Char) :=
  match cs with
  | [] => .ok []
  | c :: rest => if isExponentMarker c then skipExponent rest else .ok cs

/-- Skips a fraction or an exponent, if there is one. -/
def skipAfterWhole (cs : List Char) : Except Refusal (List Char) :=
  match cs with
  | [] => .ok []
  | c :: rest =>
    if c = '.' then
      if startsWithDigit rest then skipAfterFraction (rest.dropWhile isDigit)
      else refuseUpon .invalidNumber rest
    else if isExponentMarker c then skipExponent rest
    else .ok cs

/-- Skips a number whose sign has been passed. -/
def skipNumber (cs : List Char) : Except Refusal (List Char) :=
  match cs with
  | [] => refuseUpon .invalidNumber []
  | c :: rest =>
    if c = '0' then
      if startsWithDigit rest then refuseUpon .invalidNumber rest else skipAfterWhole rest
    else if isDigit c then skipAfterWhole (rest.dropWhile isDigit)
    else refuseUpon .invalidNumber cs

/-- Skips the word, string or number that starts with `c`. -/
def skipScalar (c : Char) (rest : List Char) : Except Refusal (List Char) :=
  if c = 'n' then passWord ['u', 'l', 'l'] rest
  else if c = 't' then passWord ['r', 'u', 'e'] rest
  else if c = 'f' then passWord ['a', 'l', 's', 'e'] rest
  else if c = '-' then skipNumber rest
  else if isDigit c then skipNumber (c :: rest)
  else if c = '"' then skipString rest
  else refuseUpon .expectedValue (c :: rest)

/-! ## Brackets -/

/-- Passes a colon. -/
def passColon (cs : List Char) : Except Refusal (List Char) :=
  match skipBlanks cs with
  | [] => refuseBefore .eofInObject []
  | c :: rest => if c = ':' then .ok rest else refuseUpon .expectedColon (c :: rest)

/-- Skips a key and its colon. -/
def skipKey (cs : List Char) : Except Refusal (List Char) :=
  match skipBlanks cs with
  | [] => refuseBefore .eofInObject []
  | c :: rest =>
    if c = '"' then
      match skipString rest with
      | .error r => .error r
      | .ok rest => passColon rest
    else refuseUpon .keyNotAString (c :: rest)

/-- Goes to the value after an opened bracket or a comma: in an object, past its key. -/
def toValue (b : Bracket) (opened : List Bracket) (cs : List Char) :
    Except Refusal (List Bracket × List Char) :=
  match b with
  | .list => .ok (.list :: opened, cs)
  | .object =>
    match skipKey cs with
    | .error r => .error r
    | .ok rest => .ok (.object :: opened, rest)

/-- Goes on after a value: closes brackets, and passes the comma before the next value.

The brackets handed out are those still open; none is left once the outermost value has ended. -/
def afterValue : (opened : List Bracket) → List Char → Except Refusal (List Bracket × List Char)
  | [], cs => .ok ([], cs)
  | b :: opened, cs =>
    match skipBlanks cs with
    | [] => refuseBefore b.eof []
    | c :: rest =>
      if c = ',' then toValue b opened rest
      else if c = b.close then afterValue opened rest
      else refuseUpon b.expectedComma (c :: rest)

/-- Goes on after an opened bracket: it may close at once. -/
def afterOpen (b : Bracket) (opened : List Bracket) (cs : List Char) :
    Except Refusal (List Bracket × List Char) :=
  match skipBlanks cs with
  | [] => refuseBefore b.eof []
  | c :: rest => if c = b.close then afterValue opened rest else toValue b opened (c :: rest)

/-- Passes a scalar or an opening bracket, and goes on to where the next value is expected. -/
def skipStep (opened : List Bracket) (cs : List Char) :
    Except Refusal (List Bracket × List Char) :=
  match skipBlanks cs with
  | [] => refuseBefore .eofInValue []
  | c :: rest =>
    if c = '[' then afterOpen .list opened rest
    else if c = '{' then afterOpen .object opened rest
    else
      match skipScalar c rest with
      | .error r => .error r
      | .ok rest => afterValue opened rest

/-! ## What is left is shorter -/

theorem length_of_skipExponent {cs rest : List Char} (h : skipExponent cs = .ok rest) :
    rest.length ≤ cs.length := by
  have hs := length_exponentSign cs
  have hd := length_dropWhile_le isDigit (exponentSign cs).2
  unfold skipExponent at h
  simp only at h
  split at h
  · simp only [Except.ok.injEq] at h
    subst h
    omega
  · simp [refuseUpon] at h

theorem length_of_skipAfterFraction {cs rest : List Char} (h : skipAfterFraction cs = .ok rest) :
    rest.length ≤ cs.length := by
  unfold skipAfterFraction at h
  split at h
  · simp_all
  · split at h
    · have := length_of_skipExponent h
      simp only [List.length_cons]
      omega
    · simp_all

theorem length_of_skipAfterWhole {cs rest : List Char} (h : skipAfterWhole cs = .ok rest) :
    rest.length ≤ cs.length := by
  unfold skipAfterWhole at h
  split at h
  · simp_all
  · next tail =>
    repeat' split at h
    · have := length_of_skipAfterFraction h
      have := length_dropWhile_le isDigit tail
      simp only [List.length_cons]
      omega
    · simp [refuseUpon] at h
    · have := length_of_skipExponent h
      simp only [List.length_cons]
      omega
    · simp_all

/-- A number has a digit at least. -/
theorem length_of_skipNumber {cs rest : List Char} (h : skipNumber cs = .ok rest) :
    rest.length < cs.length := by
  unfold skipNumber at h
  split at h
  · simp [refuseUpon] at h
  · next tail =>
    repeat' split at h
    · simp [refuseUpon] at h
    · have := length_of_skipAfterWhole h
      simp only [List.length_cons]
      omega
    · have := length_of_skipAfterWhole h
      have := length_dropWhile_le isDigit tail
      simp only [List.length_cons]
      omega
    · simp [refuseUpon] at h

theorem length_of_skipScalar {c : Char} {cs rest : List Char} (h : skipScalar c cs = .ok rest) :
    rest.length ≤ cs.length := by
  unfold skipScalar at h
  repeat' split at h
  · exact length_of_passWord h
  · exact length_of_passWord h
  · exact length_of_passWord h
  · exact Nat.le_of_lt (length_of_skipNumber h)
  · have := length_of_skipNumber h
    simp only [List.length_cons] at this
    omega
  · exact Nat.le_of_lt (length_of_skipString h)
  · simp [refuseUpon] at h

theorem length_of_passColon {cs rest : List Char} (h : passColon cs = .ok rest) :
    rest.length < cs.length := by
  have hb := length_skipBlanks cs
  unfold passColon at h
  split at h
  · simp [refuseBefore] at h
  · next hc =>
    rw [hc, List.length_cons] at hb
    split at h
    · simp only [Except.ok.injEq] at h
      subst h
      omega
    · simp [refuseUpon] at h

/-- A key has its quotes. -/
theorem length_of_skipKey {cs rest : List Char} (h : skipKey cs = .ok rest) :
    rest.length < cs.length := by
  have hb := length_skipBlanks cs
  unfold skipKey at h
  split at h
  · simp [refuseBefore] at h
  · next hc =>
    rw [hc, List.length_cons] at hb
    repeat' split at h
    · simp at h
    · next hs =>
      have := length_of_skipString hs
      have := length_of_passColon h
      omega
    · simp [refuseUpon] at h

/-- The value itself is not skipped yet. -/
theorem length_of_toValue {b : Bracket} {opened opened' : List Bracket} {cs rest : List Char}
    (h : toValue b opened cs = .ok (opened', rest)) : rest.length ≤ cs.length := by
  unfold toValue at h
  split at h
  · simp_all
  · split at h
    · simp at h
    · next hk =>
      have := length_of_skipKey hk
      simp_all
      omega

/-- Brackets that close are passed, and there may be none. -/
theorem length_of_afterValue {opened opened' : List Bracket} {cs rest : List Char}
    (h : afterValue opened cs = .ok (opened', rest)) : rest.length ≤ cs.length := by
  fun_induction afterValue opened cs with
  | case1 => simp_all
  | case2 => simp [refuseBefore] at h
  | case3 _ _ cs _ hc =>
    have hb := length_skipBlanks cs
    rw [hc, List.length_cons] at hb
    have := length_of_toValue h
    omega
  | case4 _ _ cs _ hc _ ih =>
    have hb := length_skipBlanks cs
    rw [hc, List.length_cons] at hb
    have := ih h
    omega
  | case5 => simp [refuseUpon] at h

theorem length_of_afterOpen {b : Bracket} {opened opened' : List Bracket} {cs rest : List Char}
    (h : afterOpen b opened cs = .ok (opened', rest)) : rest.length ≤ cs.length := by
  have hb := length_skipBlanks cs
  unfold afterOpen at h
  split at h
  · simp [refuseBefore] at h
  · next hc =>
    rw [hc] at hb
    split at h
    · have := length_of_afterValue h
      simp only [List.length_cons] at hb
      omega
    · have := length_of_toValue h
      omega

/-- Every step passes the front of a value, so skipping ends. -/
theorem length_of_skipStep {opened opened' : List Bracket} {cs rest : List Char}
    (h : skipStep opened cs = .ok (opened', rest)) : rest.length < cs.length := by
  have hb := length_skipBlanks cs
  unfold skipStep at h
  split at h
  · simp [refuseBefore] at h
  · next hc =>
    rw [hc, List.length_cons] at hb
    repeat' split at h
    · have := length_of_afterOpen h
      omega
    · have := length_of_afterOpen h
      omega
    · simp at h
    · next hs =>
      have := length_of_skipScalar hs
      have := length_of_afterValue h
      omega

/-! ## Whole values -/

/-- Skips values up to where the outermost one ends. -/
def skipValues (opened : List Bracket) (cs : List Char) : Except Refusal (List Char) :=
  match _h : skipStep opened cs with
  | .error r => .error r
  | .ok ([], rest) => .ok rest
  | .ok (b :: opened, rest) => skipValues (b :: opened) rest
termination_by cs.length
decreasing_by exact length_of_skipStep _h

/-- Skips a value of any form. -/
def skipValue (cs : List Char) : Except Refusal (List Char) := skipValues [] cs

theorem length_of_skipValues {opened : List Bracket} {cs rest : List Char}
    (h : skipValues opened cs = .ok rest) : rest.length < cs.length := by
  fun_induction skipValues opened cs with
  | case1 => simp at h
  | case2 _ _ _ hs =>
    have := length_of_skipStep hs
    simp_all
  | case3 _ _ _ _ _ hs ih =>
    have := length_of_skipStep hs
    have := ih h
    omega

end Lexis.Json
