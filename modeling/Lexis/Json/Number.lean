import Lexis.Json.Lexical

/-!
# Numbers of JSON

A number that is wanted keeps its exact value as long as it is a whole number of 64 bits, signed if
it is negative. A negative zero, a fraction, an exponent and anything larger is a floating-point
number: the digits are gathered while they fit 64 bits, further ones only count towards the
exponent, and the result has to be finite.
-/

namespace Lexis.Json

open Decimal (Binary64)

/-- A number that was read. -/
inductive Number where
  | whole (n : Nat)
  /-- The number `-n`. -/
  | negated (n : Nat)
  | float (negative : Bool) (magnitude : Binary64)
  deriving DecidableEq, Repr

namespace Number

def met : Number → Met
  | whole n => .integer n
  | negated n => .integer (-(n : Int))
  | float negative x => .float negative x

end Number

def isDigit (c : Char) : Bool := Alphabet.isDecimalDigit c

def digitValue (c : Char) : Nat := c.toNat - '0'.toNat

def startsWithDigit (cs : List Char) : Bool := cs.head?.any isDigit

/-- The greatest magnitude of a negative whole number of 64 bits. -/
def maxNegated : Nat := 0x8000000000000000

/-- The greatest whole number of 64 bits. -/
def maxWhole : Nat := 0xFFFFFFFFFFFFFFFF

/-- Beyond this an exponent is not gathered any further. -/
def maxExponent : Nat := 0x7FFFFFFF

/-- The floating-point number of gathered digits and an exponent. -/
def floatOf (negative : Bool) (digits : Nat) (exponent : Int) (rest : List Char) :
    Reading Number :=
  match Binary64.scaled? digits exponent with
  | some x => .ok (.float negative x, rest)
  | none => refuseBefore .numberOutOfRange rest

/-- Reads the digits of an exponent, `value` being those read so far. -/
def exponentDigits (negative : Bool) (digits : Nat) (start : Int) (minus : Bool) (value : Nat) :
    List Char → Reading Number
  | [] => floatOf negative digits (if minus then start - value else start + value) []
  | c :: rest =>
    if isDigit c then
      let next := value * 10 + digitValue c
      if maxExponent < next then
        if digits ≠ 0 && !minus then refuseBefore .numberOutOfRange rest
        else .ok (.float negative .zero, rest.dropWhile isDigit)
      else exponentDigits negative digits start minus next rest
    else floatOf negative digits (if minus then start - value else start + value) (c :: rest)

/-- Whether an exponent has a minus sign, and what follows its sign. -/
def exponentSign : List Char → Bool × List Char
  | '+' :: rest => (false, rest)
  | '-' :: rest => (true, rest)
  | cs => (false, cs)

/-- Reads an exponent whose marker has just been passed. -/
def readExponent (negative : Bool) (digits : Nat) (start : Int) (cs : List Char) :
    Reading Number :=
  let (minus, cs) := exponentSign cs
  match cs with
  | [] => refuseBefore .eofInValue []
  | c :: _ =>
    if isDigit c then exponentDigits negative digits start minus 0 cs
    else refuseUpon .invalidNumber cs

def isExponentMarker (c : Char) : Bool := c = 'e' || c = 'E'

/-- Reads an exponent if there is one. -/
def afterFraction (negative : Bool) (digits : Nat) (exponent : Int) (cs : List Char) :
    Reading Number :=
  match cs with
  | [] => floatOf negative digits exponent []
  | c :: rest =>
    if isExponentMarker c then readExponent negative digits exponent rest
    else floatOf negative digits exponent cs

/-- Reads the digits after a point, `count` of them having been gathered so far. -/
def fraction (negative : Bool) (digits : Nat) (exponent : Int) (count : Nat) :
    List Char → Reading Number
  | [] =>
    if count = 0 then refuseBefore .eofInValue []
    else floatOf negative digits (exponent - count) []
  | c :: rest =>
    if isDigit c then
      let next := digits * 10 + digitValue c
      if maxWhole < next then
        afterFraction negative digits (exponent - count) (rest.dropWhile isDigit)
      else fraction negative next exponent (count + 1) rest
    else if count = 0 then refuseUpon .invalidNumber (c :: rest)
    else afterFraction negative digits (exponent - count) (c :: rest)

/-- What gathered digits without a point or an exponent stand for. -/
def settle (negative : Bool) (digits : Nat) : Number :=
  if !negative then .whole digits
  else if 0 < digits && digits ≤ maxNegated then .negated digits
  else .float true ((Binary64.ofNat? digits).getD .zero)

/-- Reads a fraction or an exponent after the whole digits, if there is one. -/
def afterWhole (negative : Bool) (digits : Nat) (cs : List Char) : Reading Number :=
  match cs with
  | [] => .ok (settle negative digits, [])
  | c :: rest =>
    if c = '.' then fraction negative digits 0 0 rest
    else if isExponentMarker c then readExponent negative digits 0 rest
    else .ok (settle negative digits, cs)

/-- Reads what follows gathered digits that fill 64 bits: each further digit is a power of ten. -/
def longWhole (negative : Bool) (digits : Nat) (cs : List Char) : Reading Number :=
  let exponent := (cs.takeWhile isDigit).length
  match cs.dropWhile isDigit with
  | [] => floatOf negative digits exponent []
  | c :: rest =>
    if c = '.' then fraction negative digits exponent 0 rest
    else if isExponentMarker c then readExponent negative digits exponent rest
    else floatOf negative digits exponent (c :: rest)

/-- Reads the whole digits, `digits` being those gathered so far. -/
def wholeDigits (negative : Bool) (digits : Nat) : List Char → Reading Number
  | [] => afterWhole negative digits []
  | c :: rest =>
    if isDigit c then
      let next := digits * 10 + digitValue c
      if maxWhole < next then longWhole negative digits (c :: rest)
      else wholeDigits negative next rest
    else afterWhole negative digits (c :: rest)

/-- Reads a number whose sign has been passed. A leading zero stands alone. -/
def readNumber (negative : Bool) (cs : List Char) : Reading Number :=
  match cs with
  | [] => refuseBefore .eofInValue []
  | c :: rest =>
    if c = '0' then
      if startsWithDigit rest then refuseUpon .invalidNumber rest else afterWhole negative 0 rest
    else if isDigit c then wholeDigits negative (digitValue c) rest
    else refuseUpon .invalidNumber cs

/-! ## What is left is no longer than the input -/

theorem length_of_floatOf {negative : Bool} {digits : Nat} {exponent : Int} {cs rest : List Char}
    {n : Number} (h : floatOf negative digits exponent cs = .ok (n, rest)) :
    rest.length ≤ cs.length := by
  unfold floatOf at h
  split at h
  · simp_all
  · simp [refuseBefore] at h

theorem length_dropWhile_le (p : Char → Bool) (cs : List Char) :
    (cs.dropWhile p).length ≤ cs.length := (List.dropWhile_sublist p).length_le

/-- Digits of an exponent are gathered until none is left. -/
theorem length_of_exponentDigits {negative minus : Bool} {digits value : Nat} {start : Int}
    {cs rest : List Char} {n : Number}
    (h : exponentDigits negative digits start minus value cs = .ok (n, rest)) :
    rest.length ≤ cs.length := by
  fun_induction exponentDigits negative digits start minus value cs with
  | case1 => exact length_of_floatOf h
  | case2 => simp [refuseBefore] at h
  | case3 _ _ tail =>
    have := length_dropWhile_le isDigit tail
    simp_all
    omega
  | case4 _ _ _ _ _ _ ih => have := ih h; simp only [List.length_cons]; omega
  | case5 => exact length_of_floatOf h

theorem length_exponentSign (cs : List Char) : (exponentSign cs).2.length ≤ cs.length := by
  unfold exponentSign
  split <;> simp

theorem length_of_readExponent {negative : Bool} {digits : Nat} {start : Int} {cs rest : List Char}
    {n : Number} (h : readExponent negative digits start cs = .ok (n, rest)) :
    rest.length ≤ cs.length := by
  have hs := length_exponentSign cs
  unfold readExponent at h
  simp only at h
  split at h
  · simp [refuseBefore] at h
  · split at h
    · have := length_of_exponentDigits h
      omega
    · simp [refuseUpon] at h

theorem length_of_afterFraction {negative : Bool} {digits : Nat} {exponent : Int}
    {cs rest : List Char} {n : Number}
    (h : afterFraction negative digits exponent cs = .ok (n, rest)) :
    rest.length ≤ cs.length := by
  unfold afterFraction at h
  split at h
  · exact length_of_floatOf h
  · split at h
    · have := length_of_readExponent h
      simp only [List.length_cons]
      omega
    · exact length_of_floatOf h

theorem length_of_fraction {negative : Bool} {digits count : Nat} {exponent : Int}
    {cs rest : List Char} {n : Number}
    (h : fraction negative digits exponent count cs = .ok (n, rest)) :
    rest.length ≤ cs.length := by
  fun_induction fraction negative digits exponent count cs with
  | case1 => simp [refuseBefore] at h
  | case2 => exact length_of_floatOf h
  | case3 _ _ _ tail =>
    have := length_of_afterFraction h
    have := length_dropWhile_le isDigit tail
    simp only [List.length_cons]
    omega
  | case4 _ _ _ _ _ _ _ ih => have := ih h; simp only [List.length_cons]; omega
  | case5 => simp [refuseUpon] at h
  | case6 => exact length_of_afterFraction h

theorem length_of_afterWhole {negative : Bool} {digits : Nat} {cs rest : List Char} {n : Number}
    (h : afterWhole negative digits cs = .ok (n, rest)) : rest.length ≤ cs.length := by
  unfold afterWhole at h
  split at h
  · simp_all
  · repeat' split at h
    · have := length_of_fraction h
      simp only [List.length_cons]
      omega
    · have := length_of_readExponent h
      simp only [List.length_cons]
      omega
    · simp_all

theorem length_of_longWhole {negative : Bool} {digits : Nat} {cs rest : List Char} {n : Number}
    (h : longWhole negative digits cs = .ok (n, rest)) : rest.length ≤ cs.length := by
  have hd := length_dropWhile_le isDigit cs
  unfold longWhole at h
  simp only at h
  split at h
  · have := length_of_floatOf h
    simp_all
  · next hc =>
    rw [hc, List.length_cons] at hd
    repeat' split at h
    · have := length_of_fraction h
      omega
    · have := length_of_readExponent h
      omega
    · have := length_of_floatOf h
      simp only [List.length_cons] at this
      omega

/-- Digits that do not fit are read on as those of a float. -/
theorem length_of_wholeDigits {negative : Bool} {digits : Nat} {cs rest : List Char} {n : Number}
    (h : wholeDigits negative digits cs = .ok (n, rest)) : rest.length ≤ cs.length := by
  fun_induction wholeDigits negative digits cs with
  | case1 => exact length_of_afterWhole h
  | case2 => exact length_of_longWhole h
  | case3 _ _ _ _ _ _ ih => have := ih h; simp only [List.length_cons]; omega
  | case4 => exact length_of_afterWhole h

/-- A number has a digit at least. -/
theorem length_of_readNumber {negative : Bool} {cs rest : List Char} {n : Number}
    (h : readNumber negative cs = .ok (n, rest)) : rest.length < cs.length := by
  unfold readNumber at h
  split at h
  · simp [refuseBefore] at h
  · repeat' split at h
    · simp [refuseUpon] at h
    · have := length_of_afterWhole h
      simp only [List.length_cons]
      omega
    · have := length_of_wholeDigits h
      simp only [List.length_cons]
      omega
    · simp [refuseUpon] at h

end Lexis.Json
