import Lexis.Cursor
import Lexis.LexicalError
import Lexis.TokenKind

/-!
# Number literals

A number starts with a decimal digit. A run of leading zeros counts as one zero; a lone leading zero
may be followed by a radix marker. Then come digits of the radix with at most one point and at most
one exponent, a letter `e` with an optional sign. A number stops before the first cluster that
cannot continue it; two points in a row never belong to a number.

Errors are noticed where the literal was rejected. The body is read by `body`, which remembers
what it has met (`Met`) and shortens the input at every step.
-/

namespace Lexis.Number

/-- The digits a number is written in. -/
inductive Radix where
  | binary
  | octal
  | decimal
  | hex
  deriving DecidableEq, Repr

namespace Radix

def ofMarker? (c : Char) : Option Radix :=
  if c = 'b' || c = 'B' then some binary
  else if c = 'o' || c = 'O' then some octal
  else if c = 'x' || c = 'X' then some hex
  else none

/-- Whether a cluster is a digit of the radix. -/
def accepts : Radix → Cluster → Bool
  | binary, g => g.isBinaryDigit
  | octal, g => g.isOctalDigit
  | decimal, g => g.isDecimalDigit
  | hex, g => g.isHexDigit

/-- The form of an integer written with the radix's marker, or without one for decimals. -/
def integerForm : Radix → NumberForm
  | binary => .binaryInteger
  | octal => .octalInteger
  | decimal => .decimalInteger
  | hex => .hexInteger

end Radix

/-! ## The body -/

/-- What has been met in the body of a number so far. -/
structure Met where
  point : Bool
  /-- The last cluster read is the point. -/
  endsInPoint : Bool
  /-- The digits after the exponent marker, once there is one. -/
  exponentDigits : Option Nat
  deriving DecidableEq, Repr

namespace Met

def nothing : Met := ⟨false, false, none⟩

def addPoint (m : Met) : Met := { m with point := true, endsInPoint := true }

def addExponent (m : Met) : Met := { m with exponentDigits := some 0 }

def addDigit (m : Met) : Met :=
  { m with endsInPoint := false, exponentDigits := m.exponentDigits.map (· + 1) }

end Met

/-- What follows an optional sign. -/
def afterSign : List Cluster → List Cluster
  | g :: rest => if g.is '+' || g.is '-' then rest else g :: rest
  | [] => []

theorem length_afterSign (gs : List Cluster) : (afterSign gs).length ≤ gs.length := by
  cases gs with
  | nil => simp [afterSign]
  | cons g rest =>
    simp only [afterSign]
    split <;> simp

/-- Reads the body of a number in a radix, up to the first cluster that cannot continue it. -/
def body (radix : Radix) (met : Met) : List Cluster → Except Fault (Met × List Cluster)
  | [] => .ok (met, [])
  | g :: rest =>
    if g.is '.' then
      -- two points in a row are an operator after the number
      if Cluster.nextIs rest '.' then .ok (met, g :: rest)
      else if met.point then .error ⟨.multipleDecimalPoints, g :: rest⟩
      else if met.exponentDigits.isSome then .error ⟨.decimalPointAfterExponent, g :: rest⟩
      else body radix met.addPoint rest
    else if g.is 'e' && radix ≠ .hex then
      if met.endsInPoint then .error ⟨.exponentAfterDecimalPoint, g :: rest⟩
      else if met.exponentDigits.isSome then .error ⟨.multipleExponents, g :: rest⟩
      else body radix met.addExponent (afterSign rest)
    else if radix.accepts g then body radix met.addDigit rest
    else .ok (met, g :: rest)
termination_by gs => gs.length
decreasing_by
  · simp
  · have := length_afterSign rest
    simp only [List.length_cons]
    omega
  · simp

/-! ## The whole number -/

/-- A number that was read: how it is written, its text, and what follows it. -/
structure Found where
  form : NumberForm
  text : String
  rest : List Cluster
  deriving DecidableEq, Repr

/--
Reads the body after the head and settles the form.

`integer` is the form if neither a point nor an exponent is met. The text is the head's followed by
the body as it stands.
-/
def afterHead (radix : Radix) (integer : NumberForm) (head : List Char) (gs : List Cluster) :
    Except Fault Found :=
  match body radix .nothing gs with
  | .error fault => .error fault
  | .ok (met, rest) =>
    let text := String.ofList (head ++ Cluster.charsOf (upTo gs rest))
    match met.exponentDigits with
    | none => .ok ⟨if met.point then .float else integer, text, rest⟩
    | some digits =>
      -- hexadecimals read the letter as a digit and never come here
      if radix ≠ .decimal then .error ⟨.exponentWithRadix, rest⟩
      else if digits = 0 then .error ⟨.emptyExponent, rest⟩
      else .ok ⟨.exponent, text, rest⟩

/-- What may not stand after several leading zeros: a radix marker, a point, or an exponent. -/
def rejectsZeros (gs : List Cluster) : Bool :=
  gs.head?.any fun g => g.isRadixMarker || g.is '.' || g.is 'e'

/-- The radix that the next cluster chooses after a leading zero. -/
def markedRadix? (gs : List Cluster) : Option (Radix × Cluster × List Cluster) :=
  match gs with
  | g :: rest => (g.single?.bind Radix.ofMarker?).map (·, g, rest)
  | [] => none

/-- Reads a number after its leading zero. -/
def afterZero (gs : List Cluster) : Except Fault Found :=
  let zeros := gs.takeWhile (·.is '0')
  let rest := gs.dropWhile (·.is '0')
  if !zeros.isEmpty && rejectsZeros rest then .error ⟨.multipleLeadingZeros, rest⟩
  else
    match markedRadix? rest with
    | some (radix, marker, rest) => afterHead radix radix.integerForm ('0' :: marker.chars) rest
    | none => afterHead .decimal .octalInteger ['0'] rest

/-- Reads a number whose first digit is the cluster `first`. -/
def read (first : Cluster) (gs : List Cluster) : Except Fault Found :=
  if first.is '0' then afterZero gs else afterHead .decimal .decimalInteger first.chars gs

/-! ## What is left is no longer than the input -/

/-- The body of a number may be empty. -/
theorem length_of_body {radix : Radix} {met met' : Met} {gs rest : List Cluster}
    (h : body radix met gs = .ok (met', rest)) : rest.length ≤ gs.length := by
  fun_induction body radix met gs with
  | case1 => simp_all
  | case2 => simp_all
  | case3 => simp at h
  | case4 => simp at h
  | case5 _ _ tail _ _ _ _ ih => have := ih h; simp only [List.length_cons]; omega
  | case6 => simp at h
  | case7 => simp at h
  | case8 _ _ tail _ _ _ _ ih =>
    have := ih h
    have := length_afterSign tail
    simp only [List.length_cons]
    omega
  | case9 _ _ tail _ _ _ ih => have := ih h; simp only [List.length_cons]; omega
  | case10 => simp_all

theorem length_of_afterHead {radix : Radix} {integer : NumberForm} {head : List Char}
    {gs : List Cluster} {found : Found} (h : afterHead radix integer head gs = .ok found) :
    found.rest.length ≤ gs.length := by
  unfold afterHead at h
  split at h
  · simp at h
  · next hb =>
    have := length_of_body hb
    simp only at h
    repeat' split at h
    all_goals simp_all
    all_goals subst h; exact this

/-- A marker is passed. -/
theorem length_of_markedRadix? {gs rest : List Cluster} {radix : Radix} {marker : Cluster}
    (h : markedRadix? gs = some (radix, marker, rest)) : rest.length < gs.length := by
  unfold markedRadix? at h
  split at h
  · obtain ⟨_, _, hr⟩ := Option.map_eq_some_iff.1 h
    simp only [Prod.mk.injEq] at hr
    simp [hr.2.2]
  · simp at h

/-- Behind the first digit there may be nothing to read. -/
theorem length_of_read {first : Cluster} {gs : List Cluster} {found : Found}
    (h : read first gs = .ok found) : found.rest.length ≤ gs.length := by
  unfold read at h
  split at h
  · unfold afterZero at h
    have hz : (gs.dropWhile (·.is '0')).length ≤ gs.length :=
      (List.dropWhile_sublist _).length_le
    simp only at h
    split at h
    · simp at h
    · split at h
      · next hm =>
        have := length_of_markedRadix? hm
        have := length_of_afterHead h
        omega
      · have := length_of_afterHead h
        omega
  · exact length_of_afterHead h

end Lexis.Number
