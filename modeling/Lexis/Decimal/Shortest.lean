import Lexis.Decimal.Binary64

/-!
# Shortest decimals

The fewest decimal digits that read back as a given floating-point number, and of those the nearest
to it. A decimal reads back if it lies between the midpoints to the neighbouring numbers; the
midpoints themselves count where the mantissa is even. For one, two, … digits the two values of that
decimal grid next to the number are tried in exact arithmetic; seventeen digits always suffice.

How the digits are laid out is a record of its own (`Layout`).
-/

namespace Lexis.Decimal

/-- The decimal `digits * 10 ^ exponent`. -/
structure Digits where
  digits : Nat
  exponent : Int
  deriving DecidableEq, Repr

/-- A ratio times a power of ten, as a ratio. -/
def timesPowerOfTen (num den : Nat) (e : Int) : Nat × Nat :=
  (num * Nat.pow 10 e.toNat, den * Nat.pow 10 (-e).toNat)

/-- The number of decimal digits of a number; one for zero. -/
def digitCount (n : Nat) : Nat := (Nat.toDigits 10 n).length

/-- The power of ten of the first digit of a positive ratio. -/
def leadingPower (num den : Nat) : Int :=
  if den ≤ num then (digitCount (num / den) : Int) - 1
  else -(digitCount ((den + num - 1) / num - 1) : Int)

/-- The midpoints around a number, as numerators over the number's own power of two and four. -/
def midpoints (x : Binary64) : Nat × Nat :=
  let below := if x.mantissa = Binary64.leastFull && -1074 < x.exponent then 1 else 2
  (4 * x.mantissa - below, 4 * x.mantissa + 2)

/-- Whether a decimal reads back as the number. -/
def readsBack (x : Binary64) (d : Digits) : Bool :=
  let (num, den) := timesPowerOfTen d.digits 1 d.exponent
  let (n, m) := timesPowerOfTwo num den (2 - x.exponent)
  let (low, high) := midpoints x
  if x.mantissa % 2 = 0 then low * m ≤ n && n ≤ high * m else low * m < n && n < high * m

/-- The nearest to a number of the decimals on a grid that read back, of the two next to it. -/
def onGrid? (x : Binary64) (k : Int) : Option Digits :=
  let (num, den) := x.ratio
  let (n, m) := timesPowerOfTen num den (-k)
  let low := n / m
  let lowReads := readsBack x ⟨low, k⟩
  let highReads := readsBack x ⟨low + 1, k⟩
  if lowReads && highReads then some ⟨roundHalfEven n m, k⟩
  else if lowReads then some ⟨low, k⟩
  else if highReads then some ⟨low + 1, k⟩
  else none

/-- The shortest decimal of a positive number, tried from `count` digits on. -/
def shortestFrom (x : Binary64) (lead : Int) : (tries count : Nat) → Digits
  | 0, _ => ⟨0, 0⟩
  | tries + 1, count =>
    (onGrid? x (lead + 1 - count)).getD (shortestFrom x lead tries (count + 1))

def shortest (x : Binary64) : Digits :=
  shortestFrom x (leadingPower x.ratio.1 x.ratio.2) 17 1

/-! ## Layout -/

/-- How digits are written out. -/
structure Layout where
  /-- The least power of ten of a first digit that is written positionally. -/
  minPositional : Int
  /-- The greatest one. -/
  maxPositional : Int
  /-- The sign of an exponent that is not negative. -/
  exponentPlus : String

/-- The digits without zeros at the end. -/
def significant (n : Nat) : String :=
  String.ofList ((toString n).toList.reverse.dropWhile (· = '0')).reverse

def zeros (n : Nat) : String := String.ofList (List.replicate n '0')

/-- Digits whose first one stands at the power `lead` of ten, written positionally. -/
def positional (digits : String) (lead : Int) : String :=
  if lead < 0 then "0." ++ zeros ((-lead).toNat - 1) ++ digits
  else
    let whole := lead.toNat + 1
    let count := digits.length
    if count ≤ whole then digits ++ zeros (whole - count) ++ ".0"
    else String.ofList (digits.toList.take whole) ++ "." ++ String.ofList (digits.toList.drop whole)

/-- Digits with a power of ten. -/
def scientific (layout : Layout) (digits : String) (lead : Int) : String :=
  let fraction := String.ofList (digits.toList.drop 1)
  let mantissa :=
    String.ofList (digits.toList.take 1) ++ (if fraction.isEmpty then "" else "." ++ fraction)
  mantissa ++ "e" ++ (if lead < 0 then "-" else layout.exponentPlus) ++ toString lead.natAbs

/-- The text of a non-negative number. -/
def Binary64.text (x : Binary64) (layout : Layout) : String :=
  if x.mantissa = 0 then "0.0"
  else
    let d := shortest x
    let lead := d.exponent + digitCount d.digits - 1
    let digits := significant d.digits
    if layout.minPositional ≤ lead && lead ≤ layout.maxPositional then positional digits lead
    else scientific layout digits lead

end Lexis.Decimal
