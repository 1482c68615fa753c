/-!
# Binary floating point

Non-negative finite numbers of 64-bit binary floating point, as a mantissa of at most 53 bits times
a power of two, together with the rounding of an exact ratio to the nearest of them. All arithmetic
is that of natural numbers; an operation computes its exact result as a ratio and rounds once, to
even on a tie.
-/

namespace Lexis.Decimal

/-- The number `mantissa * 2 ^ exponent`. -/
structure Binary64 where
  mantissa : Nat
  exponent : Int
  deriving DecidableEq, Repr

/-- A ratio to the nearest integer, a half to the even one. -/
def roundHalfEven (num den : Nat) : Nat :=
  let low := num / den
  let twice := 2 * (num % den)
  if twice < den then low
  else if den < twice then low + 1
  else low + low % 2

/-- A ratio times a power of two, as a ratio. -/
def timesPowerOfTwo (num den : Nat) (e : Int) : Nat × Nat :=
  (num * Nat.pow 2 e.toNat, den * Nat.pow 2 (-e).toNat)

namespace Binary64

/-- The least mantissa of 53 bits. -/
def leastFull : Nat := 0x10000000000000

def zero : Binary64 := ⟨0, -1074⟩

/-- The number as a ratio. -/
def ratio (x : Binary64) : Nat × Nat := timesPowerOfTwo x.mantissa 1 x.exponent

/-- The power of two that leaves 53 bits before the point of a ratio, or the least one allowed. -/
def exponentFor (num den : Nat) : Int :=
  let guess := (num.log2 : Int) - den.log2 - 52
  let (n, d) := timesPowerOfTwo num den (-guess)
  max (if n / d < leastFull then guess - 1 else guess) (-1074)

/-- The nearest number to a ratio; nothing if that is beyond the largest finite one. -/
def ofRatio? (num den : Nat) : Option Binary64 :=
  if num = 0 then some zero
  else
    let e := exponentFor num den
    let (n, d) := timesPowerOfTwo num den (-e)
    let m := roundHalfEven n d
    let x : Binary64 := if m = 2 * leastFull then ⟨leastFull, e + 1⟩ else ⟨m, e⟩
    if 971 < x.exponent then none else some x

def ofNat? (n : Nat) : Option Binary64 := ofRatio? n 1

def mul? (x y : Binary64) : Option Binary64 :=
  ofRatio? (x.ratio.1 * y.ratio.1) (x.ratio.2 * y.ratio.2)

def div? (x y : Binary64) : Option Binary64 :=
  ofRatio? (x.ratio.1 * y.ratio.2) (x.ratio.2 * y.ratio.1)

/-- The largest power of ten below the largest finite number. -/
def maxPowerOfTen : Nat := 308

/--
A whole number times a power of ten, computed with one rounding for the number, one for the power,
and one for each operation.

A power too small for the range is applied in two steps; beyond the second nothing but zero is left.
Nothing is given if the result is beyond the largest finite number.
-/
def scaled? (n : Nat) (exponent : Int) : Option Binary64 := do
  let x ← ofNat? n
  let power (k : Nat) := ofNat? (Nat.pow 10 k)
  if x.mantissa = 0 then return zero
  else if 0 ≤ exponent then
    if exponent.toNat ≤ maxPowerOfTen then x.mul? (← power exponent.toNat) else none
  else
    let k := (-exponent).toNat
    if k ≤ maxPowerOfTen then x.div? (← power k)
    else
      let y ← x.div? (← power maxPowerOfTen)
      if k ≤ 2 * maxPowerOfTen then y.div? (← power (k - maxPowerOfTen)) else return zero

end Binary64

end Lexis.Decimal
