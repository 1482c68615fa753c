/-!
# Sets of code points

A property of code points holds on runs of neighbouring numbers, so a set is kept as the sorted
array of the points at which membership flips: it starts outside, the first entry is the first
member, the second the first code point after that run, and so on.

Membership is the parity of the number of entries at or below the code point. The count is found
by halving (`rank`), one step per bit of the array's size, so the recursion is on the bits left.
-/

namespace Lexis.Text

/-- A set of code points, given by the sorted points at which membership flips. -/
structure CodePoints where
  flips : Array Nat

namespace CodePoints

/--
The number of entries at most `n`.

`seen` of them are known already, and fewer than `2 ^ bits` are still to be counted.
-/
def rank (flips : Array Nat) (n : Nat) : (bits seen : Nat) → Nat
  | 0, seen => seen
  | bits + 1, seen =>
    let next := seen + 2 ^ bits
    rank flips n bits (if next ≤ flips.size && flips.getD (next - 1) 0 ≤ n then next else seen)

/-- Whether the code point `n` is in the set: an odd number of flips is at or below it. -/
def contains (s : CodePoints) (n : Nat) : Bool :=
  rank s.flips n (s.flips.size.log2 + 1) 0 % 2 == 1

end CodePoints

end Lexis.Text
