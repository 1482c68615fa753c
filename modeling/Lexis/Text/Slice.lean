import Lexis.Text.Size

/-!
# Slices by bytes

Offsets into a text count the bytes of its UTF-8 form, while the text itself is kept as its scalar
values. A slice exists only where both ends stand between two scalars.
-/

namespace Lexis.Text

/-- The text after its first `n` bytes; nothing if they end inside a scalar or past the text. -/
def dropBytes? : (n : Nat) → List Char → Option (List Char)
  | 0, cs => some cs
  | _ + 1, [] => none
  | n + 1, c :: cs => if c.utf8Size ≤ n + 1 then dropBytes? (n + 1 - c.utf8Size) cs else none

/-- The first `n` bytes of a text; nothing if they end inside a scalar or past the text. -/
def takeBytes? : (n : Nat) → List Char → Option (List Char)
  | 0, _ => some []
  | _ + 1, [] => none
  | n + 1, c :: cs =>
    if c.utf8Size ≤ n + 1 then (takeBytes? (n + 1 - c.utf8Size) cs).map (c :: ·) else none

/-- The bytes from `start` up to, not including, `stop`. -/
def slice? (start stop : Nat) (cs : List Char) : Option (List Char) :=
  if start ≤ stop then (dropBytes? start cs).bind (takeBytes? (stop - start)) else none

/-- The scalar value that starts at a byte offset. -/
def charAt? (offset : Nat) (cs : List Char) : Option Char :=
  (dropBytes? offset cs).bind List.head?

/-- Bytes may be dropped in two goes. -/
theorem dropBytes?_add {m n : Nat} {cs ds : List Char} (h : dropBytes? m cs = some ds) :
    dropBytes? (m + n) cs = dropBytes? n ds := by
  fun_induction dropBytes? m cs with
  | case1 cs => simp_all
  | case2 => simp at h
  | case3 m c cs hle ih =>
    rw [show m + 1 + n = m + n + 1 by omega, dropBytes?, if_pos (by omega), ← ih h]
    congr 1
    omega
  | case4 => simp at h

/-- Dropping as many bytes as a text has leaves what was written after it. -/
@[simp] theorem dropBytes?_append (cs ds : List Char) :
    dropBytes? (size cs) (cs ++ ds) = some ds := by
  induction cs with
  | nil => simp [dropBytes?]
  | cons c cs ih =>
    have hc : 0 < c.utf8Size := c.utf8Size_pos
    obtain ⟨n, hn⟩ : ∃ n, size (c :: cs) = n + 1 := ⟨c.utf8Size + size cs - 1, by simp; omega⟩
    rw [hn, List.cons_append, dropBytes?, if_pos (by simp at hn; omega)]
    rw [show n + 1 - c.utf8Size = size cs by simp at hn; omega, ih]

/-- Taking as many bytes as a text has gives that text. -/
@[simp] theorem takeBytes?_append (cs ds : List Char) :
    takeBytes? (size cs) (cs ++ ds) = some cs := by
  induction cs with
  | nil => simp [takeBytes?]
  | cons c cs ih =>
    have hc : 0 < c.utf8Size := c.utf8Size_pos
    obtain ⟨n, hn⟩ : ∃ n, size (c :: cs) = n + 1 := ⟨c.utf8Size + size cs - 1, by simp; omega⟩
    rw [hn, List.cons_append, takeBytes?, if_pos (by simp at hn; omega)]
    rw [show n + 1 - c.utf8Size = size cs by simp at hn; omega, ih]
    rfl

/-- The slice between two marks of a text is what is written between them. -/
theorem slice?_append (as bs cs : List Char) :
    slice? (size as) (size as + size bs) (as ++ bs ++ cs) = some bs := by
  simp [slice?, List.append_assoc]

/-- Only whole scalars can be dropped. -/
theorem dropBytes?_of_lt {n : Nat} {c : Char} (cs : List Char) (hpos : 0 < n)
    (hlt : n < c.utf8Size) : dropBytes? n (c :: cs) = none := by
  cases n with
  | zero => exact absurd hpos (Nat.lt_irrefl 0)
  | succ n => rw [dropBytes?, if_neg (Nat.not_le_of_lt hlt)]

/-- The scalar that starts at the last byte before a place, if one does. -/
theorem charAt?_pred (cs : List Char) (c : Char) (ds : List Char) :
    charAt? (size (cs ++ [c]) - 1) (cs ++ [c] ++ ds) = if c.utf8Size = 1 then some c else none := by
  have hpos := c.utf8Size_pos
  have hoffset : size (cs ++ [c]) - 1 = size cs + (c.utf8Size - 1) := by
    rw [size_append, size_cons, size_nil]
    omega
  rw [charAt?, hoffset, List.append_assoc, dropBytes?_add (dropBytes?_append cs ([c] ++ ds))]
  by_cases hone : c.utf8Size = 1
  · rw [if_pos hone, hone]
    rfl
  · rw [if_neg hone, List.singleton_append, dropBytes?_of_lt ds (by omega) (by omega)]
    rfl

end Lexis.Text
