import Lexis.LineIndex
import Mathlib.Data.List.Count

/-!
# Where lines start

A line index holds the front of its text and the place behind every line feed. So the line that is
open behind some front part of the text has as many lines before it as that part has line feeds, and
starts behind the last of them (`starts_getElem?`).
-/

namespace Lexis.LineIndex

theorem startsFrom_append (offset : Nat) (cs ds : List Char) :
    startsFrom offset (cs ++ ds)
      = startsFrom offset cs ++ startsFrom (offset + Text.size cs) ds := by
  induction cs generalizing offset with
  | nil => rfl
  | cons c cs ih =>
    have hoffset : offset + Text.size (c :: cs) = offset + c.utf8Size + Text.size cs := by
      rw [Text.size_cons, Nat.add_assoc]
    rw [List.cons_append, startsFrom, startsFrom, ih, hoffset]
    split
    · rfl
    · rfl

/-- Every line feed starts a line. -/
theorem length_startsFrom (offset : Nat) (cs : List Char) :
    (startsFrom offset cs).length = cs.count '\n' := by
  induction cs generalizing offset with
  | nil => rfl
  | cons c cs ih =>
    rw [startsFrom, List.count_cons]
    by_cases hc : c = '\n'
    · rw [if_pos hc, List.length_cons, ih, if_pos (by simpa using hc)]
    · rw [if_neg hc, ih, if_neg (by simpa using hc), Nat.add_zero]

/-- **The line behind some whole lines starts where these end.** -/
theorem starts_getElem? {source : String} {lines rest : List Char}
    (hsource : source.toList = lines ++ rest) (hlines : lines = [] ∨ ∃ cs, lines = cs ++ ['\n']) :
    (ofText source).starts[lines.count '\n']? = some (Text.size lines) := by
  show (0 :: startsFrom 0 source.toList)[lines.count '\n']? = _
  rcases hlines with rfl | ⟨cs, rfl⟩
  · rfl
  · have hone : startsFrom (0 + Text.size cs) ['\n'] = [Text.size (cs ++ ['\n'])] := by
      rw [Nat.zero_add, Text.size_append]
      rfl
    have hcount : (cs ++ ['\n']).count '\n' = (startsFrom 0 cs).length + 1 := by
      rw [length_startsFrom, List.count_append]
      rfl
    rw [hsource, startsFrom_append, startsFrom_append, hone, hcount, List.getElem?_cons_succ,
      List.append_assoc, List.getElem?_append_right (Nat.le_refl _), Nat.sub_self]
    rfl

/-- A line that has a start has a range from there. -/
theorem exists_lineRange? {index : LineIndex} {n start : Nat} (h : index.starts[n]? = some start)
    (text : String) : ∃ stop, index.lineRange? text (n + 1) = some (start, stop) := by
  rw [lineRange?, h, Option.map_some]
  refine ⟨_, congrArg some (Prod.ext ?_ rfl)⟩
  -- a carriage return only changes where the line ends
  exact (apply_ite Prod.fst _ _ _).trans (ite_self start)

end Lexis.LineIndex
