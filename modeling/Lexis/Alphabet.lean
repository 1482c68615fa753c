import Lexis.Text.Cluster

/-!
# Alphabet

The character classes of the language's lexical grammar. Digits and markers are ASCII, and a cluster
belongs to such a class only if it is that single scalar value: a digit under a combining mark is no
digit. An identifier, on the other hand, may hold any cluster that is free of the terminators.
-/

namespace Lexis

namespace Alphabet

/-- Characters that can never stand inside an identifier. -/
def identifierTerminators : List Char :=
  [' ', '\t', '\r', '\n', ';', ':', ',', '(', ')', '{', '}', '[', ']', '.', '=', '?', '!', '*',
   '/', '%', '^', '|', '&', '~', '>', '<', '+', '-', '\'', '"', '`']

def isIdentifierTerminator (c : Char) : Bool := identifierTerminators.contains c

def isDecimalDigit (c : Char) : Bool := '0' ≤ c && c ≤ '9'

def isHexDigit (c : Char) : Bool :=
  isDecimalDigit c || ('a' ≤ c && c ≤ 'f') || ('A' ≤ c && c ≤ 'F')

def isOctalDigit (c : Char) : Bool := '0' ≤ c && c ≤ '7'

def isBinaryDigit (c : Char) : Bool := c = '0' || c = '1'

/-- The characters between two others are those whose numbers lie between theirs. -/
theorem mem_of_between {low high c : Char} (h : (low ≤ c && c ≤ high) = true) :
    c ∈ (List.range' low.toNat (high.toNat + 1 - low.toNat)).map Char.ofNat := by
  obtain ⟨hlow, hhigh⟩ := Bool.and_eq_true_iff.mp h
  have hlow' : low.toNat ≤ c.toNat := of_decide_eq_true hlow
  have hhigh' : c.toNat ≤ high.toNat := of_decide_eq_true hhigh
  have hc : Char.ofNat c.toNat ∈
      (List.range' low.toNat (high.toNat + 1 - low.toNat)).map Char.ofNat :=
    List.mem_map_of_mem (List.mem_range'_1.mpr (by omega))
  rwa [Char.ofNat_toNat] at hc

/-- There are ten decimal digits. -/
theorem mem_of_isDecimalDigit {c : Char} (h : isDecimalDigit c = true) :
    c ∈ ['0', '1', '2', '3', '4', '5', '6', '7', '8', '9'] :=
  mem_of_between h

theorem mem_of_isOctalDigit {c : Char} (h : isOctalDigit c = true) :
    c ∈ ['0', '1', '2', '3', '4', '5', '6', '7'] :=
  mem_of_between h

theorem mem_of_isBinaryDigit {c : Char} (h : isBinaryDigit c = true) : c ∈ ['0', '1'] := by
  simpa [isBinaryDigit] using h

/-- The letters of hexadecimal digits have either case. -/
theorem mem_of_isHexDigit {c : Char} (h : isHexDigit c = true) :
    c ∈ ['0', '1', '2', '3', '4', '5', '6', '7', '8', '9'] ++ ['a', 'b', 'c', 'd', 'e', 'f']
      ++ ['A', 'B', 'C', 'D', 'E', 'F'] := by
  rcases Bool.or_eq_true_iff.mp h with h | hupper
  · rcases Bool.or_eq_true_iff.mp h with hdecimal | hlower
    · exact List.mem_append_left _ (List.mem_append_left _ (mem_of_isDecimalDigit hdecimal))
    · exact List.mem_append_left _ (List.mem_append_right _ (mem_of_between hlower))
  · exact List.mem_append_right _ (mem_of_between hupper)

/-- The letters that choose a radix after a leading zero. -/
def isRadixMarker (c : Char) : Bool := ['b', 'B', 'o', 'O', 'x', 'X'].contains c

/-- The value of a hexadecimal digit in either letter case. -/
def hexDigitValue (c : Char) : Nat :=
  if isDecimalDigit c then c.toNat - '0'.toNat
  else if 'a' ≤ c then c.toNat - 'a'.toNat + 10
  else c.toNat - 'A'.toNat + 10

/-- The number that hexadecimal digits write. -/
def hexValue (digits : List Char) : Nat := digits.foldl (fun n c => n * 16 + hexDigitValue c) 0

end Alphabet

namespace Cluster

open Alphabet

/-- Whether the cluster is one scalar value of a class. -/
def isOne (g : Cluster) (p : Char → Bool) : Bool := g.single?.any p

/-- A cluster of a class of characters is one of them. -/
theorem eq_ofChar_of_isOne {g : Cluster} {p : Char → Bool} (h : g.isOne p = true) :
    ∃ c, g = .ofChar c ∧ p c = true := by
  obtain ⟨c, hc, hp⟩ := (Option.any_eq_true p _).mp h
  exact ⟨c, eq_ofChar_of_single? hc, hp⟩

def isDecimalDigit (g : Cluster) : Bool := g.isOne Alphabet.isDecimalDigit

def isHexDigit (g : Cluster) : Bool := g.isOne Alphabet.isHexDigit

def isOctalDigit (g : Cluster) : Bool := g.isOne Alphabet.isOctalDigit

def isBinaryDigit (g : Cluster) : Bool := g.isOne Alphabet.isBinaryDigit

def isRadixMarker (g : Cluster) : Bool := g.isOne Alphabet.isRadixMarker

/-- What separates tokens and is no token: a space, a tab, or a carriage return on its own. -/
def isBlank (g : Cluster) : Bool := g.is ' ' || g.is '\t' || g.is '\r'

/-- Whether the cluster may stand in an identifier. -/
def isIdentifierPart (g : Cluster) : Bool :=
  !g.isEmpty && !g.chars.any isIdentifierTerminator

/-- Whether the first of the clusters ahead is the character `c`. -/
def nextIs (gs : List Cluster) (c : Char) : Bool := gs.head?.any (·.is c)

/-- The cluster that comes next. -/
theorem eq_cons_of_nextIs {gs : List Cluster} {c : Char} (h : nextIs gs c = true) :
    ∃ tail, gs = .ofChar c :: tail := by
  obtain ⟨g, hg, hc⟩ := (Option.any_eq_true _ _).mp h
  obtain ⟨tail, rfl⟩ := List.head?_eq_some_iff.mp hg
  exact ⟨tail, by rw [eq_ofChar_of_is hc]⟩

end Cluster

end Lexis
