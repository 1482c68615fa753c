import Lexis.Text.Table.ClusterBreak
import Lexis.Text.Table.GraphemeExtend

/-!
# Break classes

What a scalar value does at the edge of a cluster. The classes are the values of the Unicode
property Grapheme_Cluster_Break, refined by Extended_Pictographic and Indic_Conjunct_Break so that
every rule of the segmentation can be read off the classes alone.

ASCII is decided without a table; Hangul syllables by their arithmetic layout.
-/

namespace Lexis.Text

/-- What a scalar value does at the edge of a cluster. -/
inductive BreakClass where
  | carriageReturn
  | lineFeed
  | control
  /-- Attaches to what stands before it. -/
  | extend
  /-- Attaches likewise, and binds the consonants of a conjunct. -/
  | linker
  /-- Attaches likewise, and ends a conjunct: the zero width non-joiner. -/
  | nonJoiner
  /-- Attaches likewise, and binds two pictographs: the zero width joiner. -/
  | joiner
  | spacingMark
  | prepended
  | regionalIndicator
  | pictographic
  | consonant
  | leadingJamo
  | vowelJamo
  | trailingJamo
  /-- A Hangul syllable without a trailing consonant. -/
  | openSyllable
  /-- A Hangul syllable with a trailing consonant. -/
  | closedSyllable
  | other
  deriving DecidableEq, Repr

namespace BreakClass

/-- The class of an ASCII code point. -/
def ofAscii (n : Nat) : BreakClass :=
  if n = 0x0D then .carriageReturn
  else if n = 0x0A then .lineFeed
  else if n < 0x20 || n = 0x7F then .control
  else .other

/-- Leading consonants that compose syllables. -/
def isLeadingJamo (n : Nat) : Bool := (0x1100 ≤ n && n ≤ 0x115F) || (0xA960 ≤ n && n ≤ 0xA97C)

/-- Vowels that compose syllables, the four of Kirat Rai included. -/
def isVowelJamo (n : Nat) : Bool :=
  (0x1160 ≤ n && n ≤ 0x11A7) || (0xD7B0 ≤ n && n ≤ 0xD7C6)
    || n = 0x16D63 || (0x16D67 ≤ n && n ≤ 0x16D6A)

/-- Trailing consonants that compose syllables. -/
def isTrailingJamo (n : Nat) : Bool := (0x11A8 ≤ n && n ≤ 0x11FF) || (0xD7CB ≤ n && n ≤ 0xD7FB)

/-- The precomposed Hangul syllables. -/
def isSyllable (n : Nat) : Bool := 0xAC00 ≤ n && n ≤ 0xD7A3

/-- The class of a code point beyond ASCII. -/
def ofTables (n : Nat) : BreakClass :=
  if n = 0x200C then .nonJoiner
  else if n = 0x200D then .joiner
  else if Table.conjunctLinker.contains n then .linker
  else if Table.graphemeExtend.contains n || (0x1F3FB ≤ n && n ≤ 0x1F3FF) then .extend
  else if Table.control.contains n then .control
  else if Table.spacingMark.contains n then .spacingMark
  else if Table.prepended.contains n then .prepended
  else if 0x1F1E6 ≤ n && n ≤ 0x1F1FF then .regionalIndicator
  else if Table.pictographic.contains n then .pictographic
  else if Table.conjunctConsonant.contains n then .consonant
  else if isLeadingJamo n then .leadingJamo
  else if isVowelJamo n then .vowelJamo
  else if isTrailingJamo n then .trailingJamo
  else if isSyllable n then
    -- each leading consonant and vowel is followed by its 27 closed forms
    if (n - 0xAC00) % 28 = 0 then .openSyllable else .closedSyllable
  else .other

/-- The class of a scalar value. -/
def ofChar (c : Char) : BreakClass :=
  if c.toNat < 0x80 then ofAscii c.toNat else ofTables c.toNat

/-- Line ends and controls: there is a boundary on both sides of them. -/
def isControl : BreakClass → Bool
  | carriageReturn | lineFeed | control => true
  | _ => false

/-- Grapheme_Cluster_Break = Extend. -/
def isExtend : BreakClass → Bool
  | extend | linker | nonJoiner => true
  | _ => false

/-- What never starts a cluster where a letter stands before it. -/
def attaches (k : BreakClass) : Bool := k.isExtend || k = joiner || k = spacingMark

/-- What may stand between the consonants of a conjunct. -/
def inConjunct : BreakClass → Bool
  | extend | linker | joiner => true
  | _ => false

end BreakClass

end Lexis.Text
