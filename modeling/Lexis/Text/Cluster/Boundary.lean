import Lexis.Text.Cluster.Class

/-!
# Boundaries between clusters

The rules of Unicode Standard Annex 29 for extended grapheme clusters. A rule may look at the whole
text on the left, so `joins` takes the classes on the left with the nearest first. Three rules look
further back than one scalar:

* a consonant joins a conjunct whose consonants are bound by a linker (`conjunctOpen`);
* a pictograph joins another one over a joiner (`pictographOpen`);
* regional indicators pair up from the left (`flagOpen`).
-/

namespace Lexis.Text

open BreakClass

/-- Jamo and syllables that compose one syllable block. -/
def BreakClass.composes : (last next : BreakClass) → Bool
  | leadingJamo, leadingJamo | leadingJamo, vowelJamo => true
  | leadingJamo, openSyllable | leadingJamo, closedSyllable => true
  | openSyllable, vowelJamo | openSyllable, trailingJamo => true
  | vowelJamo, vowelJamo | vowelJamo, trailingJamo => true
  | closedSyllable, trailingJamo | trailingJamo, trailingJamo => true
  | _, _ => false

/-- Whether the left ends in a consonant and marks of a conjunct, at least one of them a linker. -/
def conjunctOpen (before : List BreakClass) : Bool :=
  (before.takeWhile inConjunct).contains linker
    && (before.dropWhile inConjunct).head? == some consonant

/-- Whether the left ends in a pictograph, any extending marks, and a joiner. -/
def pictographOpen : (before : List BreakClass) → Bool
  | joiner :: rest => (rest.dropWhile isExtend).head? == some pictographic
  | _ => false

/-- Whether the left ends in an odd number of regional indicators. -/
def flagOpen (before : List BreakClass) : Bool :=
  (before.takeWhile (· == regionalIndicator)).length % 2 == 1

/--
Whether `next` belongs to the cluster of the scalar before it.

A line feed joins a carriage return; otherwise controls stand alone. Elsewhere marks attach to the
left, prepended signs to the right, and the composing rules hold.
-/
def joins (before : List BreakClass) (next : BreakClass) : Bool :=
  match before with
  | [] => false
  | last :: _ =>
    if last = carriageReturn && next = lineFeed then true
    else if last.isControl || next.isControl then false
    else composes last next || next.attaches || last = prepended
      || (next = consonant && conjunctOpen before)
      || (next = pictographic && pictographOpen before)
      || (next = regionalIndicator && flagOpen before)

end Lexis.Text
