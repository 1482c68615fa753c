import Lexis.Alphabet
import Lexis.Diagnostic

/-!
# Lexical errors

Why no token could be read. Each cause knows its message and what the message names, so the wording
stands in one place. A reader reports a cause together with the clusters that are still ahead where
it gave up; the place itself follows from them.
-/

namespace Lexis

/-- The literals that hold text. -/
inductive TextForm where
  | rune
  | string
  | template
  deriving DecidableEq, Repr

namespace TextForm

/-- What a message calls the literal. -/
def name : TextForm → String
  | rune => "rune"
  | string => "string"
  | template => "template string"

end TextForm

/-- Why no token could be read. -/
inductive LexicalError where
  /-- Several zeros before a radix marker, a point or an exponent. -/
  | multipleLeadingZeros
  | multipleDecimalPoints
  | decimalPointAfterExponent
  | exponentAfterDecimalPoint
  | multipleExponents
  | exponentWithRadix
  | emptyExponent
  /-- The cluster after a backslash starts no escape. -/
  | invalidEscape (symbol : Cluster)
  /-- A cluster stands where an escape needs a hexadecimal digit. -/
  | invalidHexDigit (digit : Cluster)
  | invalidFirstDigitOfLongEscape
  /-- The digits of an escape write no scalar value. -/
  | invalidCodePoint (digits : String)
  | unexpectedLineBreak
  | unterminated (form : TextForm)
  /-- A cluster of several scalars holds a character that ends identifiers. -/
  | invalidCharacter (cluster : Cluster)
  | endOfInput
  deriving DecidableEq, Repr

namespace LexicalError

def template : LexicalError → MessageTemplate
  | multipleLeadingZeros => .multipleLeadingZeros
  | multipleDecimalPoints => .multipleDecimalPoints
  | decimalPointAfterExponent => .decimalPointAfterExponent
  | exponentAfterDecimalPoint => .exponentAfterDecimalPoint
  | multipleExponents => .multipleExponents
  | exponentWithRadix => .exponentWithRadix
  | emptyExponent => .emptyExponent
  | invalidEscape _ => .invalidEscapeSymbol
  | invalidHexDigit _ => .invalidHexDigit
  | invalidFirstDigitOfLongEscape => .invalidFirstDigitOfLongEscape
  | invalidCodePoint _ => .invalidCodePoint
  | unexpectedLineBreak => .unexpectedLineBreak
  | unterminated _ => .unterminatedLiteral
  | invalidCharacter _ => .invalidCharacter
  | endOfInput => .failedToRetrieveToken

/-- What the message names. -/
def arguments : LexicalError → List String
  | invalidEscape g | invalidHexDigit g | invalidCharacter g => [g.text]
  | invalidCodePoint digits => [digits]
  | unterminated form => [form.name]
  | _ => []

/-- The diagnostic of the error at a place. -/
def diagnostic (e : LexicalError) (position : Position) : Diagnostic :=
  .ofTemplate e.template position e.arguments

end LexicalError

/-- An error, and the clusters still ahead where it was noticed. -/
structure Fault where
  cause : LexicalError
  rest : List Cluster
  deriving DecidableEq, Repr

end Lexis
