import Lexis.Position
import Lexis.Text.Placeholder

/-!
# Diagnostics

What the library reports: a severity, a stable numeric code, a position, and a message made from a
template. A diagnostic is plain data; how it is shown is up to the report that quotes the source.
-/

namespace Lexis

inductive Severity where
  | error
  | warning
  deriving DecidableEq, Repr

namespace Severity

def name : Severity → String
  | error => "error"
  | warning => "warning"

end Severity

/-- What a diagnostic is about, by a number that never changes. -/
inductive DiagnosticCode where
  | unknownError
  | unexpectedToken
  /-- The input was exhausted before a token was found. -/
  | failedToRetrieveToken
  | unknownWarning
  deriving DecidableEq, Repr

namespace DiagnosticCode

def number : DiagnosticCode → Nat
  | unknownError => 0
  | unexpectedToken => 1
  | failedToRetrieveToken => 2
  | unknownWarning => 3

def ofNumber? (n : Nat) : Option DiagnosticCode :=
  [unknownError, unexpectedToken, failedToRetrieveToken, unknownWarning][n]?

/-- The letter `M` and four digits. -/
def display (c : DiagnosticCode) : String :=
  "M" ++ String.ofList ((toString c.number).toList.leftpad 4 '0')

end DiagnosticCode

/-- A message with placeholders for its arguments. -/
structure MessageTemplate where
  code : DiagnosticCode
  severity : Severity
  text : String
  deriving DecidableEq, Repr

/-- A message about a place in a source. -/
structure Diagnostic where
  severity : Severity
  code : DiagnosticCode
  position : Position
  message : String
  deriving DecidableEq, Repr

namespace Diagnostic

/-- The diagnostic of a template filled with arguments. -/
def ofTemplate (m : MessageTemplate) (position : Position) (arguments : List String) :
    Diagnostic :=
  ⟨m.severity, m.code, position, Text.Placeholder.fill m.text arguments⟩

/-- Whether this only says that the input has ended. -/
def isEndOfInput (d : Diagnostic) : Bool := d.code = .failedToRetrieveToken

/-- One line of plain text: `error[M0001] 1:2: message`. -/
def display (d : Diagnostic) : String :=
  s!"{d.severity.name}[{d.code.display}] {d.position.display}: {d.message}"

end Diagnostic

/-! ## The templates -/

namespace MessageTemplate

/-- An error of the lexical grammar. -/
def lexical (text : String) : MessageTemplate := ⟨.unexpectedToken, .error, text⟩

def multipleLeadingZeros : MessageTemplate :=
  lexical "Unexpected token: multiple leading zeros before radix symbol"

def multipleDecimalPoints : MessageTemplate :=
  lexical "Unexpected token: multiple decimal point '.'"

def decimalPointAfterExponent : MessageTemplate :=
  lexical "Unexpected token: decimal point '.' after exponent"

def exponentAfterDecimalPoint : MessageTemplate :=
  lexical "Unexpected token: exponent symbol 'e' after decimal point '.'"

def multipleExponents : MessageTemplate :=
  lexical "Unexpected token: multiple exponent symbol 'e'"

def exponentWithRadix : MessageTemplate :=
  lexical ("Unexpected token: invalid number literal.\n"
    ++ "Tips: exponent should not start with '0o' or '0b'.")

def emptyExponent : MessageTemplate :=
  lexical "Unexpected token: invalid number literal.\nTips: exponent should not be empty."

def invalidEscapeSymbol : MessageTemplate :=
  lexical "Unexpected token: invalid escape symbol '{0}'"

def invalidHexDigit : MessageTemplate :=
  lexical "Unexpected token: invalid hexadecimal digit '{0}' in rune escape sequence"

def invalidFirstDigitOfLongEscape : MessageTemplate :=
  lexical ("Unexpected token: invalid first hexadecimal digit after '\\U' in rune escape sequence. "
    ++ "Digits after '\\U' must start with 0")

def invalidCodePoint : MessageTemplate :=
  lexical "Unexpected token: invalid unicode code point '{0}' in escape sequence"

def unexpectedLineBreak : MessageTemplate := lexical "Unexpected line break"

def unterminatedLiteral : MessageTemplate :=
  lexical "Unexpected end of input: unterminated {0} literal"

def invalidCharacter : MessageTemplate :=
  lexical "Unexpected token: invalid character '{0}'"

def failedToRetrieveToken : MessageTemplate :=
  ⟨.failedToRetrieveToken, .error, "Failed to retrieve next token."⟩

def interpolationNestedTooDeep : MessageTemplate :=
  ⟨.unexpectedToken, .warning,
    "Unexpected token: template string interpolation nested too deep (more than {0})"⟩

end MessageTemplate

end Lexis
