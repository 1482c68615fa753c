import Lexis.Decimal.Shortest
import Lexis.Text.Quoted
import Lexis.Text.Size

/-!
# Faults in JSON texts

What is wrong with a text that is read for wanted values: a violation of the grammar, or a value
that is not of the wanted sort. A reader of the text knows only what is still ahead of it; so a
fault is placed by the characters left, and the bytes of them that had already been looked at
(`Stop`). Line and column follow from that: the column counts the bytes of the line consumed.
-/

namespace Lexis.Json

/-- From a hundred-thousandth up to sixteen digits before the point, numbers are written
positionally, with a digit after the point; beyond, the exponent always has a sign. -/
def floatLayout : Decimal.Layout := ⟨-5, 15, "+"⟩

/-- A value met where another sort was wanted. -/
inductive Met where
  | null
  | boolean (b : Bool)
  | integer (n : Int)
  | float (negative : Bool) (magnitude : Decimal.Binary64)
  | string (text : String)
  | sequence
  | map
  deriving DecidableEq, Repr

namespace Met

def text : Met → String
  | null => "null"
  | boolean b => if b then "boolean `true`" else "boolean `false`"
  | integer n => s!"integer `{n}`"
  | float negative x =>
    "floating point `" ++ (if negative then "-" else "") ++ x.text floatLayout ++ "`"
  | string s => "string " ++ Text.quoted s
  | sequence => "sequence"
  | map => "map"

end Met

/-- The sort of value that is wanted. -/
inductive Wanted where
  | settings
  | scannerOptions
  | size
  | sequence
  | string
  deriving DecidableEq, Repr

namespace Wanted

def text : Wanted → String
  | settings => "struct MirthConfig"
  | scannerOptions => "struct ScannerOptions"
  | size => "usize"
  | sequence => "a sequence"
  | string => "a string"

end Wanted

/-- What is wrong with a text. -/
inductive Fault where
  | eofInValue
  | eofInObject
  | eofInList
  | eofInString
  | expectedValue
  | expectedWord
  | expectedColon
  | expectedCommaOrBrace
  | expectedCommaOrBracket
  | keyNotAString
  | trailingComma
  | trailingCharacters
  | invalidNumber
  | numberOutOfRange
  | invalidEscape
  | loneSurrogate
  | unexpectedEndOfHexEscape
  | controlCharacter
  | wrongType (met : Met) (wanted : Wanted)
  /-- A number of the wanted sort that is out of its range. -/
  | wrongValue (met : Met) (wanted : Wanted)
  | duplicateField (name : String)
  deriving DecidableEq, Repr

namespace Fault

def message : Fault → String
  | eofInValue => "EOF while parsing a value"
  | eofInObject => "EOF while parsing an object"
  | eofInList => "EOF while parsing a list"
  | eofInString => "EOF while parsing a string"
  | expectedValue => "expected value"
  | expectedWord => "expected ident"
  | expectedColon => "expected `:`"
  | expectedCommaOrBrace => r"expected `,` or `}`"
  | expectedCommaOrBracket => "expected `,` or `]`"
  | keyNotAString => "key must be a string"
  | trailingComma => "trailing comma"
  | trailingCharacters => "trailing characters"
  | invalidNumber => "invalid number"
  | numberOutOfRange => "number out of range"
  | invalidEscape => "invalid escape"
  | loneSurrogate => "lone leading surrogate in hex escape"
  | unexpectedEndOfHexEscape => "unexpected end of hex escape"
  | controlCharacter => "control character (\\u0000-\\u001F) found while parsing a string"
  | wrongType met wanted => "invalid type: " ++ met.text ++ ", expected " ++ wanted.text
  | wrongValue met wanted => "invalid value: " ++ met.text ++ ", expected " ++ wanted.text
  | duplicateField name => "duplicate field `" ++ name ++ "`"

end Fault

/-! ## Places -/

/-- Where reading stopped: the characters left, and the bytes of them already looked at. -/
structure Stop where
  rest : List Char
  seen : Nat
  deriving DecidableEq, Repr

namespace Stop

/-- Before the next character. -/
def before (cs : List Char) : Stop := ⟨cs, 0⟩

/-- Behind the first byte of the next character, if there is one. -/
def upon (cs : List Char) : Stop := ⟨cs, if cs.isEmpty then 0 else 1⟩

end Stop

/-- A fault and the place where it was noticed. -/
structure Refusal where
  fault : Fault
  stop : Stop
  deriving DecidableEq, Repr

/-- A reader's answer: what it read and the characters left, or why it refused. -/
abbrev Reading (α : Type) := Except Refusal (α × List Char)

/-- Refuses before the next character. -/
def refuseBefore {α : Type} (fault : Fault) (cs : List Char) : Except Refusal α :=
  .error ⟨fault, .before cs⟩

/-- Refuses upon the next character. -/
def refuseUpon {α : Type} (fault : Fault) (cs : List Char) : Except Refusal α :=
  .error ⟨fault, .upon cs⟩

/--
Line and column of a byte offset, the characters standing at offset `here`.

The line `line` starts at offset `start`; the column counts the bytes from there.
-/
def lineColumnFrom (offset start line here : Nat) : List Char → Nat × Nat
  | [] => (line, offset - start)
  | c :: cs =>
    let after := here + c.utf8Size
    if offset < after then (line, offset - start)
    else if c = '\n' then lineColumnFrom offset after (line + 1) after cs
    else lineColumnFrom offset start line after cs

/-- Line and column of a stop in a text. -/
def Stop.lineColumn (stop : Stop) (text : List Char) : Nat × Nat :=
  lineColumnFrom (Text.size text - Text.size stop.rest + stop.seen) 0 1 0 text

/-- The fault's message with its line and column in the text. -/
def Refusal.message (r : Refusal) (text : String) : String :=
  let (line, column) := r.stop.lineColumn text.toList
  s!"{r.fault.message} at line {line} column {column}"

end Lexis.Json
