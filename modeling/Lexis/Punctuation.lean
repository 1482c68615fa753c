import Lexis.Alphabet
import Lexis.TokenKind

/-!
# Punctuation

Which mark stands at the front of the input. A mark is spelled by one, two or three single scalar
values, and the longest one counts, so its first character and at most two more decide.
-/

namespace Lexis.Punctuator

/-- The longest mark that starts with `c`, given the scalar values after it. -/
def longest? (c : Char) (second third : Option Char) : Option Punctuator :=
  let one (a : Char) (yes no : Punctuator) := if second = some a then yes else no
  match c with
  | ';' => some semicolon
  | ',' => some comma
  | ':' => some colon
  | '(' => some openParen
  | ')' => some closeParen
  | '[' => some openBracket
  | ']' => some closeBracket
  | '{' => some openBrace
  | '}' => some closeBrace
  | '~' => some tilde
  | '.' => some (one '.' (if third = some '.' then dotDotDot else dotDot) dot)
  | '=' => some (one '=' equalsEquals (one '>' equalsGreaterThan equals))
  | '!' => some (one '=' exclamationEquals exclamation)
  | '+' => some (one '=' plusEquals (one '+' plusPlus plus))
  | '-' => some (one '=' minusEquals (one '-' minusMinus minus))
  | '*' => some (one '*' asteriskAsterisk (one '=' asteriskEquals asterisk))
  | '/' => some (one '=' slashEquals slash)
  | '%' => some (one '=' percentEquals percent)
  | '&' => some (one '&' ampersandAmpersand (one '=' ampersandEquals ampersand))
  | '|' => some (one '|' barBar (one '=' barEquals bar))
  | '^' => some (one '=' caretEquals caret)
  | '<' => some (one '=' lessThanEquals
      (one '<' (if third = some '=' then lessThanLessThanEquals else lessThanLessThan) lessThan))
  | '>' => some (one '=' greaterThanEquals
      (one '>' (if third = some '=' then greaterThanGreaterThanEquals else greaterThanGreaterThan)
        greaterThan))
  | '?' => some (one '?' questionQuestion (one '.' questionDot question))
  | _ => none

/-- The mark at the front of the clusters ahead. -/
def ahead? (gs : List Cluster) : Option Punctuator :=
  let scalar (n : Nat) := (gs[n]?).bind Cluster.single?
  (scalar 0).bind fun c => longest? c (scalar 1) (scalar 2)

end Lexis.Punctuator
