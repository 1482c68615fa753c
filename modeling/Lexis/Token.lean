import Lexis.Position
import Lexis.TokenKind
import Lexis.Text.Quoted

/-!
# Tokens

A token is a kind, the place where its lexeme starts, and a text. The text is the lexeme itself,
except that runes, strings and template fragments carry their decoded content and that a number's
leading zeros are written once.
-/

namespace Lexis

/-- A token of a source. -/
structure Token where
  kind : TokenKind
  position : Position
  text : String
  deriving DecidableEq, Repr

/-- Place, kind and quoted text, between spaces. -/
def Token.display (t : Token) : String :=
  s!"{t.position.display} {t.kind.name} {Text.quoted t.text}"

end Lexis
