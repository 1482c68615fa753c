import Lexis.Files
import Lexis.LineIndex
import Lexis.Text.Utf8

/-!
# Sources

A source is a text with the name under which it is reported. It comes from bytes, which have to be
well-formed; the name of a source read from a file is the path as it was given.
-/

namespace Lexis

/-- A named text. -/
structure Source where
  name : String
  text : String
  deriving DecidableEq, Repr

/-- Why a source cannot be loaded. -/
inductive SourceError where
  /-- The bytes stop being well-formed at this offset. -/
  | invalidUtf8 (offset : Nat)
  | unreadable (path : String) (cause : ReadError)
  deriving DecidableEq, Repr

namespace SourceError

def message : SourceError → String
  | invalidUtf8 offset => s!"source is not valid UTF-8: invalid byte sequence at offset {offset}"
  | unreadable path cause => s!"failed to read '{path}': {cause.message}"

end SourceError

namespace Source

/-- The source that bytes are. -/
def ofBytes (name : String) (bytes : List UInt8) : Except SourceError Source :=
  match Text.Utf8.decode bytes with
  | .ok text => .ok ⟨name, text⟩
  | .error offset => .error (.invalidUtf8 offset)

/-- The source that was, or was not, read from a file. -/
def ofRead (path : String) : ReadResult → Except SourceError Source
  | .ok bytes => ofBytes path bytes
  | .error cause => .error (.unreadable path cause)

/-- Reads a source. -/
def read (files : Files) (path : String) : Except SourceError Source := ofRead path (files path)

/-- The text of a line, counted from one, without its terminator. -/
def lineText? (s : Source) (line : Nat) : Option String :=
  (LineIndex.ofText s.text).lineText? s.text line

end Source

end Lexis
