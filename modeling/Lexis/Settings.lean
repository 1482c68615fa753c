import Lexis.Json.Write
import Lexis.ScannerOptions

/-!
# Settings

What a settings file may say: the scanner's options, and the source files to scan. Everything has a
default, so an empty object is a valid file. Settings are written as one line of JSON.
-/

namespace Lexis

/-- The content of a settings file. -/
structure Settings where
  scanner : ScannerOptions := {}
  /-- The source files, if the file lists any. -/
  files : Option (List String) := none
  deriving DecidableEq, Repr

namespace ScannerOptions

/-- The key of the nesting limit. -/
def depthKey : String := "maxInterpolationDepth"

/-- The options as JSON without blanks. -/
def write (o : ScannerOptions) : String :=
  r"{" ++ Json.writeString depthKey ++ ":" ++ toString o.maxInterpolationDepth.toNat ++ r"}"

end ScannerOptions

namespace Settings

def scannerKey : String := "scanner"

def filesKey : String := "files"

/-- The listed files, none if there is no list. -/
def inputs (s : Settings) : List String := s.files.getD []

/-- A list of strings as JSON without blanks. -/
def writeList (names : List String) : String :=
  "[" ++ String.intercalate "," (names.map Json.writeString) ++ "]"

/-- The settings as JSON without blanks. -/
def write (s : Settings) : String :=
  r"{" ++ Json.writeString scannerKey ++ ":" ++ s.scanner.write ++ ","
    ++ Json.writeString filesKey ++ ":" ++ (s.files.map writeList).getD "null" ++ r"}"

end Settings

end Lexis
