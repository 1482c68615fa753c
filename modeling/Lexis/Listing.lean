import Lexis.Json.Document
import Lexis.Scanner
import Lexis.Source

/-!
# Listings

What scanning a source has found, written down: as a line for each token, or as a document that
also holds the diagnostics.
-/

namespace Lexis

/-! ## Lines -/

/-- A line for a token: its place, its kind and its quoted text, between tabs. -/
def Token.listingLine (t : Token) : String :=
  t.position.display ++ "\t" ++ t.kind.name ++ "\t" ++ Text.quoted t.text ++ "\n"

/-- The lines of tokens. -/
def listingText (tokens : List Token) : String := String.join (tokens.map Token.listingLine)

/-! ## Documents -/

open Json

def Position.document (p : Position) : Document :=
  .object [("offset", .number p.offset), ("line", .number p.line), ("column", .number p.column)]

def Token.document (t : Token) : Document :=
  .object [("kind", .string t.kind.name), ("position", t.position.document),
    ("text", .string t.text)]

def Diagnostic.document (d : Diagnostic) : Document :=
  .object [("severity", .string d.severity.name), ("code", .number d.code.number),
    ("position", d.position.document), ("message", .string d.message)]

/-- A source and what scanning it has found. -/
structure ScannedSource where
  source : Source
  output : ScanOutput
  deriving DecidableEq, Repr

namespace ScannedSource

/-- Scans a source to its end or its first error. -/
def ofSource (options : ScannerOptions) (source : Source) : ScannedSource :=
  ⟨source, Scanner.scan source.text options⟩

/-- Whether an error ended the scan. -/
def hasError (s : ScannedSource) : Bool := s.output.error.isSome

/-- The diagnostics in the order in which they are reported. -/
def diagnostics (s : ScannedSource) : List Diagnostic :=
  s.output.warnings ++ s.output.error.toList

def document (s : ScannedSource) : Document :=
  .object [("file", .string s.source.name),
    ("tokens", .list (s.output.tokens.map Token.document)),
    ("error", (s.output.error.map Diagnostic.document).getD .null),
    ("warnings", .list (s.output.warnings.map Diagnostic.document))]

end ScannedSource

end Lexis
