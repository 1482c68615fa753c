import Lexis.Lexeme
import Lexis.LineIndex
import Lexis.Text.Utf8
import Lexis.ScannerOptions
import Lexis.Token

/-!
# Scanner

Turns a source into tokens, one per call. The scanner holds a cursor, the frames that template
strings have opened, and the warnings given so far. A call passes blanks, reads one lexeme and moves
the cursor behind it; on an error the cursor stops where the error was noticed, and nothing else
changes. Errors are handed out and never kept; a later call goes on from where the cursor stopped.

Tokens can be drawn one by one (`next`), several at a time (`take`), or all at once (`scanToEnd`);
the last two stop at the first error. Scanning to the end cuts the source into clusters only once; it
terminates because a token takes at least one cluster (`length_of_nextIn`).
-/

namespace Lexis

/-- A scan in progress. -/
structure Scanner where
  options : ScannerOptions
  cursor : Cursor
  frames : TemplateStack
  warnings : List Diagnostic
  deriving DecidableEq, Repr

/-- Everything found by scanning to the end or to the first error. -/
structure ScanOutput where
  tokens : List Token
  error : Option Diagnostic
  warnings : List Diagnostic
  deriving DecidableEq, Repr

namespace Scanner

/-- A scan that starts at the front of a source. -/
def ofText (source : String) (options : ScannerOptions := {}) : Scanner :=
  ⟨options, .ofText source, [], []⟩

/-- A scan of bytes, or the offset where they are not well-formed. -/
def ofBytes (bytes : List UInt8) (options : ScannerOptions := {}) : Except Nat Scanner :=
  (Text.Utf8.decode bytes).map (ofText · options)

def source (s : Scanner) : String := s.cursor.source

/-- Where the scan stands; after an error, where it was noticed. -/
def position (s : Scanner) : Position := s.cursor.position

/-- The text of a line of the source, counted from one, without its terminator. -/
def lineText? (s : Scanner) (line : Nat) : Option String :=
  (LineIndex.ofText s.source).lineText? s.source line

/-! ## One token -/

/-- The blanks before the next lexeme: they are passed in code and kept in template text. -/
def blanksIn (s : Scanner) (ahead : List Cluster) : List Cluster :=
  match s.frames.place with
  | .templateText => []
  | _ => ahead.takeWhile (·.isBlank)

/-- The warning that a token at a place gives: it opens more interpolations than allowed. -/
def warningsOf (options : ScannerOptions) (frames : TemplateStack) (kind : TokenKind)
    (position : Position) : List Diagnostic :=
  let limit := options.maxInterpolationDepth.toNat
  if kind = .interpolationStart && limit < frames.interpolationDepth then
    [.ofTemplate .interpolationNestedTooDeep position [toString limit]]
  else []

/--
The token that comes first in `ahead`, or why there is none; the scan after it, and what is then
left of `ahead`. The clusters given are those ahead of the scan.
-/
def nextIn (s : Scanner) (ahead : List Cluster) :
    Except Diagnostic Token × Scanner × List Cluster :=
  let blanks := s.blanksIn ahead
  -- what was passed follows from what is left, so readers need not count
  let gs := ahead.drop blanks.length
  let start := s.cursor.stepAll blanks
  match Lexeme.read s.frames.place gs with
  | .error fault =>
    let stop := start.stepAll (upTo gs fault.rest)
    (.error (fault.cause.diagnostic stop.position), { s with cursor := stop }, fault.rest)
  | .ok lexeme =>
    let frames := s.frames.afterToken lexeme.kind
    (.ok ⟨lexeme.kind, start.position, lexeme.text⟩,
      { s with
        cursor := start.stepAll (upTo gs lexeme.rest)
        frames
        warnings := s.warnings ++ warningsOf s.options frames lexeme.kind start.position },
      lexeme.rest)

/-- The next token, or why there is none, and the scan after it. -/
def next (s : Scanner) : Except Diagnostic Token × Scanner :=
  let (r, s, _) := s.nextIn s.cursor.ahead
  (r, s)

/-- **A token leaves fewer clusters ahead.** -/
theorem length_of_nextIn {s s' : Scanner} {ahead rest : List Cluster} {t : Token}
    (h : s.nextIn ahead = (.ok t, s', rest)) : rest.length < ahead.length := by
  unfold nextIn at h
  simp only at h
  split at h
  · simp at h
  · next hr =>
    have hl := Lexeme.length_of_read hr
    rw [List.length_drop] at hl
    simp only [Prod.mk.injEq] at h
    rw [← h.2.2]
    omega

/-! ## Several tokens -/

/-- The tokens in `ahead` up to the first error, that error, and the scan after it. -/
def drainIn (s : Scanner) (ahead : List Cluster) : List Token × Diagnostic × Scanner :=
  match _h : s.nextIn ahead with
  | (.error d, s, _) => ([], d, s)
  | (.ok t, s, rest) =>
    let (ts, d, s) := s.drainIn rest
    (t :: ts, d, s)
termination_by ahead.length
decreasing_by exact length_of_nextIn _h

/-- The tokens up to the first error, that error, and the scan after it. -/
def drain (s : Scanner) : List Token × Diagnostic × Scanner := s.drainIn s.cursor.ahead

/-- Takes the warnings held, leaving none. -/
def takeWarnings (s : Scanner) : List Diagnostic × Scanner :=
  (s.warnings, { s with warnings := [] })

/-- Scans to the end of the input or the first error, and takes the warnings. -/
def scanToEnd (s : Scanner) : ScanOutput × Scanner :=
  let (tokens, d, s) := s.drain
  let (warnings, s) := s.takeWarnings
  (⟨tokens, if d.isEndOfInput then none else some d, warnings⟩, s)

end Scanner

/-! ## Drawing tokens one at a time -/

/-- A run of tokens being drawn from a scan; it is over after the first error. -/
structure Draw where
  scanner : Scanner
  finished : Bool
  deriving DecidableEq, Repr

namespace Draw

def start (s : Scanner) : Draw := ⟨s, false⟩

/-- Draws a token. The end of the input ends the run without a result, an error with one. -/
def next (d : Draw) : Option (Except Diagnostic Token) × Draw :=
  if d.finished then (none, d)
  else
    match d.scanner.next with
    | (.ok t, s) => (some (.ok t), ⟨s, false⟩)
    | (.error e, s) => (if e.isEndOfInput then none else some (.error e), ⟨s, true⟩)

/-- Draws `n` times. -/
def take (d : Draw) : (n : Nat) → List (Option (Except Diagnostic Token)) × Draw
  | 0 => ([], d)
  | n + 1 =>
    let (r, d) := d.next
    let (rs, d) := d.take n
    (r :: rs, d)

end Draw

namespace Scanner

/-- Draws `n` times from the scan. -/
def take (s : Scanner) (n : Nat) : List (Option (Except Diagnostic Token)) × Scanner :=
  let (rs, d) := (Draw.start s).take n
  (rs, d.scanner)

/-- Everything a fresh scan of a source finds. -/
def scan (source : String) (options : ScannerOptions := {}) : ScanOutput :=
  (ofText source options).scanToEnd.1

end Scanner

end Lexis
