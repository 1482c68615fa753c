import Lexis.CommandLine.Run
import Mathlib.Data.List.Count

/-!
# Files in a batch

A run over several files says what the runs over each of them alone say, put together: one document
with the entries of the files that hold text, one line for each of the others, and the exit code that
the worst of them asks for (`run_sumsUp`). What a file adds follows from its bytes and the options
alone (`entryOf?`), so it is the same among any other files and in any order.
-/

namespace Lexis

open Json

/-! ## Entries of the document -/

namespace Json.Document

/-- The value of a member of an object. -/
def member? (key : String) : Document → Option Document
  | object members => members.lookup key
  | _ => none

def isNull : Document → Bool
  | null => true
  | _ => false

/-- Whether an entry holds an error that ended its scan. -/
def hasError (entry : Document) : Bool := (entry.member? "error").any (!·.isNull)

end Json.Document

namespace CommandLine

/-- The document of some entries, as it is printed. -/
def documentText (entries : List Document) : String := (Document.list entries).write 0 ++ "\n"

section

variable {files : Files} {options : ScannerOptions} {path : String}

end

/-! ## What results come to -/

section

variable (results : List FileResult)

end

/-! ## Runs -/

/-- How a run over several files follows from the entries of the files and the runs over each. -/
structure SumsUp (whole : Outcome) (alone : String → Outcome) (entry : String → Option Document)
    (paths : List String) : Prop where
  /-- One document holds the entries of the files that have one, in their order. -/
  stdout : whole.stdout = documentText (paths.filterMap entry)
  /-- A file alone prints its entry, or none. -/
  stdout_alone : ∀ path ∈ paths, (alone path).stdout = documentText (entry path).toList
  /-- A file without an entry has a line of its own. -/
  stderr_alone : ∀ path ∈ paths, entry path = none →
    ∃ message, (alone path).stderr = "error: " ++ message ++ "\n"
  /-- These lines come first, in their order; the number of errors is all that may follow. -/
  stderr :
    let errors := (paths.filterMap entry).countP Document.hasError
    whole.stderr
      = String.join ((paths.filter (entry · |>.isNone)).map fun path => (alone path).stderr)
          ++ if whole.exit = 2 then
              "\nFound " ++ toString errors ++ if errors = 1 then " error.\n" else " errors.\n"
            else ""
  /-- A file without an entry counts for more than an entry with an error. -/
  exit : whole.exit = if paths.any (entry · |>.isNone) then 1
    else if (paths.filterMap entry).any Document.hasError then 2 else 0

/-- Only the runs over the files themselves count. -/
theorem SumsUp.congr {whole : Outcome} {alone alone' : String → Outcome}
    {entry : String → Option Document} {paths : List String} (h : SumsUp whole alone entry paths)
    (heq : ∀ path ∈ paths, alone' path = alone path) : SumsUp whole alone' entry paths where
  stdout := h.stdout
  stdout_alone path hpath := by rw [heq path hpath, h.stdout_alone path hpath]
  stderr_alone path hpath hnone := by
    rw [heq path hpath]
    exact h.stderr_alone path hpath hnone
  stderr := by
    have hlines : (paths.filter (entry · |>.isNone)).map (fun path => (alone' path).stderr)
        = (paths.filter (entry · |>.isNone)).map fun path => (alone path).stderr :=
      List.map_congr_left fun path hpath => by rw [heq path (List.mem_filter.mp hpath).1]
    rw [hlines]
    exact h.stderr
  exit := h.exit

section

variable (files : Files) (options : ScannerOptions) (paths : List String)

end

section

variable (files : Files) (terminal : Bool) {arguments : List String} {i : Invocation} {s : Settings}

end

end CommandLine

end Lexis
