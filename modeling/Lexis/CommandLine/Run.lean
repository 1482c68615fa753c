import Lexis.CommandLine.Arguments
import Lexis.Files.Path
import Lexis.Listing
import Lexis.Report
import Lexis.Settings.Load

/-!
# Runs of the command line

A run loads the settings, reads the files that the arguments or the settings name, scans them, and
says what it prints and how it exits. Reading a file is left to the caller, who may do it in any
monad; so the same run serves files on a disk and files in memory, and all else about it is a plain
function of what was read.
-/

namespace Lexis.CommandLine

/-- What a run prints, and its exit code. -/
structure Outcome where
  exit : Nat
  stdout : String
  stderr : String
  deriving DecidableEq, Repr

/-- The settings file that is taken if it is there. -/
def defaultConfig : String := "mirth.json"

def versionText : String := "mirth 0.1.0\n"

def usageText : String := "Usage: mirth [OPTIONS] [FILE]...\n"

/-- The line that reports a problem with the run itself. -/
def problemLine (message : String) : String := s!"error: {message}\n"

/-- A run that ends before anything is scanned. -/
def Outcome.failed (message : String) : Outcome := ⟨1, "", problemLine message⟩

/-! ## Settings and inputs -/

/-- The settings file of a run. -/
def Invocation.configPath (i : Invocation) : String := i.config.getD defaultConfig

/-- The problem that the settings file is not understood, or cannot be read. -/
def settingsProblem (i : Invocation) (e : SettingsError) : String :=
  match i.config with
  | some path => s!"Failed to read config '{path}': {e.message}"
  | none => s!"Failed to read {defaultConfig}: {e.message}"

/-- The settings, from what reading the settings file gave. Only the default one may be missing. -/
def settingsOf (i : Invocation) (file : ReadResult) : Except String Settings :=
  if i.config.isNone && file.isMissing then .ok {}
  else
    match Settings.ofRead i.configPath file with
    | .ok s => .ok s
    | .error e => .error (settingsProblem i e)

/-- The files to scan: those of the arguments, or else those of the settings, from their folder. -/
def inputs (i : Invocation) (s : Settings) : List String :=
  if i.files.isEmpty then s.inputs.map (Path.join (Path.folder i.configPath)) else i.files

/-- The options of the scanner: those of the settings, unless the arguments say otherwise. -/
def scannerOptions (i : Invocation) (s : Settings) : ScannerOptions :=
  match i.maxInterpolationDepth with
  | some depth => ⟨depth⟩
  | none => s.scanner

/-! ## Results -/

/-- A file that was scanned, or why it was not. -/
abbrev FileResult := Except SourceError ScannedSource

/-- Scans what reading a file gave. -/
def scanFile (options : ScannerOptions) (path : String) (file : ReadResult) : FileResult :=
  (Source.ofRead path file).map (ScannedSource.ofSource options)

/-- The files that were scanned. -/
def scanned (results : List FileResult) : List ScannedSource :=
  results.filterMap fun
    | .ok s => some s
    | .error _ => none

/-- The lines about files that were not scanned. -/
def problems (results : List FileResult) : List String :=
  results.filterMap fun
    | .ok _ => none
    | .error e => some (problemLine e.message)

/-- The line that names a file before its tokens. -/
def header (s : ScannedSource) : String := s!"==> {s.source.name} <==\n"

/-- The tokens of files as lines, with headers if there are several files. -/
def textOutput (sources : List ScannedSource) : String :=
  String.join (sources.map fun s =>
    (if 1 < sources.length then header s else "") ++ listingText s.output.tokens)

/-- The reports on files. -/
def reports (color : Bool) (sources : List ScannedSource) : String :=
  String.join (sources.flatMap fun s =>
    s.diagnostics.map fun d => Report.render d s.source.name s.source.text color)

/-- Everything about files as one document. -/
def jsonOutput (sources : List ScannedSource) : String :=
  (Json.Document.list (sources.map ScannedSource.document)).write 0 ++ "\n"

/-- The number of files with an error. -/
def errorCount (sources : List ScannedSource) : Nat := sources.countP ScannedSource.hasError

/-- The line that closes a run with errors. -/
def errorSummary (count : Nat) : String :=
  s!"\nFound {count} error" ++ (if count = 1 then "" else "s") ++ ".\n"

/-- The exit code: a file that was not scanned counts for more than an error in one that was. -/
def exitCode (results : List FileResult) : Nat :=
  if !(problems results).isEmpty then 1
  else if 0 < errorCount (scanned results) then 2
  else 0

/-- The outcome of scanning files. -/
def outcomeOf (format : Format) (color : Bool) (results : List FileResult) : Outcome :=
  let sources := scanned results
  let exit := exitCode results
  let stdout := match format with
    | .text => textOutput sources
    | .json => jsonOutput sources
  let diagnostics := match format with
    | .text => reports color sources
    | .json => ""
  let summary := if exit = 2 then errorSummary (errorCount sources) else ""
  ⟨exit, stdout, String.join (problems results) ++ diagnostics ++ summary⟩

/-! ## The run -/

section

variable {m : Type → Type} [Monad m]

/-- Scans files, which are read one after another. -/
def scanFiles (read : String → m ReadResult) (options : ScannerOptions)
    (paths : List String) : m (List FileResult) :=
  paths.mapM fun path => do return scanFile options path (← read path)

/--
Runs what an invocation asks for.

The log of a run is no part of its outcome, so how much of it is wanted, and in which form, has no
effect here.
-/
def runScan (read : String → m ReadResult) (terminal : Bool)
    (i : Invocation) : m Outcome := do
  match settingsOf i (← read i.configPath) with
  | .error message => return .failed message
  | .ok s =>
    if (inputs i s).isEmpty then return .failed "No input files found."
    else
      let results ← scanFiles read (scannerOptions i s) (inputs i s)
      return outcomeOf (i.format.getD .text) (terminal && !i.noColor) results

/-- Runs with the arguments of a command line; `terminal` tells whether reports may be coloured. -/
def runWith (read : String → m ReadResult) (terminal : Bool)
    (arguments : List String) : m Outcome :=
  match parse arguments with
  | .error e => return ⟨2, "", problemLine e.message ++ "\n" ++ usageText⟩
  | .ok .version => return ⟨0, versionText, ""⟩
  | .ok .help => return ⟨0, usageText, ""⟩
  | .ok (.scan i) => runScan read terminal i

end

/-- Runs on files that are at hand. -/
def run (files : Files) (terminal : Bool) (arguments : List String) : Outcome :=
  runWith (m := Id) files terminal arguments

end Lexis.CommandLine
