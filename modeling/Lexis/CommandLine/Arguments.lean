/-!
# Arguments of the command line

Options stand anywhere among the names of files; after `--` everything is the name of a file. A long
option takes its value from the next argument or from behind an equals sign, a short one also from
the letters behind it, and short flags may be put together. An option that takes a value may be
given only once. Asking for the version or for help ends the reading of arguments.
-/

namespace Lexis.CommandLine

/-- How tokens are written. -/
inductive Format where
  | text
  | json
  deriving DecidableEq, Repr

/-- How log lines are written. -/
inductive LogFormat where
  | pretty
  | compact
  deriving DecidableEq, Repr

/-- What the arguments ask for. Absent values take a default later on. -/
structure Invocation where
  files : List String := []
  config : Option String := none
  format : Option Format := none
  noColor : Bool := false
  maxInterpolationDepth : Option UInt64 := none
  logFormat : Option LogFormat := none
  verbosity : Nat := 0
  deriving DecidableEq, Repr

/-- What a run is to do. -/
inductive Request where
  | scan (i : Invocation)
  | version
  | help
  deriving DecidableEq, Repr

/-- Why arguments are not understood. -/
inductive UsageError where
  | unexpected (argument : String)
  | missingValue (option : String)
  | unwantedValue (option : String)
  | invalidValue (option value : String)
  | repeated (option : String)
  deriving DecidableEq, Repr

namespace UsageError

def message : UsageError → String
  | unexpected argument => s!"unexpected argument '{argument}' found"
  | missingValue option => s!"a value is required for '{option}' but none was supplied"
  | unwantedValue option => s!"no value is expected for '{option}'"
  | invalidValue option value => s!"invalid value '{value}' for '{option}'"
  | repeated option => s!"the argument '{option}' cannot be used multiple times"

end UsageError

/-! ## Options -/

/-- The options that take a value. -/
inductive ValueOption where
  | config
  | format
  | maxInterpolationDepth
  | logFormat
  deriving DecidableEq, Repr

namespace ValueOption

def all : List ValueOption := [config, format, maxInterpolationDepth, logFormat]

def name : ValueOption → String
  | config => "--config"
  | format => "--format"
  | maxInterpolationDepth => "--max-interpolation-depth"
  | logFormat => "--log-format"

end ValueOption

/-- A number without a sign, or with a plus sign, of at most 64 bits. -/
def readSize? (value : String) : Option UInt64 :=
  let digits := match value.toList with
    | '+' :: rest => rest
    | cs => cs
  if digits.isEmpty || !digits.all (fun c => '0' ≤ c && c ≤ '9') then none
  else
    let n := digits.foldl (fun n c => 10 * n + (c.toNat - '0'.toNat)) 0
    if n < UInt64.size then some (UInt64.ofNat n) else none

/-- The value of an option, among named ones. -/
def chosen? {α : Type} (choices : List (String × α)) (value : String) : Option α :=
  choices.lookup value

/-- Stores the value of an option; nothing if it is not one of its values. -/
def store? (i : Invocation) (option : ValueOption) (value : String) : Option Invocation :=
  match option with
  | .config => if value.isEmpty then none else some { i with config := some value }
  | .format =>
    (chosen? [("text", Format.text), ("json", .json)] value).map
      fun f => { i with format := some f }
  | .maxInterpolationDepth =>
    (readSize? value).map fun n => { i with maxInterpolationDepth := some n }
  | .logFormat =>
    (chosen? [("pretty", LogFormat.pretty), ("compact", .compact)] value).map
      fun f => { i with logFormat := some f }

/-- Whether an option has been given. -/
def Invocation.has (i : Invocation) : ValueOption → Bool
  | .config => i.config.isSome
  | .format => i.format.isSome
  | .maxInterpolationDepth => i.maxInterpolationDepth.isSome
  | .logFormat => i.logFormat.isSome

/-- Gives an option its value. -/
def give (i : Invocation) (option : ValueOption) (value : String) : Except UsageError Invocation :=
  if i.has option then .error (.repeated option.name)
  else
    match store? i option value with
    | some i => .ok i
    | none => .error (.invalidValue option.name value)

/-- Whether an argument is one or several options. -/
def isOption (argument : String) : Bool := argument.startsWith "-" && argument ≠ "-"

/-! ## Reading -/

/-- What an argument makes of the invocation. -/
inductive Step where
  | continue (i : Invocation)
  /-- The next argument is the value of an option. -/
  | value (option : ValueOption) (i : Invocation)
  | finish (request : Request)
  deriving DecidableEq, Repr

/-- Splits an argument at its first equals sign. -/
def splitValue (argument : String) : String × Option String :=
  let front := argument.toList.takeWhile (· ≠ '=')
  match argument.toList.dropWhile (· ≠ '=') with
  | [] => (argument, none)
  | _ :: value => (String.ofList front, some (String.ofList value))

/-- Reads an option that starts with two hyphens. -/
def readLong (i : Invocation) (argument : String) : Except UsageError Step :=
  let (name, value) := splitValue argument
  match ValueOption.all.find? (·.name = name), value with
  | some option, some value => (give i option value).map .continue
  | some option, none => .ok (.value option i)
  | none, _ =>
    if name ∉ ["--no-color", "--verbose", "--version", "--help"] then .error (.unexpected name)
    else if value.isSome then .error (.unwantedValue name)
    else if name = "--version" then .ok (.finish .version)
    else if name = "--help" then .ok (.finish .help)
    else if name = "--verbose" then .ok (.continue { i with verbosity := i.verbosity + 1 })
    else if i.noColor then .error (.repeated name)
    else .ok (.continue { i with noColor := true })

/-- Reads the letters behind one hyphen. -/
def readShort (i : Invocation) : (letters : List Char) → Except UsageError Step
  | [] => .ok (.continue i)
  | 'v' :: rest => readShort { i with verbosity := i.verbosity + 1 } rest
  | 'V' :: _ => .ok (.finish .version)
  | 'h' :: _ => .ok (.finish .help)
  | 'c' :: [] => .ok (.value .config i)
  | 'c' :: '=' :: value => (give i .config (String.ofList value)).map .continue
  | 'c' :: value => (give i .config (String.ofList value)).map .continue
  | c :: _ => .error (.unexpected ("-" ++ c.toString))

/-- Adds the name of a file. -/
def addFile (i : Invocation) (name : String) : Except UsageError Invocation :=
  if name.isEmpty then .error (.invalidValue "[FILE]..." name)
  else .ok { i with files := i.files ++ [name] }

/-- Adds the names of files. -/
def addFiles (i : Invocation) : (names : List String) → Except UsageError Request
  | [] => .ok (.scan i)
  | name :: names =>
    match addFile i name with
    | .error e => .error e
    | .ok i => addFiles i names

/-- Reads one argument. -/
def readArgument (i : Invocation) (argument : String) : Except UsageError Step :=
  if !isOption argument then (addFile i argument).map .continue
  else if argument.startsWith "--" then readLong i argument
  else readShort i (argument.toList.drop 1)

/-- Reads the arguments from left to right. -/
def readArguments (i : Invocation) : (arguments : List String) → Except UsageError Request
  | [] => .ok (.scan i)
  | argument :: rest =>
    if argument = "--" then addFiles i rest
    else
      match readArgument i argument, rest with
      | .error e, _ => .error e
      | .ok (.finish request), _ => .ok request
      | .ok (.continue i), rest => readArguments i rest
      | .ok (.value option _), [] => .error (.missingValue option.name)
      | .ok (.value option i), value :: rest =>
        if isOption value then .error (.missingValue option.name)
        else
          match give i option value with
          | .error e => .error e
          | .ok i => readArguments i rest

/-- What the arguments of a run ask for. -/
def parse (arguments : List String) : Except UsageError Request := readArguments {} arguments

end Lexis.CommandLine
