import Lexis.CommandLine.Run

/-!
# The program

Runs the command line on the files of the system.
-/

namespace Lexis

/-- The number of a system error, which is given with either sign. -/
def errorNumber (code : UInt32) : UInt32 := if code < 0x80000000 then code else 0 - code

/-- Why the system could not read a file. -/
def readErrorOf : IO.Error → ReadError
  | .noFileOrDirectory .. => .notFound
  | .permissionDenied .. => .permissionDenied
  | .inappropriateType _ code _ => if errorNumber code = 20 then .notAFolder else .isAFolder
  | .invalidArgument _ code _ => if errorNumber code = 36 then .nameTooLong else .nulInName
  | e => .other (toString e)

/-- Reads a file of the system. -/
def readSystemFile (path : String) : IO ReadResult := do
  try
    return .ok (← IO.FS.readBinFile path).toList
  catch e =>
    return .error (readErrorOf e)

end Lexis

open Lexis in
/-- Runs with the arguments of the process, prints the outcome and gives the exit code. -/
def main (arguments : List String) : IO UInt32 := do
  let stderr ← IO.getStderr
  let outcome ← CommandLine.runWith readSystemFile (← stderr.isTty) arguments
  (← IO.getStdout).putStr outcome.stdout
  stderr.putStr outcome.stderr
  return UInt32.ofNat outcome.exit
