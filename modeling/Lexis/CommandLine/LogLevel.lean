/-!
# Log levels

How much a run logs: warnings only, or more with each repetition of the flag that asks for it.
-/

namespace Lexis

inductive LogLevel where
  | warn
  | info
  | debug
  | trace
  deriving DecidableEq, Repr

namespace LogLevel

/-- The level that a number of repetitions asks for. -/
def ofVerbosity : (count : Nat) → LogLevel
  | 0 => warn
  | 1 => info
  | 2 => debug
  | _ => trace

def name : LogLevel → String
  | warn => "warn"
  | info => "info"
  | debug => "debug"
  | trace => "trace"

end LogLevel

end Lexis
