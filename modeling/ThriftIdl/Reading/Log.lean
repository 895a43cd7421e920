/-!
# Log records

What a run says about its progress. Records are values: a run returns them, and the program decides
which of them to show.
-/

namespace ThriftIdl

/-- How important a record is. -/
inductive LogLevel where
  | trace
  | debug
  | info
  | warn
  | error
  deriving DecidableEq, Repr

namespace LogLevel

/-- The level in capital letters. -/
def name : LogLevel → String
  | .trace => "TRACE"
  | .debug => "DEBUG"
  | .info => "INFO"
  | .warn => "WARN"
  | .error => "ERROR"

/-- The place of a level, counted from the most important one. -/
def verbosity : LogLevel → Nat
  | .error => 0
  | .warn => 1
  | .info => 2
  | .debug => 3
  | .trace => 4

end LogLevel

/-- One thing that a run has to say. -/
structure LogRecord where
  level : LogLevel
  message : String
  deriving DecidableEq, Repr

end ThriftIdl
