import ThriftIdl.Reading.Log

/-!
# Reports

What a command has to say in the end, and what it said on the way. A report of success belongs on
the standard output, a report of failure on the standard error stream.
-/

namespace ThriftIdl

/-- The outcome of a command. -/
structure Report where
  succeeded : Bool
  text : String
  log : List LogRecord

namespace Report

/-- The text for the standard output. -/
def output? (report : Report) : Option String :=
  if report.succeeded then some report.text else none

/-- The text for the standard error stream. -/
def errorOutput? (report : Report) : Option String :=
  if report.succeeded then none else some report.text

/-- The exit code of the program. -/
def exitCode (report : Report) : Nat := if report.succeeded then 0 else 1

/-- The mark in front of a success. -/
def successMark : String := "✅"

/-- The mark in front of a failure. -/
def failureMark : String := "❌"

/-- How a truth value is written in the log. -/
def truth (value : Bool) : String := if value then "true" else "false"

end Report

end ThriftIdl
