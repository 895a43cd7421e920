import ThriftIdl.Reading.Log
import ThriftIdl.Text.Blank

/-!
# Verbosity

How much of the log is shown. The command line decides first, the environment second.
-/

namespace ThriftIdl

namespace LogLevel

/-- The level that a word names, in capital or in small letters. -/
def ofWord? (word : String) : Option LogLevel :=
  if word = "TRACE" || word = "trace" then some .trace
  else if word = "DEBUG" || word = "debug" || word = "VERBOSE" || word = "verbose" then some .debug
  else if word = "INFO" || word = "info" then some .info
  else if word = "WARN" || word = "warn" then some .warn
  else if word = "ERROR" || word = "error" then some .error
  else none

/-- The level where nothing is said about it. -/
def default : LogLevel := .info

/-- The name of the environment variable. -/
def variableName : String := "LOG_LEVEL"

/-- The warning about a word that names no level. -/
def warning (word : String) : String :=
  "Invalid `" ++ variableName ++ "` environment variable value: `" ++ word ++ "`"

/--
The level for a run, and a warning if the environment names none. The value of the environment
variable may have blanks around it.
-/
def choose (verbose : Bool) (environment : Option String) : LogLevel × Option String :=
  if verbose then (.debug, none)
  else
    match environment with
    | none => (default, none)
    | some value =>
      let word := Blank.trim value
      match ofWord? word with
      | some level => (level, none)
      | none => (default, some (warning word))

end LogLevel

end ThriftIdl
