import ThriftIdl.Tool.Arguments.Reading
import ThriftIdl.Tool.Arguments.Usage
import ThriftIdl.Tool.Verbosity

/-!
# The program

What the program does with its arguments, its environment and a disk, as one function. Without a
command it explains itself.
-/

namespace ThriftIdl

/-- What a run of the program leaves behind. -/
structure Exit where
  code : Nat
  output : String
  errorOutput : String
  deriving DecidableEq, Repr

namespace Program

/-- A text with a line ending, if there is one. -/
def line (text : Option String) : String :=
  match text with
  | some text => text ++ "\n"
  | none => ""

/-- The records from the start of the program up to the run of a command. -/
def startLog (level : LogLevel) (warning : Option String) : List LogRecord :=
  ⟨.trace, "Initial logging level set to `" ++ level.name ++ "`."⟩
    :: (warning.map fun text => ⟨.warn, text⟩).toList

/-- The lines for the records that are shown at a level. -/
def shown (level : LogLevel) (log : List LogRecord) : String :=
  String.join ((log.filter fun record => record.level.verbosity ≤ level.verbosity).map
    fun record => record.level.name ++ " " ++ record.message ++ "\n")

/-- Does what the arguments ask for. -/
def invoke (invocation : Invocation) (disk : Disk) (environment : Option String) : Exit :=
  let (level, warning) := LogLevel.choose invocation.verbose environment
  let before := startLog level warning
  match invocation.command with
  | none => ⟨0, HelpText.ofCommand .program, shown level before⟩
  | some command =>
    let report := command.run disk
    ⟨report.exitCode, line report.output?,
      shown level (before ++ report.log) ++ line report.errorOutput?⟩

/-- Says why the arguments lead to no run. -/
def refuse (rejection : Rejection) : Exit :=
  if rejection.isExplanation then ⟨rejection.exitCode, rejection.text, ""⟩
  else ⟨rejection.exitCode, "", rejection.text⟩

/-- Runs the program. -/
def run (arguments : List String) (disk : Disk) (environment : Option String) : Exit :=
  match Invocation.ofArguments arguments with
  | .ok invocation => invoke invocation disk environment
  | .error rejection => refuse rejection

end Program

end ThriftIdl
