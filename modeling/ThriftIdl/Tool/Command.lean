import ThriftIdl.Tool.ToJson
import ThriftIdl.Tool.Validate

/-!
# Commands

The commands of the program as one type, and a run of any of them with the records around it.
-/

namespace ThriftIdl

/-- What the user asks the program to do. -/
inductive Command where
  | toJson (request : ToJson)
  | validate (request : Validate)
  deriving DecidableEq, Repr

namespace Command

/-- The name of a command on the command line. -/
def name : Command → String
  | .toJson _ => "to-json"
  | .validate _ => "validate"

/-- The request as the log shows it. -/
def description : Command → String
  | .toJson request => request.description
  | .validate request => request.description

/-- Does what a command asks for. -/
def perform : Command → Disk → Report
  | .toJson request => request.run
  | .validate request => request.run

/-- The record before a run. -/
def startRecord (command : Command) : LogRecord :=
  ⟨.debug, "Running `" ++ command.name ++ "` with " ++ command.description ++ "."⟩

/-- The record after a run. -/
def finishRecord (report : Report) : LogRecord :=
  ⟨.debug, "Command finished (success: " ++ Report.truth report.succeeded ++ ")."⟩

/-- Does what a command asks for, with the records around it. -/
def run (command : Command) (disk : Disk) : Report :=
  let report := command.perform disk
  { report with log := [command.startRecord] ++ report.log ++ [finishRecord report] }

/-- The paths that a command looks at. -/
def paths : Command → List String
  | .toJson request => [request.file]
  | .validate request => request.paths

end Command

end ThriftIdl
