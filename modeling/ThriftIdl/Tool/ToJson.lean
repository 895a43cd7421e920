import ThriftIdl.Json.OfDocument
import ThriftIdl.Json.Render
import ThriftIdl.Reading.Basic
import ThriftIdl.Tool.Annotations
import ThriftIdl.Tool.Content
import ThriftIdl.Tool.Report

/-!
# The command that converts a file to JSON
-/

namespace ThriftIdl

/-- What the user asks of the conversion. -/
structure ToJson where
  compact : Bool
  keepAnnotations : Bool
  file : String
  deriving DecidableEq, Repr

namespace ToJson

/-- The request as the log shows it. -/
def description (request : ToJson) : String :=
  "ToJsonCmd \x7b compact: " ++ Report.truth request.compact
    ++ ", keep_annotations: " ++ Report.truth request.keepAnnotations
    ++ ", file_path: " ++ Quoted.text request.file ++ " \x7d"

/-- The JSON text of a document. -/
def render (request : ToJson) (document : Document) : String :=
  if request.compact then document.toJson.compact else document.toJson.pretty

/-- What is read from a source. -/
def reading (request : ToJson) (source : String) : Reading :=
  Reading.ofSource (Annotations.prepare request.keepAnnotations source) 0

/-- The JSON text for a source, or the detailed error. -/
def convert (request : ToJson) (source : String) : Except String String :=
  match (request.reading source).document with
  | .ok document => .ok (request.render document)
  | .error error => .error (error.detailed (some request.file))

/-- The records of a conversion. -/
def log (request : ToJson) (source : String) : List LogRecord :=
  let reading := request.reading source
  reading.log ++
    match reading.document with
    | .ok document =>
      [⟨.debug, "Parsed " ++ Numeral.ofNat document.size ++ " declarations from "
        ++ Quoted.text request.file ++ "."⟩]
    | .error _ => []

/-- Converts the file. -/
def run (request : ToJson) (disk : Disk) : Report :=
  match disk.read request.file with
  | .error error => ⟨false, Report.failureMark ++ " " ++ error.message, []⟩
  | .ok source =>
    match request.convert source with
    | .ok json => ⟨true, json, request.log source⟩
    | .error message => ⟨false, Report.failureMark ++ " " ++ message, request.log source⟩

end ToJson

end ThriftIdl
