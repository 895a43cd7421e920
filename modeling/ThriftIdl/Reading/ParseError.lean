import ThriftIdl.Source.Failure
import ThriftIdl.Text.Utf8

/-!
# Parse errors

A parse error is what the user sees of the failure that explains best why a source cannot be read:
what was expected and what was found instead, the line, and the text that follows.
-/

namespace ThriftIdl

/-- Why a source cannot be read. -/
structure ParseError where
  /-- What was expected and what was found. -/
  message : String
  /-- The beginning of the text at the failure. -/
  context : String
  /-- The line of the failure, counted from one. -/
  line : Nat
  /-- What sort of rule failed. -/
  kind : FailureKind
  deriving DecidableEq, Repr

namespace ParseError

/-- How many characters of the source an error shows at most. -/
def contextLength : Nat := 50

/-- What stands at the beginning of a context. -/
def found : List Char → String
  | [] => "end of input"
  | character :: _ => "`" ++ String.singleton character ++ "`"

/-- The error that reports a failure in a source. -/
def ofFailure (source : List UInt8) (failure : Failure) : ParseError :=
  let context :=
    (Utf8.decodeLossy (source.drop failure.position.offset)).take contextLength
  { message := failure.message ++ ", found " ++ found context
    context := String.ofList context
    line := failure.position.line
    kind := failure.kind }

/-- The name that stands for a source which is no file. -/
def inputName : String := "<input>"

/-- The error on one line. -/
def oneLine (error : ParseError) : String :=
  inputName ++ ":" ++ Numeral.ofNat error.line ++ ": error: " ++ error.message

/-- The first line of the context. -/
def contextLine (error : ParseError) : String :=
  String.ofList (error.context.toList.takeWhile fun character =>
    character != '\n' && character != '\r')

/-- The error with the line of the source that it is about. -/
def detailed (error : ParseError) (file : Option String) : String :=
  "error: " ++ error.message ++ "\n"
    ++ "  --> " ++ file.getD inputName ++ ":" ++ Numeral.ofNat error.line ++ "\n"
    ++ "   |\n"
    ++ "   | " ++ error.contextLine ++ "\n"
    ++ "   | ^\n"

end ParseError

end ThriftIdl
