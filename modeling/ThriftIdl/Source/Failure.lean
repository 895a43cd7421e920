import ThriftIdl.Source.Position

/-!
# Failures

A failure says what a rule expected and where. Failures are ordinary: a choice goes on to its next
alternative after one, and a repetition ends at one. Only the failure that explains best why a
declaration cannot be read ever reaches the user.
-/

namespace ThriftIdl

/-- What sort of rule failed. -/
inductive FailureKind where
  /-- A token is malformed or absent. -/
  | lexical
  /-- No alternative of a choice fits. -/
  | grammar
  /-- A punctuation mark is absent. -/
  | structural
  deriving DecidableEq, Repr

namespace FailureKind

/-- The kind in words. -/
def description : FailureKind → String
  | .lexical => "lexical failure"
  | .grammar => "grammar failure"
  | .structural => "structural failure"

end FailureKind

/-- What a rule expected. -/
inductive Expected where
  /-- A certain byte. -/
  | byte (value : UInt8)
  /-- A certain word. -/
  | keyword (word : String)
  /-- Something that has a description only. -/
  | description (text : String)
  /-- Less nesting of values or types. -/
  | shallowerNesting
  deriving DecidableEq, Repr

namespace Expected

/-- The expectation in words; exact texts stand between backticks. -/
def text : Expected → String
  | .byte value => "`" ++ String.singleton (Byte.toChar value) ++ "`"
  | .keyword word => "`" ++ word ++ "`"
  | .description text => text
  | .shallowerNesting => "shallower nesting"

end Expected

/-- Why a rule does not match, and where. -/
structure Failure where
  kind : FailureKind
  expected : Expected
  position : Position
  deriving DecidableEq, Repr

namespace Failure

/-- The failure in words, without what was found instead. -/
def message (failure : Failure) : String :=
  match failure.expected, failure.kind with
  | .shallowerNesting, _ => "maximum nesting depth exceeded"
  | expected, .grammar => "unexpected token, expected " ++ expected.text
  | expected, .lexical => "expected " ++ expected.text
  | expected, .structural => "expected " ++ expected.text

end Failure

end ThriftIdl
