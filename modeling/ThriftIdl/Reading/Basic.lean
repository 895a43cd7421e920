import ThriftIdl.Document.Basic
import ThriftIdl.Grammar.Declaration
import ThriftIdl.Reading.Log
import ThriftIdl.Reading.ParseError

/-!
# Reading documents

A source is read declaration by declaration up to its end or to the first one that cannot be read.
The failure that is reported then is the first refusal of nesting since the declaration began, or
else the failure that reached furthest.
-/

namespace ThriftIdl

/-- What was read from a source. -/
structure Reading where
  /-- The declarations, each with the offset at which the next one begins. -/
  declarations : List (Declaration × Nat)
  /-- Why reading stopped before the end of the source. -/
  error : Option ParseError

namespace Reading

/-- Forgets the failures of the declarations before. -/
def prepare (state : State) : State :=
  { state with cursor := state.cursor.clearFurthest, tooDeep := none }

/-- The failure that explains best why a declaration cannot be read. -/
def blame (state : State) (returned : Failure) : Failure :=
  (state.tooDeep.or state.cursor.furthest).getD returned

/--
Reads declarations with a rule until the end of the source or until one fails. A declaration that
takes no bytes is the last one, as it could be read forever.
-/
def ofState (rule : Rule Declaration) (state : State) : Reading :=
  if state.cursor.atEnd then ⟨[], none⟩
  else
    match rule.run (prepare state) with
    | .failed returned after =>
      ⟨[], some (ParseError.ofFailure after.cursor.source (blame after returned))⟩
    | .done declaration after =>
      if after.remainingLength < state.remainingLength then
        let rest := ofState rule after
        ⟨(declaration, after.cursor.offset) :: rest.declarations, rest.error⟩
      else ⟨[(declaration, after.cursor.offset)], none⟩
termination_by state.remainingLength

/-- Reads the declarations that nest at most that deeply, after the gap in front of them. -/
def ofStateWithin (room : Nat) (state : State) : Reading :=
  ofState (Grammar.declaration room) (state.mapCursor Cursor.skipGap)

/-- Reads a source from an offset on. -/
def ofSource (source : String) (offset : Nat) : Reading :=
  ofStateWithin Grammar.maxNesting (State.startAt (Utf8.encode source) offset)

/-- The document of the declarations, if the whole source was read. -/
def document (reading : Reading) : Except ParseError Document :=
  match reading.error with
  | some error => .error error
  | none => .ok (Document.ofList (reading.declarations.map Prod.fst))

/-- The record of one declaration. -/
def declarationRecord (declaration : Declaration) (finish : Nat) : LogRecord :=
  ⟨.trace, "Parsed " ++ declaration.kind.keyword ++ " `" ++ declaration.name
    ++ "` (ending at byte " ++ Numeral.ofNat finish ++ ")."⟩

/-- The record of an error. -/
def errorRecord (error : ParseError) : LogRecord := ⟨.debug, "Halting parse: " ++ error.oneLine⟩

/-- What reading has to say: a record for each declaration, and one for the error. -/
def log (reading : Reading) : List LogRecord :=
  (reading.declarations.map fun (declaration, finish) => declarationRecord declaration finish)
    ++ (reading.error.map errorRecord).toList

end Reading

namespace Document

/-- The document of a source from an offset on, or why it cannot be read. -/
def parseFrom (source : String) (offset : Nat) : Except ParseError Document :=
  (Reading.ofSource source offset).document

/-- The document of a source, or why it cannot be read. -/
def parse (source : String) : Except ParseError Document := parseFrom source 0

end Document

end ThriftIdl
