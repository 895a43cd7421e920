import ThriftIdl.Proofs.Trace.Scanner
import ThriftIdl.Reading.Basic

/-!
# Reading step by step

How rules and whole sources are read by single operations: each attempt is bracketed by saving the
place where it begins and by forgetting that place again, and after a failure the attempt goes back
first. `Reading.trace` is the record of everything that is done while a source is read.
-/

namespace ThriftIdl

namespace Procedure

variable {α : Type}

/-- Tries alternatives from the saved place; the first that is done decides. -/
def firstOf (expected : String) : List (Procedure α) → Procedure α
  | [] => do
    perform .dropCheckpoint
    fail .grammar (.description expected)
  | alternative :: others => do
    match ← attempt alternative with
    | .ok value =>
      perform .dropCheckpoint
      return value
    | .error _ =>
      perform .restore
      firstOf expected others

/-- Tries alternatives in order, each from the same place. -/
def choice (expected : String) (alternatives : List (Procedure α)) : Procedure α := do
  perform .save
  firstOf expected alternatives

/-- Reads something if it is there, and otherwise nothing. -/
def optional (procedure : Procedure α) : Procedure (Option α) := do
  perform .save
  match ← attempt procedure with
  | .ok value =>
    perform .dropCheckpoint
    return some value
  | .error _ =>
    perform .restore
    perform .dropCheckpoint
    return none

/-- Reads items until one fails, or takes no bytes. -/
def collect (procedure : Procedure α) (state : State) : Traced (Outcome (List α)) :=
  match optional procedure state with
  | ⟨events, .failed failure after⟩ => ⟨events, .failed failure after⟩
  | ⟨events, .done none after⟩ => ⟨events, .done [] after⟩
  | ⟨events, .done (some item) after⟩ =>
    if after.remainingLength < state.remainingLength then
      match collect procedure after with
      | ⟨later, .done items last⟩ => ⟨events ++ later, .done (item :: items) last⟩
      | ⟨later, .failed failure last⟩ => ⟨events ++ later, .failed failure last⟩
    else ⟨events, .done [item] after⟩
termination_by state.remainingLength

/-- Reads as many items as there are. -/
def many (procedure : Procedure α) : Procedure (List α) := collect procedure

/-- Reads something one level deeper. -/
def nested (procedure : Procedure α) : Procedure α := do
  perform .enter
  let ending ← attempt procedure
  perform .leave
  finishAs ending

/-- Fails because of too deep nesting. -/
def refuseNesting : Procedure α := do
  perform .keepRefusal
  fail .lexical .shallowerNesting

end Procedure

/-- Reads what a rule matches, step by step. -/
def Rule.trace {α : Type} : Rule α → Procedure α
  | .pure value => Procedure.succeed value
  | .bind first next => Procedure.andThen first.trace fun value => (next value).trace
  | .token terminal => terminal.scan
  | .separator => Procedure.separator
  | .choice expected alternatives =>
    Procedure.choice expected (List.ofFn fun index => (alternatives index).trace)
  | .optional rule => Procedure.optional rule.trace
  | .many rule => Procedure.many rule.trace
  | .nested rule => Procedure.nested rule.trace
  | .refuseNesting => Procedure.refuseNesting

namespace ParseError

/-- The characters that an error shows, and what is done to find them. -/
def traceContext (state : State) (failure : Failure) : Traced (List Char) :=
  let source := state.cursor.source
  let offset := min failure.position.offset source.length
  if Utf8.isBoundary source offset then
    ⟨[], (Utf8.text (source.drop offset)).toList.take contextLength⟩
  else
    ⟨[⟨state, .slice source.length offset source.length⟩, ⟨state, .decodeLossy offset⟩],
      (Utf8.decodeLossy (source.drop offset)).take contextLength⟩

/-- The error that reports a failure, and what is done to find it. -/
def trace (state : State) (failure : Failure) : Traced ParseError :=
  (traceContext state failure).map fun context =>
    { message := failure.message ++ ", found " ++ found context
      context := String.ofList context
      line := failure.position.line
      kind := failure.kind }

end ParseError

namespace Reading

/-- Reads declarations until the end of the source or until one fails, step by step. -/
def traceState (rule : Rule Declaration) (state : State) : Traced Reading :=
  if state.cursor.atEnd then ⟨[⟨state, .finish⟩], ⟨[], none⟩⟩
  else
    match rule.trace (prepare state) with
    | ⟨events, .failed returned after⟩ =>
      ((ParseError.trace after (blame after returned)).map fun error => ⟨[], some error⟩).after
        (⟨state, .prepare⟩ :: events)
    | ⟨events, .done declaration after⟩ =>
      if after.remainingLength < state.remainingLength then
        ((traceState rule after).map fun rest =>
          ⟨(declaration, after.cursor.offset) :: rest.declarations, rest.error⟩).after
            (⟨state, .prepare⟩ :: events)
      else ⟨⟨state, .prepare⟩ :: events, ⟨[(declaration, after.cursor.offset)], none⟩⟩
termination_by state.remainingLength

/-- Reads a source from an offset on, step by step. -/
def trace (source : String) (offset : Nat) : Traced Reading :=
  match Procedure.skipGap (State.startAt (Utf8.encode source) offset) with
  | ⟨events, outcome⟩ =>
    (traceState (Grammar.declaration Grammar.maxNesting) outcome.state).after events

end Reading

end ThriftIdl
