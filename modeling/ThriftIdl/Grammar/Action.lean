import ThriftIdl.Grammar.Token
import ThriftIdl.Source.Cursor

/-!
# Actions

An action reads something from a source: it takes a state and is done with a value, or fails. Either
way it hands on a state. The combinators of this module go back to where they started after a failed
attempt, and they leave the stack of saved places as they found it whenever the attempts do.
-/

namespace ThriftIdl

/-- The state of reading. -/
structure State where
  /-- The place in the source, with the places and the failure to come back to. -/
  cursor : Cursor
  /-- The first failure that was due to too deep nesting. -/
  tooDeep : Option Failure
  /-- How many values and types are being read around the current place. -/
  depth : Nat
  deriving DecidableEq, Repr

namespace State

/-- The state of reading a source from an offset on. -/
def startAt (source : List UInt8) (offset : Nat) : State :=
  ⟨Cursor.startAt source offset, none, 0⟩

/-- Applies an operation to the cursor. -/
def mapCursor (state : State) (operation : Cursor → Cursor) : State :=
  { state with cursor := operation state.cursor }

/-- Saves the current place. -/
def save (state : State) : State := state.mapCursor Cursor.save

/-- Goes back to the latest saved place. -/
def restore (state : State) : State := state.mapCursor Cursor.restore

/-- Forgets the latest saved place. -/
def dropCheckpoint (state : State) : State := state.mapCursor Cursor.dropCheckpoint

/-- Goes one level deeper. -/
def enter (state : State) : State := { state with depth := state.depth + 1 }

/-- Comes back from one level. -/
def leave (state : State) : State := { state with depth := state.depth - 1 }

/-- How many bytes remain. -/
def remainingLength (state : State) : Nat := state.cursor.remaining.length

end State

/-- How an action ends. -/
inductive Outcome (α : Type) where
  | done (value : α) (state : State)
  | failed (failure : Failure) (state : State)

namespace Outcome

/-- The state that the action hands on. -/
def state {α : Type} : Outcome α → State
  | .done _ state => state
  | .failed _ state => state

/-- The value of the action, or why there is none. -/
def result {α : Type} : Outcome α → Except Failure α
  | .done value _ => .ok value
  | .failed failure _ => .error failure

end Outcome

/-- Something to read from a source. -/
abbrev Action (α : Type) := State → Outcome α

namespace Action

variable {α β : Type}

/-- Reads nothing. -/
def succeed (value : α) : Action α := fun state => .done value state

/-- Fails at the current place and takes note of the failure. -/
def fail (kind : FailureKind) (expected : Expected) : Action α := fun state =>
  .failed (state.cursor.failure kind expected) (state.mapCursor (Cursor.fail · kind expected))

/-- Reads one thing and then another that may depend on it. -/
def andThen (first : Action α) (next : α → Action β) : Action β := fun state =>
  match first state with
  | .done value after => next value after
  | .failed failure after => .failed failure after

/-- Reads a token and the gap behind it. -/
def take (token : Token α) : Action α := fun state =>
  match token.recognize state.cursor.remaining with
  | .found value length => .done value (state.mapCursor fun cursor => (cursor.bump length).skipGap)
  | .missing kind expected understood =>
    fail kind expected (state.mapCursor (Cursor.bump · understood))

/-- Reads a separator and the gap behind it, if there is one; its absence is no failure. -/
def separator : Action Bool := fun state =>
  if state.cursor.peek.any Byte.isSeparator then
    .done true (state.mapCursor fun cursor => (cursor.bump 1).skipGap)
  else .done false state

/-- Fails because of too deep nesting. The first such failure is kept apart from all others. -/
def refuseNesting : Action α := fun state =>
  let failure := state.cursor.failure .lexical .shallowerNesting
  fail .lexical .shallowerNesting { state with tooDeep := state.tooDeep.or (some failure) }

/-- Reads something one level deeper. -/
def nested (action : Action α) : Action α := fun state =>
  match action state.enter with
  | .done value after => .done value after.leave
  | .failed failure after => .failed failure after.leave

/-- Tries alternatives from the saved place; the first that is done decides. -/
def firstOf (expected : String) : List (Action α) → Action α
  | [], state => fail .grammar (.description expected) state.dropCheckpoint
  | alternative :: others, state =>
    match alternative state with
    | .done value after => .done value after.dropCheckpoint
    | .failed _ after => firstOf expected others after.restore

/-- Tries alternatives in order, each from the same place. -/
def choice (expected : String) (alternatives : List (Action α)) : Action α := fun state =>
  firstOf expected alternatives state.save

/-- Reads something if it is there, and otherwise nothing. -/
def optional (action : Action α) : Action (Option α) := fun state =>
  match action state.save with
  | .done value after => .done (some value) after.dropCheckpoint
  | .failed _ after => .done none after.restore.dropCheckpoint

/--
Reads items until one fails, and goes back to where that one began. An item that takes no bytes is
the last one, as it could be read forever.
-/
def collect (action : Action α) (state : State) : List α × State :=
  match action state.save with
  | .failed _ after => ([], after.restore.dropCheckpoint)
  | .done item after =>
    let next := after.dropCheckpoint
    if next.remainingLength < state.remainingLength then
      let (items, last) := collect action next
      (item :: items, last)
    else ([item], next)
termination_by state.remainingLength

/-- Reads as many items as there are. -/
def many (action : Action α) : Action (List α) := fun state =>
  let (items, after) := collect action state
  .done items after

end Action

end ThriftIdl
