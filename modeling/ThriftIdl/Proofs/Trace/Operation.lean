import ThriftIdl.Grammar.Action

/-!
# Operations

Reading a source comes down to a few operations on the cursor: looking at bytes, moving on, saving a
place and going back to it, and noting failures. Some of them make sense only in some states; a move
must not leave the source, and there must be a place to go back to. The functions that read never
complain about such an operation, since they are total. So here each operation is written down
together with the state in which it is carried out, and whether it was allowed there can be asked
afterwards.

A `Procedure` is an action that leaves such a record. It goes on after an operation that was not
allowed as the total functions do, and the record tells.
-/

namespace ThriftIdl

/-- What can be done with a state. -/
inductive Operation where
  /-- Looks at the bytes from one place up to another out of some bytes. -/
  | slice (size start stop : Nat)
  /-- Looks at the byte at a place of some bytes. -/
  | index (size place : Nat)
  /-- Cuts out the text from an offset up to the current one. -/
  | text (start : Nat)
  /-- Decodes the bytes behind an offset that lies inside a character. -/
  | decodeLossy (offset : Nat)
  /-- Moves on by that many bytes. -/
  | bump (count : Nat)
  /-- Counts the line ending at the current place and moves past it. -/
  | pass (byte : UInt8)
  /-- Moves to an offset and counts some line endings as passed on the way. -/
  | jump (offset : Nat) (lineEnds : List UInt8)
  /-- Saves the current place. -/
  | save
  /-- Goes back to the latest saved place. -/
  | restore
  /-- Forgets the latest saved place. -/
  | dropCheckpoint
  /-- Takes note of a failure at the current place. -/
  | fail (kind : FailureKind) (expected : Expected)
  /-- Keeps a refusal of nesting at the current place, unless there is an earlier one. -/
  | keepRefusal
  /-- Opens a level. -/
  | enter
  /-- Closes a level. -/
  | leave
  /-- Forgets all failures. -/
  | prepare
  /-- Ends the reading of a source. -/
  | finish
  deriving DecidableEq, Repr

namespace Mark

/-- Counts a line ending and moves past it. -/
def pass (mark : Mark) (byte : UInt8) : Mark :=
  { mark with position := mark.position.record byte }.bump 1

/-- The place at an offset of the source, with some more line endings counted. -/
def jump (mark : Mark) (source : List UInt8) (offset : Nat) (lineEnds : List UInt8) : Mark :=
  ⟨(lineEnds.foldl Position.record mark.position).jumpTo offset, source.drop offset⟩

end Mark

namespace State

/-- Applies an operation to the current place. -/
def mapMark (state : State) (move : Mark → Mark) : State :=
  state.mapCursor fun cursor => { cursor with mark := move cursor.mark }

/-- Keeps a refusal of nesting at the current place, unless there is an earlier one. -/
def keepRefusal (state : State) : State :=
  { state with
    tooDeep := state.tooDeep.or (some (state.cursor.failure .lexical .shallowerNesting)) }

end State

namespace Operation

/-- The state after an operation. Looking at bytes leaves it as it is. -/
def apply (state : State) : Operation → State
  | slice _ _ _ => state
  | index _ _ => state
  | text _ => state
  | decodeLossy _ => state
  | bump count => state.mapCursor (Cursor.bump · count)
  | pass byte => state.mapMark (Mark.pass · byte)
  | jump offset lineEnds => state.mapMark (Mark.jump · state.cursor.source offset lineEnds)
  | save => state.save
  | restore => state.restore
  | dropCheckpoint => state.dropCheckpoint
  | fail kind expected => state.mapCursor (Cursor.fail · kind expected)
  | keepRefusal => state.keepRefusal
  | enter => state.enter
  | leave => state.leave
  | prepare => { state with cursor := state.cursor.clearFurthest, tooDeep := none }
  | finish => state

/--
Whether an operation makes sense in a state: bytes are looked at where there are some, no move goes
back or beyond the end of the source, there is a saved place to go back to or to forget and a level
to close, and at the end nothing is left of either.
-/
def Allowed (state : State) : Operation → Prop
  | slice size start stop => start ≤ stop ∧ stop ≤ size
  | index size place => place < size
  | decodeLossy offset => offset ≤ state.cursor.source.length
  | bump count => state.cursor.offset + count ≤ state.cursor.source.length
  | pass _ => state.cursor.offset + 1 ≤ state.cursor.source.length
  | jump offset _ => state.cursor.offset ≤ offset ∧ offset ≤ state.cursor.source.length
  | restore => state.cursor.checkpoints ≠ []
  | dropCheckpoint => state.cursor.checkpoints ≠ []
  | leave => 0 < state.depth
  | finish => state.cursor.checkpoints = [] ∧ state.depth = 0
  | _ => True

end Operation

/-- An operation with the state in which it is carried out. -/
structure Event where
  before : State
  operation : Operation

namespace Event

/-- The state after the operation. -/
def after (event : Event) : State := event.operation.apply event.before

/-- Events from a first state to a last one, each of them in the state after the one before. -/
inductive Chain : State → List Event → State → Prop where
  | nil (state : State) : Chain state [] state
  | cons {event : Event} {events : List Event} {last : State}
      (others : Chain event.after events last) : Chain event.before (event :: events) last

end Event

/-- A result together with what happened on the way to it, in order. -/
structure Traced (α : Type) where
  events : List Event
  result : α

namespace Traced

variable {α β : Type}

/-- A result with earlier events in front of its own. -/
def after (earlier : List Event) (traced : Traced α) : Traced α :=
  ⟨earlier ++ traced.events, traced.result⟩

/-- Another result with the same events. -/
def map (function : α → β) (traced : Traced α) : Traced β :=
  ⟨traced.events, function traced.result⟩

end Traced

/-- An action that leaves a record of its operations. -/
def Procedure (α : Type) : Type := State → Traced (Outcome α)

namespace Procedure

variable {α β : Type}

/-- Does nothing. -/
def succeed (value : α) : Procedure α := fun state => ⟨[], .done value state⟩

/-- One procedure and then another that may depend on its value. -/
def andThen (first : Procedure α) (next : α → Procedure β) : Procedure β := fun state =>
  match first state with
  | ⟨events, .done value after⟩ => (next value after).after events
  | ⟨events, .failed failure after⟩ => ⟨events, .failed failure after⟩

instance : Monad Procedure where
  pure := succeed
  bind := andThen

/-- The current state. -/
def state : Procedure State := fun state => ⟨[], .done state state⟩

/-- Carries out an operation. -/
def perform (operation : Operation) : Procedure Unit := fun state =>
  ⟨[⟨state, operation⟩], .done () (operation.apply state)⟩

/-- Fails at the current place and takes note of the failure. -/
def fail (kind : FailureKind) (expected : Expected) : Procedure α := fun state =>
  ⟨[⟨state, .fail kind expected⟩],
    .failed (state.cursor.failure kind expected) (state.mapCursor (Cursor.fail · kind expected))⟩

/-- Carries a procedure out and hands on how it ended. -/
def attempt (procedure : Procedure α) : Procedure (Except Failure α) := fun state =>
  match procedure state with
  | ⟨events, .done value after⟩ => ⟨events, .done (.ok value) after⟩
  | ⟨events, .failed failure after⟩ => ⟨events, .done (.error failure) after⟩

/-- Ends as an attempt did. -/
def finishAs (ending : Except Failure α) : Procedure α := fun state =>
  match ending with
  | .ok value => ⟨[], .done value state⟩
  | .error failure => ⟨[], .failed failure state⟩

/-- The bytes behind a place of some bytes. -/
def slice (bytes : List UInt8) (start : Nat) : Procedure (List UInt8) := do
  perform (.slice bytes.length start bytes.length)
  return bytes.drop start

/-- The bytes between two places of some bytes. -/
def sliceBetween (bytes : List UInt8) (start stop : Nat) : Procedure (List UInt8) := do
  perform (.slice bytes.length start stop)
  return (bytes.take stop).drop start

/-- The current offset. -/
def offset : Procedure Nat := do
  return (← state).cursor.offset

/-- The bytes of the source behind the current offset. -/
def remaining : Procedure (List UInt8) := do
  slice (← state).cursor.source (← offset)

/-- The byte that many places ahead, if there is one. -/
def peekAhead (count : Nat) : Procedure (Option UInt8) := do
  return (← remaining)[count]?

/-- Moves on by that many bytes. -/
def bump (count : Nat) : Procedure Unit := do
  let _ ← remaining
  perform (.bump count)

/-- The text from an offset up to the current one. -/
def textFrom (start : Nat) : Procedure String := do
  perform (.text start)
  return (← state).cursor.sliceFrom start

/-- Fails because a token is malformed or absent. -/
def missing (expected : String) : Procedure α := fail .lexical (.description expected)

end Procedure

end ThriftIdl
