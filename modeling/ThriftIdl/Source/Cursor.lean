import ThriftIdl.Source.Failure
import ThriftIdl.Source.Gap
import ThriftIdl.Text.Utf8

/-!
# Cursors

A cursor is all the state of reading one source: the current place, a stack of saved places to go
back to, and the failure that reached furthest into the source so far. Going back never forgets that
failure, which is what lets the reader explain a declaration that no rule accepts.
-/

namespace ThriftIdl

/-- The state of reading a source. -/
structure Cursor where
  /-- The bytes of the whole source. -/
  source : List UInt8
  /-- The current place. -/
  mark : Mark
  /-- The saved places, the latest first. -/
  checkpoints : List Mark
  /-- The failure with the greatest offset, the latest of several with the same offset. -/
  furthest : Option Failure
  deriving DecidableEq, Repr

namespace Cursor

/-- A cursor at an offset of a source, or at its end if the offset lies beyond. -/
def startAt (source : List UInt8) (offset : Nat) : Cursor :=
  ⟨source, ⟨⟨min offset source.length, 0, 0⟩, source.drop offset⟩, [], none⟩

/-- The current place without what remains. -/
def position (cursor : Cursor) : Position := cursor.mark.position

/-- The current offset. -/
def offset (cursor : Cursor) : Nat := cursor.mark.position.offset

/-- The bytes from the current place to the end. -/
def remaining (cursor : Cursor) : List UInt8 := cursor.mark.remaining

/-- Whether nothing remains. -/
def atEnd (cursor : Cursor) : Bool := cursor.mark.remaining.isEmpty

/-- The byte that many places ahead, if there is one. -/
def peekAhead (cursor : Cursor) (count : Nat) : Option UInt8 := cursor.mark.remaining[count]?

/-- The byte at the current place, if there is one. -/
def peek (cursor : Cursor) : Option UInt8 := cursor.peekAhead 0

/-- Moves on by that many bytes, or to the end of the source if fewer remain. -/
def bump (cursor : Cursor) (count : Nat) : Cursor :=
  { cursor with mark := cursor.mark.bump count }

/-- Passes over the gap that starts at the current place. -/
def skipGap (cursor : Cursor) : Cursor := { cursor with mark := cursor.mark.skipGap }

/-- The text from an offset to the current one; empty if either lies inside a character. -/
def sliceFrom (cursor : Cursor) (start : Nat) : String :=
  if start ≤ cursor.offset && Utf8.isBoundary cursor.source start
      && Utf8.isBoundary cursor.source cursor.offset then
    Utf8.text ((cursor.source.drop start).take (cursor.offset - start))
  else ""

/-- Puts the current place on the stack. -/
def save (cursor : Cursor) : Cursor :=
  { cursor with checkpoints := cursor.mark :: cursor.checkpoints }

/-- Goes back to the latest saved place, which stays on the stack. -/
def restore (cursor : Cursor) : Cursor :=
  { cursor with mark := cursor.checkpoints.headD cursor.mark }

/-- Takes the latest saved place off the stack. -/
def dropCheckpoint (cursor : Cursor) : Cursor :=
  { cursor with checkpoints := cursor.checkpoints.tail }

/-- Keeps the later of two failures unless the earlier one reached further. -/
def keepFurthest (furthest : Option Failure) (failure : Failure) : Option Failure :=
  match furthest with
  | none => some failure
  | some earlier =>
    if earlier.position.offset ≤ failure.position.offset then some failure else some earlier

/-- Only the later failure is new. -/
theorem eq_or_mem_of_mem_keepFurthest {furthest : Option Failure} {later failure : Failure}
    (mem : failure ∈ keepFurthest furthest later) : failure = later ∨ failure ∈ furthest := by
  cases furthest with
  | none => exact .inl (Option.some.inj mem).symm
  | some earlier =>
      simp only [keepFurthest] at mem
      split at mem
      · exact .inl (Option.some.inj mem).symm
      · exact .inr mem

/-- The failure that is kept lies no nearer than either. -/
theorem exists_mem_keepFurthest (furthest : Option Failure) (later : Failure) :
    ∃ kept ∈ keepFurthest furthest later, later.position.offset ≤ kept.position.offset ∧
      ∀ earlier ∈ furthest, earlier.position.offset ≤ kept.position.offset := by
  cases furthest with
  | none => exact ⟨later, rfl, Nat.le_refl _, nofun⟩
  | some earlier =>
      simp only [keepFurthest]
      split
      case isTrue reaches =>
        refine ⟨later, rfl, Nat.le_refl _, ?_⟩
        rintro _ ⟨⟩
        exact reaches
      case isFalse nearer =>
        refine ⟨earlier, rfl, Nat.le_of_not_le nearer, ?_⟩
        rintro _ ⟨⟩
        exact Nat.le_refl _

/-- The failure of a rule at the current place. -/
def failure (cursor : Cursor) (kind : FailureKind) (expected : Expected) : Failure :=
  ⟨kind, expected, cursor.position⟩

/-- Takes note of a failure at the current place. -/
def fail (cursor : Cursor) (kind : FailureKind) (expected : Expected) : Cursor :=
  { cursor with furthest := keepFurthest cursor.furthest (cursor.failure kind expected) }

/-- Forgets the furthest failure. -/
def clearFurthest (cursor : Cursor) : Cursor := { cursor with furthest := none }

end Cursor

end ThriftIdl
