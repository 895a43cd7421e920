import ThriftIdl.Text.Byte

/-!
# Positions in a source

A position is a byte offset together with the line endings passed on the way there. Line feeds and
carriage returns are counted apart, so that texts with either convention, or with both bytes at the
end of each line, have the same line numbers.
-/

namespace ThriftIdl

/-- A place in a source. -/
structure Position where
  /-- How many bytes lie before the place. -/
  offset : Nat
  /-- How many line feeds were counted before it. -/
  lineFeeds : Nat
  /-- How many carriage returns were counted before it. -/
  carriageReturns : Nat
  deriving DecidableEq, Repr

namespace Position

/-- The start of a source. -/
def start : Position := ⟨0, 0, 0⟩

instance : Inhabited Position := ⟨start⟩

/-- The line of a position, counted from one by whichever line ending was seen more often. -/
def line (position : Position) : Nat :=
  max position.lineFeeds position.carriageReturns + 1

/-- The place that many bytes further on. -/
def advance (position : Position) (count : Nat) : Position :=
  { position with offset := position.offset + count }

/-- The place at the given offset, with the line endings counted so far. -/
def jumpTo (position : Position) (offset : Nat) : Position :=
  { position with offset := offset }

/-- Counts a byte if it ends a line; the offset stays. -/
def record (position : Position) (byte : UInt8) : Position :=
  if byte = Byte.lineFeed then { position with lineFeeds := position.lineFeeds + 1 }
  else if byte = Byte.carriageReturn then
    { position with carriageReturns := position.carriageReturns + 1 }
  else position

/-- Passes over one byte and counts it if it ends a line. -/
def pass (position : Position) (byte : UInt8) : Position := (position.record byte).advance 1

end Position

end ThriftIdl
