import ThriftIdl.Source.Position

/-!
# Gaps

A gap is what may stand between two tokens: blanks, line endings, block comments, and line comments
that open with a number sign or two slashes. `Gap.skip` passes over a whole gap and counts the line
endings in it.

A block comment ends with the first closer after its opener, and one without a closer takes the rest
of the source. A line comment leaves its line ending to the gap.
-/

namespace ThriftIdl

/-- A place in a source together with the bytes from there to the end. -/
structure Mark where
  position : Position
  remaining : List UInt8
  deriving DecidableEq, Repr

namespace Gap

/-- Where in a gap the reader is. -/
inductive Mode where
  /-- Between comments. -/
  | between
  /-- Inside a block comment. -/
  | block
  /-- Inside a line comment. -/
  | line
  deriving DecidableEq, Repr

/-- Passes over the rest of a gap; at the end of the source every mode is done. -/
def skip : Mode → Position → List UInt8 → Mark
  | _, position, [] => ⟨position, []⟩
  | .between, position, byte :: rest =>
    if Byte.isBlank byte || Byte.isLineEnd byte then skip .between (position.pass byte) rest
    else if byte = Byte.hash then skip .line (position.advance 1) rest
    else if byte = Byte.slash then
      match rest with
      | [] => ⟨position, byte :: rest⟩
      | second :: body =>
        if second = Byte.star then skip .block (position.advance 2) body
        else if second = Byte.slash then skip .line (position.advance 2) body
        else ⟨position, byte :: rest⟩
    else ⟨position, byte :: rest⟩
  | .block, position, byte :: rest =>
    match rest with
    | [] => ⟨position.pass byte, []⟩
    | second :: after =>
      if byte = Byte.star ∧ second = Byte.slash then skip .between (position.advance 2) after
      else skip .block (position.pass byte) (second :: after)
  | .line, position, byte :: rest =>
    if Byte.isLineEnd byte then skip .between (position.pass byte) rest
    else skip .line (position.advance 1) rest

end Gap

namespace Mark

/-- Moves on by that many bytes, or to the end of the source if fewer remain. -/
def bump (mark : Mark) (count : Nat) : Mark :=
  ⟨mark.position.advance (mark.remaining.take count).length, mark.remaining.drop count⟩

/-- Passes over the gap that starts here. -/
def skipGap (mark : Mark) : Mark := Gap.skip .between mark.position mark.remaining

end Mark

end ThriftIdl
