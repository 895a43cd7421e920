import ThriftIdl.Document.FieldType
import ThriftIdl.Grammar.Value

/-!
# The grammar of types

A container word counts as one only in front of an angle bracket; otherwise it is a name. Types take
levels from the same room as values do.
-/

namespace ThriftIdl

namespace Grammar

open Rule

/-- A map type, with an optional separator between its key and its value. -/
def mapType (element : Unit → Rule FieldType) : Rule FieldType := do
  let _ ← keyword "map"
  mark Byte.openAngle
  let key ← separated (element ())
  let value ← element ()
  mark Byte.closeAngle
  return .map key value

/-- The word that opens a list or a set, and the type that it makes of an element. -/
def sequenceWord : Rule (FieldType → FieldType) :=
  oneOf "`list` or `set`" [(keyword "list").as .list, (keyword "set").as .set]

/-- A list type or a set type. -/
def sequenceType (element : Unit → Rule FieldType) : Rule FieldType := do
  let container ← sequenceWord
  mark Byte.openAngle
  let element ← element ()
  mark Byte.closeAngle
  return container element

/-- The forms of a type, in the order in which they are tried; `element` reads a type inside. -/
def typeForms (element : Unit → Rule FieldType) : List (Rule FieldType) :=
  [mapType element, sequenceType element, .named <$> identifier]

/-- A type that nests at most that many levels. -/
def fieldType : Nat → Rule FieldType
  | 0 => refuseNesting
  | room + 1 => nested (oneOf "a type" (typeForms fun _ => fieldType room))

end Grammar

end ThriftIdl
