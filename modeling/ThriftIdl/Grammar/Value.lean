import ThriftIdl.Grammar.Rule

/-!
# The grammar of values

Hexadecimal literals and literals in scientific notation begin like plain numbers, so they are tried
first. The number of levels that a value may still nest is the parameter `room`: every value takes
one level, and at none left every value is refused.
-/

namespace ThriftIdl

namespace Grammar

open Rule

/-- How many levels values and types may nest. -/
def maxNesting : Nat := 64

/-- An integer in either base: an id of a field, or the number of an enum item. -/
def integer : Rule Int64 := oneOf "an integer" [.token .hexadecimal, .token .integer]

/-- A truth value. -/
def boolean : Rule Value :=
  oneOf "a boolean"
    [(keyword "true").as (.bool true), (keyword "false").as (.bool false)]

/-- A dot and the identifier behind it. -/
def segment : Rule String := do
  mark Byte.dot
  identifier

/-- Identifiers with separate dots between them. -/
def reference : Rule (List String) := do
  let first ← identifier
  let others ← many segment
  return first :: others

/-- The dotted name that a reference spells. -/
def dottedName : Rule String := do
  let segments ← reference
  return ".".intercalate segments

/-- A list of values with optional separators. -/
def listOf (item : Unit → Rule Value) : Rule Value := do
  mark Byte.openBracket
  let items ← many (separated (item ()))
  mark Byte.closeBracket
  return .list items

/-- A key, a colon and a value. -/
def entryOf (item : Rule Value) : Rule (Value × Value) := do
  let key ← item
  mark Byte.colon
  let value ← item
  return (key, value)

/-- A map of values with optional separators. -/
def mapOf (item : Unit → Rule Value) : Rule Value := do
  mark Byte.openBrace
  let entries ← many (separated (entryOf (item ())))
  mark Byte.closeBrace
  return .map entries

/-- The forms of a value, in the order in which they are tried; `item` reads a value inside. -/
def valueForms (item : Unit → Rule Value) : List (Rule Value) :=
  [ .int <$> .token .hexadecimal,
    .double <$> .token .scientific,
    .token .decimal,
    .int <$> .token .integer,
    .string <$> .token .string,
    boolean,
    listOf item,
    mapOf item,
    .reference <$> reference ]

/-- A constant value that nests at most that many levels. -/
def value : Nat → Rule Value
  | 0 => refuseNesting
  | room + 1 => nested (oneOf "a constant value" (valueForms fun _ => value room))

end Grammar

end ThriftIdl
