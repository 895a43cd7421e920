import ThriftIdl.Binary64.Shortest
import ThriftIdl.Json.Basic
import ThriftIdl.Text.Numeral

/-!
# JSON text

Two layouts of JSON: compact text without any blank, and text with one item a line and an
indentation of two spaces a level. Both write empty containers as two brackets.
-/

namespace ThriftIdl

namespace Json

/-- A character inside a string: quotes, backslashes and control characters are escaped. -/
def escape (character : Char) : String :=
  if character = '\x22' then "\\\""
  else if character = '\\' then "\\\\"
  else if character = '\x08' then "\\b"
  else if character = '\x09' then "\\t"
  else if character = '\x0a' then "\\n"
  else if character = '\x0c' then "\\f"
  else if character = '\x0d' then "\\r"
  else if character.toNat < 0x20 then "\\u" ++ Numeral.paddedHex 4 character.toNat
  else String.singleton character

/-- A string between quotes. -/
def quote (text : String) : String :=
  "\"" ++ String.join (text.toList.map escape) ++ "\""

/-- Digits with a point behind the first of them, if there are several. -/
def pointed (digits : List Char) : String :=
  match digits with
  | [] => ""
  | [digit] => String.singleton digit
  | digit :: others => String.singleton digit ++ "." ++ String.ofList others

/-- Digits times a power of ten without an exponent. -/
def positional (digits : List Char) (exponent : Int) : String :=
  if 0 ≤ exponent then
    String.ofList (digits ++ List.replicate exponent.toNat '0') ++ ".0"
  else
    let places := (-exponent).toNat
    if places < digits.length then
      String.ofList (digits.take (digits.length - places)) ++ "."
        ++ String.ofList (digits.drop (digits.length - places))
    else "0." ++ String.ofList (List.replicate (places - digits.length) '0' ++ digits)

/--
A positive decimal. Numbers of at least `2 ^ 63` are whole and have an exponent with a plus sign,
numbers below `0.00001` have one with a minus sign, and all others have none.
-/
def decimal (number : Decimal) (large : Bool) : String :=
  let digits := Numeral.digits number.digits
  let magnitude : Int := number.exponent + digits.length - 1
  if large then pointed digits ++ "e+" ++ Numeral.ofInt magnitude
  else if magnitude < -5 then pointed digits ++ "e" ++ Numeral.ofInt magnitude
  else positional digits number.exponent

/-- A finite number of either sign; infinities and undefined numbers have no numeral in JSON. -/
def numeral (number : Binary64) : String :=
  if !number.isFinite then "null"
  else if number.significand = 0 then if number.negative then "-0.0" else "0.0"
  else
    let large := 0x43E ≤ number.exponentField
    (if number.negative then "-" else "") ++ decimal number.shortest large

/-- Items between brackets, with a comma behind all but the last. -/
def enclose (opening closing : String) (items : List String) : String :=
  opening ++ ",".intercalate items ++ closing

mutual

/-- A value without any blank. -/
def compact : Json → String
  | .null => "null"
  | .bool truth => if truth then "true" else "false"
  | .int number => Numeral.ofInt number
  | .real number => numeral number
  | .string text => quote text
  | .array items => enclose "[" "]" (compactItems items)
  | .object members => enclose "\x7b" "\x7d" (compactMembers members)

/-- The items of an array without any blank. -/
def compactItems : List Json → List String
  | [] => []
  | item :: rest => compact item :: compactItems rest

/-- The members of an object without any blank. -/
def compactMembers : List (String × Json) → List String
  | [] => []
  | (name, value) :: rest => (quote name ++ ":" ++ compact value) :: compactMembers rest

end

/-- A new line at a level of indentation. -/
def newLine (level : Nat) : String := "\n" ++ String.ofList (List.replicate (2 * level) ' ')

/-- Items between brackets, each on a line of its own; without items the brackets touch. -/
def encloseLines (level : Nat) (opening closing : String) (items : List String) : String :=
  if items.isEmpty then opening ++ closing
  else
    opening ++ newLine (level + 1) ++ ("," ++ newLine (level + 1)).intercalate items
      ++ newLine level ++ closing

mutual

/-- A value over several lines, at a level of indentation. -/
def prettyAt (level : Nat) : Json → String
  | .null => "null"
  | .bool truth => if truth then "true" else "false"
  | .int number => Numeral.ofInt number
  | .real number => numeral number
  | .string text => quote text
  | .array items => encloseLines level "[" "]" (prettyItems (level + 1) items)
  | .object members => encloseLines level "\x7b" "\x7d" (prettyMembers (level + 1) members)

/-- The items of an array, at a level of indentation. -/
def prettyItems (level : Nat) : List Json → List String
  | [] => []
  | item :: rest => prettyAt level item :: prettyItems level rest

/-- The members of an object, at a level of indentation. -/
def prettyMembers (level : Nat) : List (String × Json) → List String
  | [] => []
  | (name, value) :: rest =>
    (quote name ++ ": " ++ prettyAt level value) :: prettyMembers level rest

end

/-- A value over several lines. -/
def pretty (json : Json) : String := json.prettyAt 0

end Json

end ThriftIdl
