import ThriftIdl.Text.Numeral
import ThriftIdl.Text.Printable

/-!
# Quoted text

Text between double quotes in messages for people: quotes and backslashes are escaped, and so is
every character that would not be seen.
-/

namespace ThriftIdl

namespace Quoted

/-- A character inside quotes. -/
def escape (character : Char) : String :=
  if character = '\x00' then "\\0"
  else if character = '\x09' then "\\t"
  else if character = '\x0a' then "\\n"
  else if character = '\x0d' then "\\r"
  else if character = '\x22' then "\\\""
  else if character = '\\' then "\\\\"
  else if Printable.holds character then String.singleton character
  else "\\u\x7b" ++ String.ofList (Numeral.hexDigits character.toNat) ++ "\x7d"

/-- A text between quotes. -/
def text (text : String) : String := "\"" ++ String.join (text.toList.map escape) ++ "\""

end Quoted

end ThriftIdl
