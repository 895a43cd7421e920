import ThriftIdl.Text.Byte

/-!
# Numerals

Reading a run of digits in a base and writing a number in base ten. Writing uses no leading zeros,
so each number has one numeral.
-/

namespace ThriftIdl

namespace Numeral

/-- The number that digits stand for in a base, most significant digit first. -/
def value (base : Nat) (digits : List UInt8) : Nat :=
  digits.foldl (fun total digit => total * base + Byte.digitValue digit) 0

/-- The decimal digits of a number, most significant first; zero has one digit. -/
def digits (number : Nat) : List Char :=
  if number < 10 then [Char.ofNat (48 + number)]
  else digits (number / 10) ++ [Char.ofNat (48 + number % 10)]
termination_by number

/-- The decimal numeral of a number. -/
def ofNat (number : Nat) : String := String.ofList (digits number)

/-- The decimal numeral of an integer, with a minus sign in front if it is negative. -/
def ofInt (number : Int) : String :=
  if number < 0 then "-" ++ ofNat number.natAbs else ofNat number.natAbs

/-- The lower-case hexadecimal digit of a number below sixteen. -/
def hexDigit (number : Nat) : Char :=
  if number < 10 then Char.ofNat (48 + number) else Char.ofNat (87 + number)

/-- The lower-case hexadecimal digits of a number; zero has one digit. -/
def hexDigits (number : Nat) : List Char :=
  if number < 16 then [hexDigit number]
  else hexDigits (number / 16) ++ [hexDigit (number % 16)]
termination_by number

/-- A number in lower-case hexadecimal with at least the given count of digits. -/
def paddedHex (width number : Nat) : String :=
  let written := hexDigits number
  String.ofList (List.replicate (width - written.length) '0' ++ written)

end Numeral

end ThriftIdl
