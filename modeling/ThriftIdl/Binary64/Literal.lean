import ThriftIdl.Binary64.Rounding
import ThriftIdl.Text.Numeral

/-!
# Decimal literals

The text of a decimal number: an optional sign, digits with at most one point among them, and
optionally an exponent. There is at least one digit in front of the exponent; the point may come
first or last. The value of a literal is the double closest to it.
-/

namespace ThriftIdl

namespace Binary64

/-- The digits of a mantissa without its point, and how many of them follow the point. -/
def mantissa? (text : List UInt8) : Option (List UInt8 × Nat) :=
  let whole := text.takeWhile Byte.isDigit
  match text.dropWhile Byte.isDigit with
  | [] => if whole.isEmpty then none else some (whole, 0)
  | mark :: fraction =>
    if mark = Byte.dot && fraction.all Byte.isDigit && !(whole.isEmpty && fraction.isEmpty) then
      some (whole ++ fraction, fraction.length)
    else none

/-- The value of an exponent: an optional sign and at least one digit. -/
def exponentValue? (text : List UInt8) : Option Int :=
  let negative := text.head? == some Byte.minus
  let digits := if text.head?.any Byte.isSign then text.drop 1 else text
  if digits.isEmpty || !digits.all Byte.isDigit then none
  else
    let magnitude := Numeral.value 10 digits
    some (if negative then -(magnitude : Int) else magnitude)

/-- The double closest to a decimal literal, if the text is one. -/
def ofLiteral? (text : List UInt8) : Option Binary64 :=
  let negative := text.head? == some Byte.minus
  let unsigned := if text.head?.any Byte.isSign then text.drop 1 else text
  let isMantissa (byte : UInt8) : Bool := !Byte.isExponentMark byte
  match mantissa? (unsigned.takeWhile isMantissa), unsigned.dropWhile isMantissa with
  | none, _ => none
  | some (digits, places), [] =>
    some (ofDecimal negative (Numeral.value 10 digits) digits.length (-(places : Int)))
  | some (digits, places), _ :: exponent =>
    (exponentValue? exponent).map fun power =>
      ofDecimal negative (Numeral.value 10 digits) digits.length (power - places)

end Binary64

end ThriftIdl
