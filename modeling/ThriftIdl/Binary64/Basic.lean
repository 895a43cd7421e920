/-!
# Binary floating point

Double-precision numbers as the words that encode them, with their exact values. Nothing here uses
the floating-point unit, so that every statement about a number is a statement about integers: a
finite number is its significand times a power of two, with a sign.
-/

namespace ThriftIdl

/--
A power of a natural number; with a negative exponent it is one. So `base ^ exponent` is the quotient
of `scale base exponent` and `scale base (-exponent)`.
-/
def scale (base : Nat) (exponent : Int) : Nat := Nat.pow base exponent.toNat

/-- A double-precision number, given by its encoding. -/
structure Binary64 where
  bits : UInt64
  deriving DecidableEq, Repr

namespace Binary64

/-- The weight of the sign bit in an encoding. -/
def signWeight : Nat := 0x8000000000000000

/-- The weight of the lowest bit of the exponent field in an encoding. -/
def exponentWeight : Nat := 0x10000000000000

/-- Whether the sign bit is set. -/
def negative (number : Binary64) : Bool := signWeight ≤ number.bits.toNat

/-- The encoding without the sign bit. -/
def magnitudeBits (number : Binary64) : Nat := number.bits.toNat % signWeight

/-- The exponent field. -/
def exponentField (number : Binary64) : Nat := number.magnitudeBits / exponentWeight

/-- The fraction field. -/
def fractionField (number : Binary64) : Nat := number.magnitudeBits % exponentWeight

/-- Whether the number is neither infinite nor undefined. -/
def isFinite (number : Binary64) : Bool := number.exponentField != 2047

/-- The integer that a power of two scales to give the magnitude of a finite number. -/
def significand (number : Binary64) : Nat :=
  if number.exponentField = 0 then number.fractionField
  else exponentWeight + number.fractionField

/-- The exponent of the power of two that scales the significand. -/
def exponent (number : Binary64) : Int :=
  if number.exponentField = 0 then -1074 else (number.exponentField : Int) - 1075

/-- The number with the given sign and the given encoding of its magnitude. -/
def ofMagnitudeBits (negative : Bool) (magnitudeBits : Nat) : Binary64 :=
  ⟨UInt64.ofNat (if negative then signWeight + magnitudeBits else magnitudeBits)⟩

/-- The magnitude of a finite number, if it is a whole number. -/
def wholeMagnitude? (number : Binary64) : Option Nat :=
  let numerator := number.significand * scale 2 number.exponent
  let denominator := scale 2 (-number.exponent)
  if numerator % denominator = 0 then some (numerator / denominator) else none

/-- The value of a finite number, if it is a whole number; both zeros have the value zero. -/
def toInt? (number : Binary64) : Option Int :=
  if number.isFinite then
    number.wholeMagnitude?.map fun magnitude =>
      if number.negative then -(magnitude : Int) else magnitude
  else none

end Binary64

end ThriftIdl
