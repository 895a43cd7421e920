/-!
# Bytes of source text

Every byte with a meaning in the grammar is an ASCII character, so the reader works on bytes.
Characters beyond ASCII occur only inside comments and quoted literals, which are passed over as a
whole. This module names the bytes that matter and the classes they belong to.
-/

namespace ThriftIdl

namespace Byte

/-- The byte of an ASCII character. -/
def ofChar (character : Char) : UInt8 := UInt8.ofNat character.toNat

/-- The character with the number of the byte. -/
def toChar (byte : UInt8) : Char := Char.ofNat byte.toNat

abbrev tab : UInt8 := 0x09
abbrev lineFeed : UInt8 := 0x0A
abbrev carriageReturn : UInt8 := 0x0D
abbrev space : UInt8 := 0x20
abbrev doubleQuote : UInt8 := 0x22
abbrev hash : UInt8 := 0x23
abbrev singleQuote : UInt8 := 0x27
abbrev openParenthesis : UInt8 := 0x28
abbrev closeParenthesis : UInt8 := 0x29
abbrev star : UInt8 := 0x2A
abbrev plus : UInt8 := 0x2B
abbrev comma : UInt8 := 0x2C
abbrev minus : UInt8 := 0x2D
abbrev dot : UInt8 := 0x2E
abbrev slash : UInt8 := 0x2F
abbrev zero : UInt8 := 0x30
abbrev colon : UInt8 := 0x3A
abbrev semicolon : UInt8 := 0x3B
abbrev openAngle : UInt8 := 0x3C
abbrev equals : UInt8 := 0x3D
abbrev closeAngle : UInt8 := 0x3E
abbrev openBracket : UInt8 := 0x5B
abbrev backslash : UInt8 := 0x5C
abbrev closeBracket : UInt8 := 0x5D
abbrev underscore : UInt8 := 0x5F
abbrev openBrace : UInt8 := 0x7B
abbrev closeBrace : UInt8 := 0x7D

/-- A decimal digit. -/
def isDigit (byte : UInt8) : Bool := 0x30 ≤ byte && byte ≤ 0x39

/-- An ASCII letter of either case. -/
def isLetter (byte : UInt8) : Bool :=
  (0x41 ≤ byte && byte ≤ 0x5A) || (0x61 ≤ byte && byte ≤ 0x7A)

/-- A hexadecimal digit of either case. -/
def isHexDigit (byte : UInt8) : Bool :=
  isDigit byte || (0x41 ≤ byte && byte ≤ 0x46) || (0x61 ≤ byte && byte ≤ 0x66)

/-- A byte of the mantissa of a number: a digit or the decimal point. -/
def isNumeral (byte : UInt8) : Bool := isDigit byte || byte == dot

/-- A byte of an identifier; the dot is one of them. -/
def isIdentifier (byte : UInt8) : Bool :=
  isDigit byte || isLetter byte || byte == underscore || byte == dot

/-- A byte of the scope of a namespace: as in an identifier, or the star. -/
def isScope (byte : UInt8) : Bool := isIdentifier byte || byte == star

/-- Either half of a line ending. -/
def isLineEnd (byte : UInt8) : Bool := byte == lineFeed || byte == carriageReturn

/-- A blank within a line. -/
def isBlank (byte : UInt8) : Bool := byte == space || byte == tab

/-- Either quote. -/
def isQuote (byte : UInt8) : Bool := byte == doubleQuote || byte == singleQuote

/-- Either sign. -/
def isSign (byte : UInt8) : Bool := byte == plus || byte == minus

/-- Either separator of list items, fields and declarations. -/
def isSeparator (byte : UInt8) : Bool := byte == comma || byte == semicolon

/-- The letter between a mantissa and its exponent. -/
def isExponentMark (byte : UInt8) : Bool := byte == 0x65 || byte == 0x45

/-- The letter after the zero that opens a hexadecimal literal. -/
def isHexMark (byte : UInt8) : Bool := byte == 0x78 || byte == 0x58

/-- The value of a hexadecimal digit; a decimal digit has the same value in both bases. -/
def digitValue (byte : UInt8) : Nat :=
  if isDigit byte then byte.toNat - 0x30
  else if 0x61 ≤ byte then byte.toNat - 0x61 + 10
  else byte.toNat - 0x41 + 10

end Byte

end ThriftIdl
