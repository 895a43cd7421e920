import ThriftIdl.Binary64.Literal
import ThriftIdl.Document.Value
import ThriftIdl.Source.Failure
import ThriftIdl.Text.Utf8

/-!
# Lexemes

How each token is recognised at the start of some bytes. A lexeme never looks at anything but these
bytes, and it never takes the gap behind the token: it says how many bytes the token has, or how
many of them were understood before the mismatch.
-/

namespace ThriftIdl

/-- What was recognised at the start of some bytes. -/
inductive Lexeme (α : Type) where
  /-- A token with its value and its number of bytes. -/
  | found (value : α) (length : Nat)
  /-- No token; the failure is blamed on the place after the understood bytes. -/
  | missing (kind : FailureKind) (expected : Expected) (understood : Nat)
  deriving DecidableEq, Repr

namespace Lexeme

/-- A malformed or absent token. -/
def malformed {α : Type} (expected : String) (understood : Nat) : Lexeme α :=
  .missing .lexical (.description expected) understood

/-- The longest nonempty run of accepted bytes. -/
def word (accepts : UInt8 → Bool) (expected : String) (bytes : List UInt8) : Lexeme String :=
  let letters := bytes.takeWhile accepts
  if letters.isEmpty then malformed expected 0
  else .found (Utf8.text letters) letters.length

/-- A certain word that no byte of an identifier follows. -/
def keyword (word : String) (bytes : List UInt8) : Lexeme String :=
  let letters := Utf8.encode word
  let goesOn := (bytes.drop letters.length).head?.any Byte.isIdentifier
  if letters.isPrefixOf bytes && !goesOn then .found word letters.length
  else .missing .lexical (.keyword word) 0

/-- A certain byte. -/
def mark (expected : UInt8) (bytes : List UInt8) : Lexeme Unit :=
  if bytes.head? = some expected then .found () 1
  else .missing .structural (.byte expected) 0

/-- The sign in front of an unsigned number, which may be absent, is one byte long or empty. -/
def signLength (isSign : UInt8 → Bool) (bytes : List UInt8) : Nat :=
  if bytes.head?.any isSign then 1 else 0

/-- Whether bytes start with a zero and the letter that marks hexadecimal digits. -/
def opensHexadecimal (bytes : List UInt8) : Bool :=
  bytes.head? == some Byte.zero && (bytes.drop 1).head?.any Byte.isHexMark

/-- How many magnitudes have 64 bits. -/
def wordRange : Nat := 0x10000000000000000

/--
A hexadecimal integer: an optional minus sign, the opening zero and letter, and digits for a
magnitude below `2 ^ 64`. The magnitude is read as a word in two's complement and then negated if
there is a sign.
-/
def hexadecimal (bytes : List UInt8) : Lexeme Int64 :=
  let sign := signLength (· == Byte.minus) bytes
  if opensHexadecimal (bytes.drop sign) then
    let digits := (bytes.drop (sign + 2)).takeWhile Byte.isHexDigit
    let magnitude := Numeral.value 16 digits
    if digits.isEmpty then malformed "hexadecimal digits" (sign + 2)
    else if wordRange ≤ magnitude then
      malformed "hexadecimal literal of at most 64 bits" (sign + 2 + digits.length)
    else
      .found (if sign = 1 then -(Int64.ofNat magnitude) else Int64.ofNat magnitude)
        (sign + 2 + digits.length)
  else malformed "hexadecimal literal" 0

/--
A number in scientific notation: an optional minus sign, a mantissa, the exponent letter and the
digits of the exponent, which has no sign of its own.
-/
def scientific (bytes : List UInt8) : Lexeme Binary64 :=
  let sign := signLength (· == Byte.minus) bytes
  let mantissa := (bytes.drop sign).takeWhile Byte.isNumeral
  let letter := sign + mantissa.length
  if (bytes.drop letter).head?.any Byte.isExponentMark then
    let exponent := (bytes.drop (letter + 1)).takeWhile Byte.isDigit
    let length := letter + 1 + exponent.length
    if exponent.isEmpty then malformed "exponent digits" (letter + 1)
    else
      match Binary64.ofLiteral? (bytes.take length) with
      | some number => .found number length
      | none => malformed "scientific-notation literal" length
  else malformed "scientific-notation literal" 0

/-- The value of an optionally signed run of decimal digits, if it has 64 bits. -/
def int64? (text : List UInt8) : Option Int64 :=
  let magnitude := Numeral.value 10 (text.drop (signLength Byte.isSign text))
  let number : Int := if text.head? = some Byte.minus then -(magnitude : Int) else magnitude
  if Int64.minValue.toInt ≤ number ∧ number ≤ Int64.maxValue.toInt then
    some (Int64.ofInt number)
  else none

/--
A number in plain notation: an optional sign and digits with a point among them or none. Without a
point it is an integer if that has 64 bits; any other number is a double.
-/
def decimal (bytes : List UInt8) : Lexeme Value :=
  let sign := signLength Byte.isSign bytes
  let body := (bytes.drop sign).takeWhile Byte.isNumeral
  let text := bytes.take (sign + body.length)
  let asDouble := (Binary64.ofLiteral? text).map Value.double
  let number :=
    if body.contains Byte.dot then asDouble
    else ((int64? text).map Value.int).or asDouble
  if !body.any Byte.isDigit then malformed "numeric literal" 0
  else
    match number with
    | some value => .found value (sign + body.length)
    | none => malformed "well-formed numeric literal" (sign + body.length)

/-- A byte that turns the integer in front of it into part of another number. -/
def continuesNumber (byte : UInt8) : Bool :=
  byte == Byte.dot || Byte.isExponentMark byte || Byte.isHexMark byte

/-- An integer of 64 bits with an optional sign, which no other form of number continues. -/
def integer (bytes : List UInt8) : Lexeme Int64 :=
  let sign := signLength Byte.isSign bytes
  let digits := (bytes.drop sign).takeWhile Byte.isDigit
  let length := sign + digits.length
  if digits.isEmpty then malformed "integer literal" 0
  else if (bytes.drop length).head?.any continuesNumber then malformed "integer literal" length
  else
    match int64? (bytes.take length) with
    | some number => .found number length
    | none => malformed "integer literal within 64 bits" length

/-- The bytes up to a quote; a backslash protects the byte after it. -/
def untilQuote (quote : UInt8) : List UInt8 → Option (List UInt8)
  | [] => none
  | byte :: rest =>
    if byte = quote then some []
    else if byte = Byte.backslash then
      match rest with
      | [] => none
      | shielded :: after =>
        (untilQuote quote after).map fun body => byte :: shielded :: body
    else (untilQuote quote rest).map (byte :: ·)

/-- The bytes up to the first quote. -/
def untilFirstQuote (quote : UInt8) : List UInt8 → Option (List UInt8)
  | [] => none
  | byte :: rest =>
    if byte = quote then some [] else (untilFirstQuote quote rest).map (byte :: ·)

/--
Text between two equal quotes, kept as it is written. Without a closing quote the failure is blamed
on the end of the source.
-/
def quoted (body : UInt8 → List UInt8 → Option (List UInt8)) (opening closing : String)
    (bytes : List UInt8) : Lexeme String :=
  match bytes with
  | [] => malformed opening 0
  | quote :: rest =>
    if Byte.isQuote quote then
      match body quote rest with
      | some content => .found (Utf8.text content) (content.length + 2)
      | none => malformed closing bytes.length
    else malformed opening 0

end Lexeme

end ThriftIdl
