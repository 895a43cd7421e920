import ThriftIdl.Proofs.Trace.Operation

/-!
# Scanning step by step

Gaps and tokens, read by single operations on the cursor. A comment is jumped over as a whole, once
its end was found; the parts of a number and the quotes of a text are passed over one by one, and
what stands between two offsets is cut out of the source as text. `Gap.skip` and `Token.recognize`
say what comes of it; here is how it is done.
-/

namespace ThriftIdl

namespace Gap

/-- Where a block comment is closed, as a place of the bytes behind its opener. -/
def closerPlace : List UInt8 → Option Nat
  | [] => none
  | byte :: rest =>
    if [Byte.star, Byte.slash].isPrefixOf (byte :: rest) then some 0
    else (closerPlace rest).map (· + 1)

/-- How long a block comment is behind its opener, without its closer, and how long the closer is. -/
def blockExtent (body : List UInt8) : Nat × Nat :=
  match closerPlace body with
  | some place => (place, 2)
  | none => (body.length, 0)

/-- The places of the line endings among some bytes, the first of which has the given place. -/
def lineEndPlaces (place : Nat) : List UInt8 → List Nat
  | [] => []
  | byte :: rest =>
    if Byte.isLineEnd byte then place :: lineEndPlaces (place + 1) rest
    else lineEndPlaces (place + 1) rest

end Gap

namespace Lexeme

/-- The place of the closing quote of a text, from a place on; a backslash protects a byte. -/
def closingPlace (quote : UInt8) (bytes : List UInt8) (place : Nat) : Option Nat :=
  match found : bytes[place]? with
  | none => none
  | some byte =>
    if byte = quote then some place
    else closingPlace quote bytes (place + if byte = Byte.backslash then 2 else 1)
termination_by bytes.length - place
decreasing_by
  have inside := (List.getElem?_eq_some_iff.1 found).1
  split <;> omega

end Lexeme

namespace Procedure

/-! ### Gaps -/

/-- The bytes at some places, each of them looked at. -/
def lookAt (bytes : List UInt8) : List Nat → Procedure (List UInt8)
  | [] => return []
  | place :: places => do
    perform (.index bytes.length place)
    return bytes.getD place 0 :: (← lookAt bytes places)

/-- Jumps over a block comment; without a closer it takes the rest of the source. -/
def blockComment : Procedure Unit := do
  let body ← slice (← remaining) 2
  let (length, closerLength) := Gap.blockExtent body
  let inside ← sliceBetween body 0 length
  let lineEnds ← lookAt body (Gap.lineEndPlaces 0 inside)
  perform (.jump ((← offset) + 2 + length + closerLength) lineEnds)

/-- Jumps to the end of the line, over a comment with an opener of the given length. -/
def lineComment (openerLength : Nat) : Procedure Unit := do
  let body ← slice (← remaining) openerLength
  let length := body.findIdx Byte.isLineEnd
  perform (.jump ((← offset) + openerLength + length) [])

/-- Passes over one part of a gap, if there is one. -/
def gapPart : Procedure Bool := do
  let first ← peekAhead 0
  let second ← peekAhead 1
  match first with
  | none => return false
  | some byte =>
    if Byte.isBlank byte then
      bump 1
      return true
    else if Byte.isLineEnd byte then
      let _ ← remaining
      perform (.pass byte)
      return true
    else if byte = Byte.slash ∧ second = some Byte.star then
      blockComment
      return true
    else if byte = Byte.slash ∧ second = some Byte.slash then
      lineComment 2
      return true
    else if byte = Byte.hash then
      lineComment 1
      return true
    else return false

/-- Passes over a gap part by part. -/
def gap (state : State) : Traced (Outcome Unit) :=
  match gapPart state with
  | ⟨events, .done true after⟩ =>
    if after.remainingLength < state.remainingLength then (gap after).after events
    else ⟨events, .done () after⟩
  | ⟨events, .done false after⟩ => ⟨events, .done () after⟩
  | ⟨events, .failed failure after⟩ => ⟨events, .failed failure after⟩
termination_by state.remainingLength

/-- Passes over a gap. -/
def skipGap : Procedure Unit := gap

/-! ### Words and marks -/

/-- The longest nonempty run of accepted bytes. -/
def word (accepts : UInt8 → Bool) (expected : String) : Procedure String := do
  let start ← offset
  let length := ((← remaining).takeWhile accepts).length
  if length = 0 then missing expected
  else
    bump length
    let text ← textFrom start
    skipGap
    return text

/-- A certain word that no byte of an identifier follows. -/
def keyword (text : String) : Procedure String := do
  let bytes ← remaining
  let letters := Utf8.encode text
  if letters.isPrefixOf bytes && !bytes[letters.length]?.any Byte.isIdentifier then
    bump letters.length
    skipGap
    return text
  else fail .lexical (.keyword text)

/-- A certain byte. -/
def mark (expected : UInt8) : Procedure Unit := do
  if (← peekAhead 0) = some expected then
    bump 1
    skipGap
  else fail .structural (.byte expected)

/-- A separator, if there is one. -/
def separator : Procedure Bool := do
  if (← peekAhead 0).any Byte.isSeparator then
    bump 1
    skipGap
    return true
  else return false

/-! ### Numbers -/

/-- A hexadecimal integer. -/
def hexadecimal : Procedure Int64 := do
  let bytes ← remaining
  let sign := Lexeme.signLength (· == Byte.minus) bytes
  if bytes[sign]? == some Byte.zero && bytes[sign + 1]?.any Byte.isHexMark then
    let length := ((← slice bytes (sign + 2)).takeWhile Byte.isHexDigit).length
    bump (sign + 2)
    if length = 0 then missing "hexadecimal digits"
    else
      let start ← offset
      bump length
      let magnitude := Numeral.value 16 (Utf8.encode (← textFrom start))
      if Lexeme.wordRange ≤ magnitude then missing "hexadecimal literal of at most 64 bits"
      else
        skipGap
        return if sign = 1 then -(Int64.ofNat magnitude) else Int64.ofNat magnitude
  else missing "hexadecimal literal"

/-- A number in scientific notation. -/
def scientific : Procedure Binary64 := do
  let start ← offset
  let bytes ← remaining
  let sign := Lexeme.signLength (· == Byte.minus) bytes
  let letter := sign + ((← slice bytes sign).takeWhile Byte.isNumeral).length
  if bytes[letter]?.any Byte.isExponentMark then
    let length := ((← slice bytes (letter + 1)).takeWhile Byte.isDigit).length
    bump (letter + 1)
    if length = 0 then missing "exponent digits"
    else
      bump length
      match Binary64.ofLiteral? (Utf8.encode (← textFrom start)) with
      | none => missing "scientific-notation literal"
      | some number =>
        skipGap
        return number
  else missing "scientific-notation literal"

/-- A number in plain notation. -/
def decimal : Procedure Value := do
  let start ← offset
  let bytes ← remaining
  let sign := Lexeme.signLength Byte.isSign bytes
  let length := ((← slice bytes sign).takeWhile Byte.isNumeral).length
  let body ← sliceBetween bytes sign (sign + length)
  if !body.any Byte.isDigit then missing "numeric literal"
  else
    bump (sign + length)
    let text := Utf8.encode (← textFrom start)
    let asDouble := (Binary64.ofLiteral? text).map Value.double
    match if body.contains Byte.dot then asDouble
        else ((Lexeme.int64? text).map Value.int).or asDouble with
    | none => missing "well-formed numeric literal"
    | some value =>
      skipGap
      return value

/-- An integer of 64 bits that no other form of number continues. -/
def integer : Procedure Int64 := do
  let start ← offset
  let bytes ← remaining
  let sign := Lexeme.signLength Byte.isSign bytes
  let length := ((← slice bytes sign).takeWhile Byte.isDigit).length
  if length = 0 then missing "integer literal"
  else if bytes[sign + length]?.any Lexeme.continuesNumber then
    bump (sign + length)
    missing "integer literal"
  else
    bump (sign + length)
    match Lexeme.int64? (Utf8.encode (← textFrom start)) with
    | none => missing "integer literal within 64 bits"
    | some number =>
      skipGap
      return number

/-! ### Quoted text -/

/-- A quoted text in which a backslash protects the next byte. -/
def string : Procedure String := do
  let bytes ← remaining
  match bytes.head?.filter Byte.isQuote with
  | none => missing "string literal"
  | some quote =>
    match Lexeme.closingPlace quote bytes 1 with
    | none =>
      bump bytes.length
      missing "closing quote of string literal"
    | some place =>
      let start := (← offset) + 1
      bump place
      let text ← textFrom start
      bump 1
      skipGap
      return text

/-- A quoted path without protected bytes. -/
def path : Procedure String := do
  let bytes ← remaining
  match bytes.head?.filter Byte.isQuote with
  | none => missing "quoted include path"
  | some quote =>
    match (← slice bytes 1).idxOf? quote with
    | none =>
      bump bytes.length
      missing "closing quote of include path"
    | some length =>
      bump 1
      let start ← offset
      bump length
      let text ← textFrom start
      bump 1
      skipGap
      return text

end Procedure

/-- Reads a token and the gap behind it, step by step. -/
def Token.scan {α : Type} : Token α → Procedure α
  | .identifier => Procedure.word Byte.isIdentifier "identifier"
  | .scope => Procedure.word Byte.isScope "namespace scope"
  | .keyword word => Procedure.keyword word
  | .mark byte => Procedure.mark byte
  | .hexadecimal => Procedure.hexadecimal
  | .scientific => Procedure.scientific
  | .decimal => Procedure.decimal
  | .integer => Procedure.integer
  | .string => Procedure.string
  | .path => Procedure.path

end ThriftIdl
