import ThriftIdl.Text.Numeral

/-!
# UTF-8

Text as bytes and back. Decoding proceeds one character at a time: `Utf8.split` looks at a lead byte
and what follows it, and says whether they begin with a character, with bytes that can begin no
character, or with a character that the text cuts short. Strict decoding stops at the first fault
and reports it; lossy decoding writes U+FFFD in place of each fault.
-/

namespace ThriftIdl

namespace Utf8

/-- The bytes of a text. -/
def encode (text : String) : List UInt8 := text.toList.flatMap String.utf8EncodeChar

/-- A byte that continues a character. -/
def isContinuation (byte : UInt8) : Bool := 0x80 ≤ byte && byte ≤ 0xBF

/-- What a nonempty run of bytes begins with; `extra` counts the bytes after the first. -/
inductive Start where
  /-- A whole character. -/
  | character (character : Char) (extra : Nat)
  /-- Bytes with which no character begins. -/
  | invalid (extra : Nat)
  /-- The beginning of a character that ends with the text. -/
  | incomplete
  deriving DecidableEq, Repr

/-- The six low bits of a continuation byte. -/
def payload (byte : UInt8) : Nat := byte.toNat % 64

/-- The range of the byte after a lead byte; it excludes overlong forms and surrogates. -/
def secondRange (lead : UInt8) : UInt8 × UInt8 :=
  if lead = 0xE0 then (0xA0, 0xBF)
  else if lead = 0xED then (0x80, 0x9F)
  else if lead = 0xF0 then (0x90, 0xBF)
  else if lead = 0xF4 then (0x80, 0x8F)
  else (0x80, 0xBF)

/-- How many bytes a lead byte asks for after itself, if it is a lead byte at all. -/
def extraOfLead (lead : UInt8) : Option Nat :=
  if lead < 0x80 then some 0
  else if lead < 0xC2 then none
  else if lead < 0xE0 then some 1
  else if lead < 0xF0 then some 2
  else if lead < 0xF5 then some 3
  else none

/-- What a lead byte and the bytes after it begin with. -/
def split (lead : UInt8) (rest : List UInt8) : Start :=
  let inRange (byte : UInt8) : Bool :=
    (secondRange lead).1 ≤ byte && byte ≤ (secondRange lead).2
  match extraOfLead lead with
  | none => .invalid 0
  | some 0 => .character (Char.ofNat lead.toNat) 0
  | some 1 =>
    match rest with
    | [] => .incomplete
    | second :: _ =>
      if inRange second then
        .character (Char.ofNat (lead.toNat % 32 * 64 + payload second)) 1
      else .invalid 0
  | some 2 =>
    match rest with
    | [] => .incomplete
    | second :: afterSecond =>
      if inRange second then
        match afterSecond with
        | [] => .incomplete
        | third :: _ =>
          if isContinuation third then
            .character
              (Char.ofNat (lead.toNat % 16 * 4096 + payload second * 64 + payload third)) 2
          else .invalid 1
      else .invalid 0
  | some _ =>
    match rest with
    | [] => .incomplete
    | second :: afterSecond =>
      if inRange second then
        match afterSecond with
        | [] => .incomplete
        | third :: afterThird =>
          if isContinuation third then
            match afterThird with
            | [] => .incomplete
            | fourth :: _ =>
              if isContinuation fourth then
                .character
                  (Char.ofNat (lead.toNat % 8 * 262144 + payload second * 4096
                    + payload third * 64 + payload fourth)) 3
              else .invalid 2
          else .invalid 1
      else .invalid 0

/-- Where and how bytes fail to be UTF-8. -/
structure Fault where
  /-- How many bytes before the fault are well formed. -/
  index : Nat
  /-- How many bytes the fault has; absent if the text ends inside a character. -/
  length : Option Nat
  deriving DecidableEq, Repr

namespace Fault

/-- The sentence that reports a fault. -/
def message (fault : Fault) : String :=
  match fault.length with
  | some length =>
    "invalid utf-8 sequence of " ++ Numeral.ofNat length ++ " bytes from index "
      ++ Numeral.ofNat fault.index
  | none => "incomplete utf-8 byte sequence from index " ++ Numeral.ofNat fault.index

end Fault

/-- The characters of well-formed bytes, which start at the given index of a longer text. -/
def decodeFrom (index : Nat) : List UInt8 → Except Fault (List Char)
  | [] => .ok []
  | lead :: rest =>
    match split lead rest with
    | .character character extra =>
      (decodeFrom (index + extra + 1) (rest.drop extra)).map (character :: ·)
    | .invalid extra => .error ⟨index, some (extra + 1)⟩
    | .incomplete => .error ⟨index, none⟩
termination_by bytes => bytes.length
decreasing_by simp only [List.length_drop, List.length_cons]; omega

/-- The characters of well-formed bytes, or the first fault. -/
def decode (bytes : List UInt8) : Except Fault (List Char) := decodeFrom 0 bytes

/-- The characters of any bytes, with U+FFFD for each fault. -/
def decodeLossy : List UInt8 → List Char
  | [] => []
  | lead :: rest =>
    match split lead rest with
    | .character character extra => character :: decodeLossy (rest.drop extra)
    | .invalid extra => '\uFFFD' :: decodeLossy (rest.drop extra)
    | .incomplete => ['\uFFFD']
termination_by bytes => bytes.length
decreasing_by all_goals simp only [List.length_drop, List.length_cons]; omega

/-- The text of well-formed bytes; any other bytes have the empty text. -/
def text (bytes : List UInt8) : String :=
  match decode bytes with
  | .ok characters => String.ofList characters
  | .error _ => ""

/-- A place in a text that does not lie inside a character, the end included. -/
def isBoundary (bytes : List UInt8) (offset : Nat) : Bool :=
  match bytes.drop offset with
  | [] => offset == bytes.length
  | byte :: _ => !isContinuation byte

end Utf8

end ThriftIdl
