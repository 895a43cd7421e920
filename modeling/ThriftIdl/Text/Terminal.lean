/-!
# Plain text

A text may hold characters that steer a terminal: control characters, and sequences that an escape
character starts. `Terminal.plain` leaves them out, so that the rest can be shown anywhere. A
sequence says where it ends: most kinds at a letter, strings at a terminator, and all of them at a
cancelling character or where the next sequence starts.
-/

namespace ThriftIdl

namespace Terminal

/-- How far a sequence has been read. -/
inductive Sequence where
  /-- Up to the escape character. -/
  | escape
  /-- Up to intermediate characters behind the escape character. -/
  | intermediate
  /-- A control function with its parameters. -/
  | control
  /-- Up to the beginning of a device control string. -/
  | device
  /-- A device control string up to its parameters. -/
  | deviceParameters
  /-- A device control string up to its intermediate characters. -/
  | deviceIntermediate
  /-- A string that only a terminator ends. -/
  | data
  /-- A string for the operating system, which a bell ends. -/
  | command
  deriving DecidableEq, Repr

/-- How far a text has been read. -/
inductive State where
  /-- In characters to be shown. They may have interrupted a sequence, which then goes on. -/
  | shown (interrupted : Option Sequence)
  /-- In a sequence. -/
  | hidden (sequence : Sequence)
  deriving DecidableEq, Repr

/-- The character that starts a sequence. -/
def escape : Nat := 0x1b

/-- The character that ends a string for the operating system. -/
def bell : Nat := 0x07

/-- The byte that ends other strings, also if it is part of a character. -/
def terminator : UInt8 := 0x9c

/-- Whether a code point cancels a sequence. -/
def cancels (code : Nat) : Bool := code = 0x18 || code = 0x1a

/-- Whether a control character stands for blank space, which is shown. -/
def isBlankControl (code : Nat) : Bool :=
  code = 0x09 || code = 0x0a || code = 0x0c || code = 0x0d

/-- Whether a code point belongs to a character that is shown in plain text. -/
def isShown (code : Nat) : Bool := (0x20 ≤ code && code != 0x7f) || isBlankControl code

/-- What the character behind an escape character begins. -/
def opened (code : Nat) : State :=
  if code = 0x5b then .hidden .control
  else if code = 0x5d then .hidden .command
  else if code = 0x50 then .hidden .device
  else if code = 0x58 || code = 0x5e || code = 0x5f then .hidden .data
  else if 0x20 ≤ code && code ≤ 0x2f then .hidden .intermediate
  else if 0x30 ≤ code && code ≤ 0x7e then .shown none
  else .hidden .escape

/-- What a character other than an escape character changes in a device control string. -/
def inDevice (sequence : Sequence) (code : Nat) : Sequence :=
  if 0x40 ≤ code && code ≤ 0x7e then .data
  else if 0x20 ≤ code && code ≤ 0x2f then .deviceIntermediate
  else if sequence = .deviceParameters && 0x3c ≤ code && code ≤ 0x3f then .data
  else if sequence = .deviceIntermediate && 0x30 ≤ code && code ≤ 0x3f then .data
  else if sequence = .device && 0x30 ≤ code && code ≤ 0x3f then .deviceParameters
  else sequence

/-- Where a character inside a sequence leads. -/
def follow (sequence : Sequence) (character : Char) : State :=
  let code := character.toNat
  if code = escape then .hidden .escape
  else if cancels code then .shown none
  else
    match sequence with
    | .escape => if isBlankControl code then .shown (some sequence) else opened code
    | .intermediate =>
      if isBlankControl code then .shown (some sequence)
      else if 0x30 ≤ code && code ≤ 0x7e then .shown none
      else .hidden sequence
    | .control =>
      if isBlankControl code then .shown (some sequence)
      else if 0x40 ≤ code && code ≤ 0x7e then .shown none
      else .hidden sequence
    | .device | .deviceParameters | .deviceIntermediate => .hidden (inDevice sequence code)
    | .data =>
      if (String.utf8EncodeChar character).contains terminator then .shown none
      else .hidden sequence
    | .command => if code = bell then .shown none else .hidden sequence

/--
Where a character leads. Control characters that are not shown let an interrupted sequence go on,
and characters beyond ASCII put an end to it.
-/
def next (state : State) (character : Char) : State :=
  match state with
  | .hidden sequence => follow sequence character
  | .shown interrupted =>
    let code := character.toNat
    if 0x80 ≤ code then .shown none
    else if isShown code then state
    else
      match interrupted with
      | none => if code = escape then .hidden .escape else state
      | some sequence => follow sequence character

/-- Whether a character is shown; of those in a sequence, only one that interrupts it is. -/
def shows (state : State) (character : Char) : Bool :=
  match state with
  | .shown _ => isShown character.toNat
  | .hidden sequence => follow sequence character = .shown (some sequence)

/-- The characters of a text that are shown. -/
def shownFrom (state : State) : List Char → List Char
  | [] => []
  | character :: rest =>
    let remaining := shownFrom (next state character) rest
    if shows state character then character :: remaining else remaining

/-- A text without what steers a terminal. -/
def plain (text : String) : String := String.ofList (shownFrom (.shown none) text.toList)

end Terminal

end ThriftIdl
