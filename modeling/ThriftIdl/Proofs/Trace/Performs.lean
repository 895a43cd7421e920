import ThriftIdl.Proofs.Grammar.Lexeme
import ThriftIdl.Proofs.Text.Boundary
import ThriftIdl.Proofs.Trace.Run

/-!
# What procedures do

A procedure performs an outcome if it ends with it and leaves a proper run on the way
(`Procedure.Performs`). Here is what the single operations perform in a state that belongs to a
source; whatever is composed of them is composed of their runs.
-/

namespace ThriftIdl

variable {source : List UInt8} {start : Nat} {α β : Type}

/-- Whether a procedure ends with an outcome and has done nothing improper on the way to it. -/
structure Procedure.Performs (source : List UInt8) (start : Nat) (procedure : Procedure α)
    (state : State) (outcome : Outcome α) : Prop where
  result : (procedure state).result = outcome
  run : Run source start state (procedure state).events outcome.state

namespace Procedure.Performs

variable {state after : State} {first : Procedure α} {next : α → Procedure β} {value : α}
  {failure : Failure}

theorem sound {outcome : Outcome α} (performs : first.Performs source start state outcome)
    (sound : state.Sound source start) : outcome.state.Sound source start :=
  performs.run.sound sound

theorem bind {outcome : Outcome β} (performs : first.Performs source start state (.done value after))
    (others : (next value).Performs source start after outcome) :
    (first >>= next).Performs source start state outcome := by
  change (andThen first next).Performs source start state outcome
  rcases performs with ⟨result, run⟩
  constructor
  all_goals
    unfold andThen
    generalize first state = traced at result run
    rcases traced with ⟨events, _⟩
    cases result
  · exact others.result
  · exact run.append others.run

theorem bind_failed (performs : first.Performs source start state (.failed failure after)) :
    (first >>= next).Performs source start state (.failed failure after) := by
  change (andThen first next).Performs source start state _
  rcases performs with ⟨result, run⟩
  constructor
  all_goals
    unfold andThen
    generalize first state = traced at result run
    rcases traced with ⟨events, _⟩
    cases result
  · rfl
  · exact run

theorem attempt_done (performs : first.Performs source start state (.done value after)) :
    first.attempt.Performs source start state (.done (.ok value) after) := by
  rcases performs with ⟨result, run⟩
  constructor
  all_goals
    unfold attempt
    generalize first state = traced at result run
    rcases traced with ⟨events, _⟩
    cases result
  · rfl
  · exact run

theorem attempt_failed (performs : first.Performs source start state (.failed failure after)) :
    first.attempt.Performs source start state (.done (.error failure) after) := by
  rcases performs with ⟨result, run⟩
  constructor
  all_goals
    unfold attempt
    generalize first state = traced at result run
    rcases traced with ⟨events, _⟩
    cases result
  · rfl
  · exact run

end Procedure.Performs

/-! ### Looking -/

/-- Whether an operation makes characters of bytes. -/
def Operation.decodes : Operation → Bool
  | text _ => true
  | decodeLossy _ => true
  | _ => false

/-- Where neither the place changes nor bytes are decoded, an operation only has to be allowed. -/
theorem Event.Proper.of_allowed {event : Event} (allowed : event.operation.Allowed event.before)
    (notMove : event.operation.isMove = false) (notDecoding : event.operation.decodes = false) :
    event.Proper source start := by
  refine ⟨allowed, ?_, ?_, ?_⟩
  · intro isMove
    rw [notMove] at isMove
    cases isMove
  · intro offset same
    rw [same] at notDecoding
    cases notDecoding
  · intro offset same
    rw [same] at notDecoding
    cases notDecoding

namespace State.Sound

variable {state : State}

theorem remaining (sound : state.Sound source start) :
    state.cursor.remaining = source.drop state.cursor.offset :=
  sound.mark.remaining

/-- What was passed over so far, and what remains. -/
theorem split (sound : state.Sound source start) :
    source = source.take state.cursor.offset ++ state.cursor.remaining := by
  rw [sound.remaining, List.take_append_drop]

theorem length (sound : state.Sound source start) :
    state.cursor.offset + state.cursor.remaining.length = source.length := by
  have fits : state.cursor.offset ≤ source.length := sound.mark.fits
  rw [sound.remaining, List.length_drop]
  omega

/-- In front of an ASCII byte there is a boundary. -/
theorem isBoundary_of_head (sound : state.Sound source start) {byte : UInt8} {rest : List UInt8}
    (head : state.cursor.remaining = byte :: rest) (ascii : byte < 0x80) :
    Utf8.isBoundary source state.cursor.offset = true := by
  have valid : Utf8.Valid (byte :: rest) :=
    Utf8.Valid.of_append_cons_ascii (head ▸ sound.split ▸ sound.valid) ascii
  rw [Utf8.isBoundary_iff sound.valid, ← sound.remaining, head]
  exact ⟨sound.mark.fits, valid⟩

/-- Behind an ASCII byte there is a boundary. -/
theorem isBoundary_of_last (sound : state.Sound source start) {front : List UInt8} {byte : UInt8}
    (passed : source.take state.cursor.offset = front ++ [byte]) (ascii : byte < 0x80) :
    Utf8.isBoundary source state.cursor.offset = true := by
  have split := sound.split
  rw [passed, List.append_assoc, List.singleton_append] at split
  rw [Utf8.isBoundary_iff sound.valid, ← sound.remaining]
  exact ⟨sound.mark.fits, (Utf8.Valid.of_append_cons (split ▸ sound.valid) ascii).2⟩

end State.Sound

namespace Procedure

variable {state : State}

theorem performs_pure (value : α) (state : State) :
    (pure value : Procedure α).Performs source start state (.done value state) := ⟨rfl, .nil state⟩

theorem performs_state (here : State) :
    Procedure.state.Performs source start here (.done here here) := ⟨rfl, .nil here⟩

theorem performs_offset (here : State) :
    offset.Performs source start here (.done here.cursor.offset here) := ⟨rfl, .nil here⟩

theorem performs_perform {operation : Operation}
    (proper : Event.Proper source start ⟨state, operation⟩) :
    (perform operation).Performs source start state (.done () (operation.apply state)) :=
  ⟨rfl, .single proper⟩

/-- A failure at the current place is always allowed. -/
theorem performs_fail (state : State) (kind : FailureKind) (expected : Expected) :
    (fail kind expected : Procedure α).Performs source start state
      (Action.fail kind expected state) := by
  have proper : Event.Proper source start ⟨state, .fail kind expected⟩ :=
    .of_allowed trivial rfl rfl
  exact ⟨rfl, .single proper⟩

theorem performs_slice {bytes : List UInt8} {place : Nat} (fits : place ≤ bytes.length)
    (state : State) :
    (slice bytes place).Performs source start state (.done (bytes.drop place) state) := by
  have proper : Event.Proper source start ⟨state, .slice bytes.length place bytes.length⟩ :=
    .of_allowed ⟨fits, Nat.le_refl _⟩ rfl rfl
  exact (performs_perform proper).bind (performs_pure _ _)

theorem performs_sliceBetween {bytes : List UInt8} {first last : Nat} (ordered : first ≤ last)
    (fits : last ≤ bytes.length) (state : State) :
    (sliceBetween bytes first last).Performs source start state
      (.done ((bytes.take last).drop first) state) := by
  have proper : Event.Proper source start ⟨state, .slice bytes.length first last⟩ :=
    .of_allowed ⟨ordered, fits⟩ rfl rfl
  exact (performs_perform proper).bind (performs_pure _ _)

theorem performs_remaining (sound : state.Sound source start) :
    remaining.Performs source start state (.done state.cursor.remaining state) := by
  have fits : state.cursor.offset ≤ state.cursor.source.length := by
    rw [sound.sameSource]
    exact sound.mark.fits
  have sliced : (slice state.cursor.source state.cursor.offset).Performs source start state
      (.done state.cursor.remaining state) := by
    rw [sound.remaining, ← sound.sameSource]
    exact performs_slice fits state
  exact (performs_state state).bind ((performs_offset state).bind sliced)

theorem performs_peekAhead (sound : state.Sound source start) (count : Nat) :
    (peekAhead count).Performs source start state (.done state.cursor.remaining[count]? state) :=
  (performs_remaining sound).bind (performs_pure _ _)

/-- Cutting out a text between two boundaries gives the text of the bytes between them. -/
theorem performs_textFrom (sound : state.Sound source start) {offset : Nat} {letters : List UInt8}
    (between : source.drop offset = letters ++ state.cursor.remaining)
    (length : offset + letters.length = state.cursor.offset)
    (boundary : Utf8.isBoundary source offset = true)
    (boundaryHere : Utf8.isBoundary source state.cursor.offset = true) :
    (textFrom offset).Performs source start state (.done (Utf8.text letters) state) := by
  have ordered : offset ≤ state.cursor.offset := by omega
  have proper : Event.Proper source start ⟨state, .text offset⟩ := by
    refine ⟨trivial, nofun, ?_, nofun⟩
    rintro _ ⟨⟩
    exact ⟨ordered, boundary, boundaryHere⟩
  have cut : state.cursor.sliceFrom offset = Utf8.text letters := by
    have count : state.cursor.offset - offset = letters.length := by omega
    rw [Cursor.sliceFrom, sound.sameSource, boundary, boundaryHere, between, count, List.take_left]
    simp [ordered]
  rw [← cut]
  exact (performs_perform proper).bind ((performs_state state).bind (performs_pure _ _))

/-! ### Moving on -/

theorem performs_bump (sound : state.Sound source start) {count : Nat}
    (fits : count ≤ state.cursor.remaining.length)
    (moves : state.cursor.mark.Moves source start (state.cursor.mark.bump count)) :
    (bump count).Performs source start state (.done () (state.mapCursor (Cursor.bump · count))) := by
  have inside : state.cursor.offset + count ≤ state.cursor.source.length := by
    rw [sound.sameSource, ← sound.length]
    omega
  have proper : Event.Proper source start ⟨state, .bump count⟩ :=
    ⟨inside, fun _ => moves, nofun, nofun⟩
  exact (performs_remaining sound).bind (performs_perform proper)

end Procedure

/-- An ASCII byte that ends no line. Tokens that are not quoted consist of such bytes. -/
def Byte.isInline (byte : UInt8) : Bool := byte < 0x80 && !isLineEnd byte

namespace Mark

variable {mark : Mark} {count : Nat}

theorem position_bump (fits : count ≤ mark.remaining.length) :
    (mark.bump count).position = mark.position.advance count := by
  rw [bump, List.length_take_of_le fits]

theorem bump_bump (mark : Mark) (count more : Nat) :
    (mark.bump count).bump more = mark.bump (count + more) := by
  unfold bump Position.advance
  simp only [List.length_take, List.length_drop, List.drop_drop, Mark.mk.injEq, Position.mk.injEq,
    and_self, and_true]
  omega

namespace Moves

/-- Over ASCII bytes that end no line. -/
theorem bump_inline
    (inside : ∀ byte ∈ mark.remaining.take count, Byte.isInline byte = true) :
    mark.Moves source start (mark.bump count) := by
  have ascii : ∀ byte ∈ mark.remaining.take count, byte < 0x80 := by
    intro byte mem
    have inline := inside byte mem
    grind [Byte.isInline]
  have noLineEnd : ∀ byte ∈ mark.remaining.take count, Byte.isLineEnd byte = false := by
    intro byte mem
    have inline := inside byte mem
    grind [Byte.isInline]
  have split : mark.remaining = mark.remaining.take count ++ (mark.bump count).remaining :=
    (List.take_append_drop count _).symm
  refine .counting _ split ?_ ?_
  · rw [Position.passAll_eq_advance _ noLineEnd]
    rfl
  · intro valid
    rw [split] at valid
    exact valid.of_ascii_append ascii

/-- Over any bytes, if a quote was passed before their end. -/
theorem bump_quoted {source : List UInt8} {start : Nat} (fits : count ≤ mark.remaining.length)
    (quote : ((source.take (mark.position.offset + count)).drop start).any Byte.isQuote = true)
    (valid : Utf8.Valid mark.remaining → Utf8.Valid (mark.remaining.drop count)) :
    mark.Moves source start (mark.bump count) := by
  have split : mark.remaining = mark.remaining.take count ++ (mark.bump count).remaining :=
    (List.take_append_drop count _).symm
  refine .quoted _ split rfl valid ?_
  rwa [position_bump fits]

end Moves

end Mark

end ThriftIdl
