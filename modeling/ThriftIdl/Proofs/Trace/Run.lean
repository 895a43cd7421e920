import ThriftIdl.Proofs.Text.Utf8
import ThriftIdl.Proofs.Trace.Operation

/-!
# Proper runs

What every operation does when a source is read: it is allowed, and if it moves on, then over a piece
of the source that does not end inside a character, and it counts the line endings of that piece,
unless a quote was passed before its end. Whatever such moves keep of a position holds of every
position that is ever current, saved, or stored in a failure (`Run.everywhere`).
-/

namespace ThriftIdl

namespace Position

/-- Passes over some bytes and counts their line endings. -/
def passAll (position : Position) (bytes : List UInt8) : Position := bytes.foldl pass position

theorem record_eq (position : Position) (byte : UInt8) :
    position.record byte = ⟨position.offset, position.lineFeeds + [byte].count Byte.lineFeed,
      position.carriageReturns + [byte].count Byte.carriageReturn⟩ := by
  unfold record
  split_ifs with lineFeed carriageReturn
  · subst lineFeed
    rfl
  · subst carriageReturn
    rfl
  · simp [lineFeed, carriageReturn]

theorem pass_eq (position : Position) (byte : UInt8) :
    position.pass byte = ⟨position.offset + 1, position.lineFeeds + [byte].count Byte.lineFeed,
      position.carriageReturns + [byte].count Byte.carriageReturn⟩ := by
  rw [pass, record_eq]
  rfl

theorem passAll_cons (position : Position) (byte : UInt8) (rest : List UInt8) :
    position.passAll (byte :: rest) = (position.pass byte).passAll rest := rfl

theorem count_cons_eq (other byte : UInt8) (rest : List UInt8) :
    (byte :: rest).count other = [byte].count other + rest.count other := by
  rw [← List.singleton_append, List.count_append]

theorem passAll_eq (position : Position) (bytes : List UInt8) :
    position.passAll bytes = ⟨position.offset + bytes.length,
      position.lineFeeds + bytes.count Byte.lineFeed,
      position.carriageReturns + bytes.count Byte.carriageReturn⟩ := by
  induction bytes generalizing position with
  | nil => rfl
  | cons byte rest ih =>
      rw [passAll_cons, ih, pass_eq, List.length_cons, count_cons_eq _ byte rest,
        count_cons_eq _ byte rest]
      simp only [Position.mk.injEq]
      omega

theorem passAll_append (position : Position) (front back : List UInt8) :
    position.passAll (front ++ back) = (position.passAll front).passAll back :=
  List.foldl_append

/-- Bytes without line endings only add to the offset. -/
theorem passAll_eq_advance (position : Position) {bytes : List UInt8}
    (noLineEnd : ∀ byte ∈ bytes, Byte.isLineEnd byte = false) :
    position.passAll bytes = position.advance bytes.length := by
  have noLineFeed : bytes.count Byte.lineFeed = 0 :=
    List.count_eq_zero.2 fun mem => by cases noLineEnd _ mem
  have noCarriageReturn : bytes.count Byte.carriageReturn = 0 :=
    List.count_eq_zero.2 fun mem => by cases noLineEnd _ mem
  rw [passAll_eq, noLineFeed, noCarriageReturn]
  rfl

end Position

variable {source : List UInt8} {start : Nat}

/-- Whether a place lies in a source, not in front of the start, and has the right bytes behind it. -/
structure Mark.Anchored (source : List UInt8) (start : Nat) (mark : Mark) : Prop where
  starts : start ≤ mark.position.offset
  fits : mark.position.offset ≤ source.length
  remaining : mark.remaining = source.drop mark.position.offset

theorem Mark.Anchored.move {before after : Mark} (anchored : before.Anchored source start)
    {chunk : List UInt8} (split : before.remaining = chunk ++ after.remaining)
    (offset : after.position.offset = before.position.offset + chunk.length) :
    after.Anchored source start := by
  rcases anchored with ⟨starts, fits, remaining⟩
  rw [split] at remaining
  have length := congrArg List.length remaining
  rw [List.length_append, List.length_drop] at length
  refine ⟨by omega, by omega, ?_⟩
  rw [offset, ← List.drop_drop, ← remaining, List.drop_left]

/--
How the current place moves: over some bytes, from outside of any character to outside of any
character. Either the line endings among these bytes are counted, or there is a quote behind the
start.
-/
inductive Mark.Moves (source : List UInt8) (start : Nat) (before after : Mark) : Prop where
  | counting (chunk : List UInt8) (split : before.remaining = chunk ++ after.remaining)
      (position : after.position = before.position.passAll chunk)
      (valid : Utf8.Valid before.remaining → Utf8.Valid after.remaining)
  | quoted (chunk : List UInt8) (split : before.remaining = chunk ++ after.remaining)
      (position : after.position = before.position.advance chunk.length)
      (valid : Utf8.Valid before.remaining → Utf8.Valid after.remaining)
      (quote : ((source.take after.position.offset).drop start).any Byte.isQuote = true)

namespace Mark.Moves

variable {before after : Mark}

theorem exists_chunk (moves : before.Moves source start after) :
    ∃ chunk, before.remaining = chunk ++ after.remaining ∧
      after.position.offset = before.position.offset + chunk.length := by
  cases moves with
  | counting chunk split position => exact ⟨chunk, split, by rw [position, Position.passAll_eq]⟩
  | quoted chunk split position => exact ⟨chunk, split, by rw [position]; rfl⟩

theorem valid (moves : before.Moves source start after) (valid : Utf8.Valid before.remaining) :
    Utf8.Valid after.remaining := by
  cases moves with
  | counting _ _ _ keeps => exact keeps valid
  | quoted _ _ _ keeps => exact keeps valid

theorem anchored (moves : before.Moves source start after)
    (anchored : before.Anchored source start) : after.Anchored source start := by
  rcases moves.exists_chunk with ⟨chunk, split, offset⟩
  exact anchored.move split offset

end Mark.Moves

/-- Whether a state belongs to a valid source, and its places lie in it. -/
structure State.Sound (source : List UInt8) (start : Nat) (state : State) : Prop where
  valid : Utf8.Valid source
  mark : state.cursor.mark.Anchored source start
  checkpoints : ∀ mark ∈ state.cursor.checkpoints, mark.Anchored source start
  sameSource : state.cursor.source = source

/--
Whether something holds of each position of a state: the current one, those that are saved, and
those of the failures.
-/
structure State.Everywhere (holds : Position → Prop) (state : State) : Prop where
  current : holds state.cursor.position
  checkpoints : ∀ mark ∈ state.cursor.checkpoints, holds mark.position
  furthest : ∀ failure ∈ state.cursor.furthest, holds failure.position
  tooDeep : ∀ failure ∈ state.tooDeep, holds failure.position

/-- Whether an operation moves on in the source. -/
def Operation.isMove : Operation → Bool
  | bump _ => true
  | pass _ => true
  | jump _ _ => true
  | _ => false

/--
What is true of every operation where a source is read: it is allowed, it moves on as described, it
cuts out whole characters, and bytes that are no text are decoded only where a failure was recorded.
-/
structure Event.Proper (source : List UInt8) (start : Nat) (event : Event) : Prop where
  allowed : event.operation.Allowed event.before
  moves : event.operation.isMove = true →
    event.before.cursor.mark.Moves source start event.after.cursor.mark
  text : ∀ offset, event.operation = .text offset →
    offset ≤ event.before.cursor.offset ∧ Utf8.isBoundary source offset = true ∧
      Utf8.isBoundary source event.before.cursor.offset = true
  lossy : ∀ offset, event.operation = .decodeLossy offset →
    Utf8.isBoundary source offset = false ∧
      ∃ failure, (failure ∈ event.before.tooDeep ∨ failure ∈ event.before.cursor.furthest) ∧
        offset = failure.position.offset

namespace Event.Chain

variable {first middle last : State} {events later : List Event}

theorem append (chain : Chain first events middle) (others : Chain middle later last) :
    Chain first (events ++ later) last := by
  induction chain with
  | nil state => exact others
  | cons _ ih => exact .cons (ih others)

/-- What each event of a chain keeps holds of all states that the chain comes to. -/
theorem everywhere (holds : State → Prop) (chain : Chain first events last)
    (kept : ∀ event ∈ events, holds event.before → holds event.after) (atStart : holds first) :
    (∀ event ∈ events, holds event.before ∧ holds event.after) ∧ holds last := by
  induction chain with
  | nil state => exact ⟨by simp, atStart⟩
  | cons _ ih =>
      rcases List.forall_mem_cons.1 kept with ⟨keptFirst, keptLater⟩
      have next := keptFirst atStart
      rcases ih keptLater next with ⟨later, atEnd⟩
      exact ⟨List.forall_mem_cons.2 ⟨⟨atStart, next⟩, later⟩, atEnd⟩

end Event.Chain

/-- A chain of proper events. -/
structure Run (source : List UInt8) (start : Nat) (first : State) (events : List Event)
    (last : State) : Prop where
  chain : Event.Chain first events last
  proper : ∀ event ∈ events, event.Proper source start

namespace Run

variable {first middle last : State} {events later : List Event}

theorem nil (state : State) : Run source start state [] state := ⟨.nil state, by simp⟩

theorem cons {event : Event} (proper : event.Proper source start)
    (others : Run source start event.after events last) :
    Run source start event.before (event :: events) last :=
  ⟨.cons others.chain, List.forall_mem_cons.2 ⟨proper, others.proper⟩⟩

theorem single {event : Event} (proper : event.Proper source start) :
    Run source start event.before [event] event.after := cons proper (nil _)

theorem append (run : Run source start first events middle)
    (others : Run source start middle later last) : Run source start first (events ++ later) last :=
  ⟨run.chain.append others.chain, List.forall_mem_append.2 ⟨run.proper, others.proper⟩⟩

end Run

/-! ### What runs keep -/

/-- What holds of the current place and of all saved ones holds of the place to go back to. -/
theorem Cursor.holds_mark_restore (holds : Mark → Prop) {cursor : Cursor} (mark : holds cursor.mark)
    (checkpoints : ∀ mark ∈ cursor.checkpoints, holds mark) : holds cursor.restore.mark := by
  change holds (cursor.checkpoints.headD cursor.mark)
  cases stack : cursor.checkpoints with
  | nil => exact mark
  | cons place places => exact checkpoints place (by simp [stack])

theorem State.Sound.restore {state : State} (sound : state.Sound source start) :
    state.restore.Sound source start :=
  ⟨sound.valid, Cursor.holds_mark_restore _ sound.mark sound.checkpoints, sound.checkpoints,
    sound.sameSource⟩

theorem Event.Proper.sound {event : Event} (proper : event.Proper source start)
    (sound : event.before.Sound source start) : event.after.Sound source start := by
  have moved : event.operation.isMove = true → event.after.cursor.mark.Anchored source start :=
    fun isMove => (proper.moves isMove).anchored sound.mark
  rcases event with ⟨state, operation⟩
  cases operation with
  | bump count => exact ⟨sound.valid, moved rfl, sound.checkpoints, sound.sameSource⟩
  | pass byte => exact ⟨sound.valid, moved rfl, sound.checkpoints, sound.sameSource⟩
  | jump offset lineEnds => exact ⟨sound.valid, moved rfl, sound.checkpoints, sound.sameSource⟩
  | save =>
      refine ⟨sound.valid, sound.mark, ?_, sound.sameSource⟩
      intro mark mem
      rcases List.mem_cons.1 mem with rfl | mem
      · exact sound.mark
      · exact sound.checkpoints mark mem
  | restore => exact sound.restore
  | dropCheckpoint =>
      refine ⟨sound.valid, sound.mark, ?_, sound.sameSource⟩
      intro mark mem
      exact sound.checkpoints mark (List.mem_of_mem_tail mem)
  | _ => exact ⟨sound.valid, sound.mark, sound.checkpoints, sound.sameSource⟩

section Everywhere

variable {holds : Position → Prop}

/-- A failure at the current place is no new position. -/
theorem State.Everywhere.fail {state : State} (everywhere : state.Everywhere holds)
    (kind : FailureKind) (expected : Expected) :
    (state.mapCursor (Cursor.fail · kind expected)).Everywhere holds := by
  refine ⟨everywhere.current, everywhere.checkpoints, ?_, everywhere.tooDeep⟩
  intro failure mem
  rcases Cursor.eq_or_mem_of_mem_keepFurthest mem with rfl | known
  · exact everywhere.current
  · exact everywhere.furthest failure known

theorem State.Everywhere.restore {state : State} (everywhere : state.Everywhere holds) :
    state.restore.Everywhere holds :=
  ⟨Cursor.holds_mark_restore (fun mark => holds mark.position) everywhere.current
    everywhere.checkpoints, everywhere.checkpoints, everywhere.furthest, everywhere.tooDeep⟩

theorem State.Everywhere.keepRefusal {state : State} (everywhere : state.Everywhere holds) :
    state.keepRefusal.Everywhere holds := by
  refine ⟨everywhere.current, everywhere.checkpoints, everywhere.furthest, ?_⟩
  intro failure mem
  rcases Option.or_eq_some_iff.1 mem with known | ⟨-, known⟩
  · exact everywhere.tooDeep failure known
  · cases known
    exact everywhere.current

/-- Every position of the state after an operation is one from before, or a move has led to it. -/
theorem Event.Proper.everywhere {event : Event} (proper : event.Proper source start)
    (kept : ∀ {before after : Mark}, before.Anchored source start →
      before.Moves source start after → holds before.position → holds after.position)
    (sound : event.before.Sound source start) (everywhere : event.before.Everywhere holds) :
    event.after.Everywhere holds := by
  have moved : event.operation.isMove = true → holds event.after.cursor.position :=
    fun isMove => kept sound.mark (proper.moves isMove) everywhere.current
  rcases event with ⟨state, operation⟩
  rcases everywhere with ⟨current, checkpoints, furthest, tooDeep⟩
  cases operation with
  | bump count => exact ⟨moved rfl, checkpoints, furthest, tooDeep⟩
  | pass byte => exact ⟨moved rfl, checkpoints, furthest, tooDeep⟩
  | jump offset lineEnds => exact ⟨moved rfl, checkpoints, furthest, tooDeep⟩
  | save =>
      refine ⟨current, ?_, furthest, tooDeep⟩
      intro mark mem
      rcases List.mem_cons.1 mem with rfl | mem
      · exact current
      · exact checkpoints mark mem
  | restore => exact State.Everywhere.restore ⟨current, checkpoints, furthest, tooDeep⟩
  | dropCheckpoint =>
      refine ⟨current, ?_, furthest, tooDeep⟩
      intro mark mem
      exact checkpoints mark (List.mem_of_mem_tail mem)
  | fail kind expected =>
      exact State.Everywhere.fail ⟨current, checkpoints, furthest, tooDeep⟩ kind expected
  | keepRefusal => exact State.Everywhere.keepRefusal ⟨current, checkpoints, furthest, tooDeep⟩
  | prepare => exact ⟨current, checkpoints, nofun, nofun⟩
  | _ => exact ⟨current, checkpoints, furthest, tooDeep⟩

namespace Run

variable {first last : State} {events : List Event}

theorem sound (run : Run source start first events last) (sound : first.Sound source start) :
    last.Sound source start :=
  (run.chain.everywhere (·.Sound source start) (fun event mem => (run.proper event mem).sound)
    sound).2

/-- What every move keeps of a position holds of all positions that a run comes to. -/
theorem everywhere
    (kept : ∀ {before after : Mark}, before.Anchored source start →
      before.Moves source start after → holds before.position → holds after.position)
    (run : Run source start first events last) (sound : first.Sound source start)
    (everywhere : first.Everywhere holds) :
    (∀ event ∈ events, event.before.Everywhere holds ∧ event.after.Everywhere holds) ∧
      last.Everywhere holds := by
  have both := run.chain.everywhere (fun state => state.Sound source start ∧ state.Everywhere holds)
    (fun event mem ⟨sound, everywhere⟩ =>
      ⟨(run.proper event mem).sound sound, (run.proper event mem).everywhere kept sound everywhere⟩)
    ⟨sound, everywhere⟩
  rcases both with ⟨events, atEnd⟩
  exact ⟨fun event mem => ⟨(events event mem).1.2, (events event mem).2.2⟩, atEnd.2⟩

end Run

end Everywhere

end ThriftIdl
