import ThriftIdl.Proofs.Grammar.First
import ThriftIdl.Proofs.Reading.Attempt
import ThriftIdl.Proofs.Trace.Rules

/-!
# Sources step by step

Reading a source step by step comes to the same declarations and the same error as reading it, and
all that is done on the way is a proper run. It begins where reading begins, and it ends in the state
that a failed attempt hands on, or at the end of the source if no attempt fails. So nothing can be
missing from the record that changes a state.
-/

namespace ThriftIdl

variable {source : List UInt8} {start : Nat}

/-- Where a place in a source may be. -/
def Position.Within (source : List UInt8) (start : Nat) (position : Position) : Prop :=
  start ≤ position.offset ∧ position.offset ≤ source.length

theorem Mark.Anchored.within {mark : Mark} (anchored : mark.Anchored source start) :
    mark.position.Within source start :=
  ⟨anchored.starts, anchored.fits⟩

/-- Moves stay within the source and go on from where it is read. -/
theorem Mark.Moves.within {before after : Mark} (anchored : before.Anchored source start)
    (moves : before.Moves source start after) : after.position.Within source start :=
  (moves.anchored anchored).within

/-- What is dropped beyond the end does not matter. -/
theorem drop_min {bytes : List UInt8} {size : Nat} (fits : bytes.length ≤ size) (count : Nat) :
    bytes.drop (min count size) = bytes.drop count := by
  rcases Nat.le_total count size with inside | beyond
  · rw [Nat.min_eq_left inside]
  · rw [Nat.min_eq_right beyond, List.drop_of_length_le fits,
      List.drop_of_length_le (fits.trans beyond)]

namespace State

variable {state : State}

theorem Sound.prepare (sound : state.Sound source start) :
    (Reading.prepare state).Sound source start :=
  ⟨sound.valid, sound.mark, sound.checkpoints, sound.sameSource⟩

/-- Where no failures are remembered, all positions are places to go on from. -/
theorem Sound.everywhere_prepare (sound : state.Sound source start) :
    (Reading.prepare state).Everywhere (Position.Within source start) :=
  ⟨sound.mark.within, fun mark mem => (sound.checkpoints mark mem).within, nofun, nofun⟩

theorem sound_startAt (text : String) (offset : Nat) :
    (startAt (Utf8.encode text) offset).Sound (Utf8.encode text)
      (min offset (Utf8.encode text).length) := by
  have same := drop_min (Nat.le_refl (Utf8.encode text).length) offset
  exact ⟨Utf8.valid_encode text, ⟨Nat.le_refl _, Nat.min_le_right _ _, same.symm⟩,
    by simp [startAt, Cursor.startAt], rfl⟩

end State

namespace ParseError

variable {state : State} {failure : Failure}

/-- Only where a failure was recorded inside a character, bytes are decoded that are no text. -/
theorem traceContext_proper (sound : state.Sound source start)
    (recorded : failure ∈ state.tooDeep ∨ failure ∈ state.cursor.furthest)
    (fits : failure.position.offset ≤ source.length) :
    (traceContext state failure).result =
        (Utf8.decodeLossy (state.cursor.source.drop failure.position.offset)).take contextLength ∧
      Run source start state (traceContext state failure).events state := by
  unfold traceContext
  simp only [sound.sameSource, Nat.min_eq_left fits]
  split_ifs with boundary
  · have valid := ((Utf8.isBoundary_iff sound.valid).1 boundary).2
    exact ⟨by rw [Utf8.decodeLossy_of_valid valid], .nil state⟩
  · have sliced : Event.Proper source start
        ⟨state, .slice source.length failure.position.offset source.length⟩ :=
      .of_allowed ⟨fits, Nat.le_refl _⟩ rfl rfl
    have decoded : Event.Proper source start ⟨state, .decodeLossy failure.position.offset⟩ := by
      refine ⟨?_, nofun, nofun, ?_⟩
      · change failure.position.offset ≤ state.cursor.source.length
        rwa [sound.sameSource]
      · rintro _ ⟨⟩
        exact ⟨Bool.eq_false_iff.2 boundary, failure, recorded, rfl⟩
    exact ⟨rfl, .cons sliced (.single decoded)⟩

/-- The error of a recorded failure is found without harm. -/
theorem trace_proper (sound : state.Sound source start)
    (recorded : failure ∈ state.tooDeep ∨ failure ∈ state.cursor.furthest)
    (fits : failure.position.offset ≤ source.length) :
    (trace state failure).result = ofFailure state.cursor.source failure ∧
      Run source start state (trace state failure).events state := by
  rcases traceContext_proper sound recorded fits with ⟨context, run⟩
  refine ⟨?_, run⟩
  rw [trace, Traced.map, context]
  rfl

end ParseError

namespace Reading

variable {rule : Rule Declaration}

/--
Whether reading ends in a state: the attempt that fails hands it on, or no attempt fails and nothing
is left of the source.
-/
inductive EndsIn : Option Attempt → State → Prop where
  | failed (attempt : Attempt) : EndsIn (some attempt) attempt.after
  | finished {last : State} (atEnd : last.cursor.atEnd = true) : EndsIn none last

/--
A traced reading of declarations: it comes to the same as reading them, and its run is proper and
ends where reading them ends.
-/
structure TracedFrom (source : List UInt8) (start : Nat) (rule : Rule Declaration) (state : State) :
    Prop where
  result : (traceState rule state).result = ofState rule state
  run : ∃ last, Run source start state (traceState rule state).events last ∧
    EndsIn (failedAttempt rule state) last

section Cases

variable {state after : State} {declaration : Declaration} {returned : Failure}

theorem traceState_of_failed (notAtEnd : ¬state.cursor.atEnd = true)
    (failed : (rule.trace (prepare state)).result = .failed returned after) :
    traceState rule state =
      ((ParseError.trace after (blame after returned)).map fun error => ⟨[], some error⟩).after
        (⟨state, .prepare⟩ :: (rule.trace (prepare state)).events) := by
  rw [traceState, if_neg notAtEnd]
  generalize rule.trace (prepare state) = traced at failed ⊢
  rcases traced with ⟨events, _⟩
  cases failed
  rfl

theorem traceState_of_done (notAtEnd : ¬state.cursor.atEnd = true)
    (done : (rule.trace (prepare state)).result = .done declaration after)
    (shorter : after.remainingLength < state.remainingLength) :
    traceState rule state =
      ((traceState rule after).map fun rest =>
        ⟨(declaration, after.cursor.offset) :: rest.declarations, rest.error⟩).after
          (⟨state, .prepare⟩ :: (rule.trace (prepare state)).events) := by
  rw [traceState, if_neg notAtEnd]
  generalize rule.trace (prepare state) = traced at done ⊢
  rcases traced with ⟨events, _⟩
  cases done
  simp only [if_pos shorter]

theorem prepare_proper (state : State) : Event.Proper source start ⟨state, .prepare⟩ :=
  .of_allowed trivial rfl rfl

/-- Reading a declaration step by step ends as reading it does. -/
theorem performs_of_run (wellFormed : rule.WellFormed) (sound : state.Sound source start)
    {outcome : Outcome Declaration} (ran : rule.run (prepare state) = outcome) :
    Procedure.Performs source start rule.trace (prepare state) outcome :=
  ran ▸ rule.performs_trace wellFormed sound.prepare

theorem tracedFrom_of_atEnd (between : Between state) (atEnd : state.cursor.atEnd = true) :
    TracedFrom source start rule state := by
  have finished : Event.Proper source start ⟨state, .finish⟩ :=
    .of_allowed ⟨between.checkpoints, between.depth⟩ rfl rfl
  refine ⟨?_, state, ?_, ?_⟩
  · rw [traceState, if_pos atEnd, ofState, if_pos atEnd]
  · rw [traceState, if_pos atEnd]
    exact .single finished
  · rw [failedAttempt, if_pos atEnd]
    exact .finished atEnd

/-- The error is made of a recorded failure, so its place lies in the source as well. -/
theorem tracedFrom_of_failed (wellFormed : rule.WellFormed) (sound : state.Sound source start)
    (notAtEnd : ¬state.cursor.atEnd = true)
    (ran : rule.run (prepare state) = .failed returned after) :
    TracedFrom source start rule state := by
  have performs := performs_of_run wellFormed sound ran
  have traced := traceState_of_failed notAtEnd performs.result
  have within := (performs.run.everywhere (fun anchored moves _ => moves.within anchored)
    sound.prepare sound.everywhere_prepare).2
  have recorded := blame_mem ran
  have fits : (blame after returned).position.offset ≤ source.length :=
    (recorded.elim (within.tooDeep _) (within.furthest _)).2
  rcases ParseError.trace_proper (performs.sound sound.prepare) recorded fits with
    ⟨errorResult, errorRun⟩
  refine ⟨?_, after, ?_, ?_⟩
  · rw [traced, ofState, if_neg notAtEnd, ran]
    exact congrArg (Reading.mk [] ∘ some) errorResult
  · rw [traced]
    exact .cons (prepare_proper state) (performs.run.append errorRun)
  · rw [failedAttempt, if_neg notAtEnd, ran]
    exact .failed ⟨state, returned, after⟩

theorem tracedFrom_of_done (wellFormed : rule.WellFormed) (sound : state.Sound source start)
    (notAtEnd : ¬state.cursor.atEnd = true)
    (ran : rule.run (prepare state) = .done declaration after)
    (shorter : after.remainingLength < state.remainingLength)
    (others : TracedFrom source start rule after) : TracedFrom source start rule state := by
  have performs := performs_of_run wellFormed sound ran
  have traced := traceState_of_done notAtEnd performs.result shorter
  rcases others with ⟨result, last, run, ends⟩
  refine ⟨?_, last, ?_, ?_⟩
  · rw [traced, ofState, if_neg notAtEnd, ran]
    simp only [if_pos shorter, ← result]
    rfl
  · rw [traced]
    exact .cons (prepare_proper state) (performs.run.append run)
  · rw [failedAttempt, if_neg notAtEnd, ran]
    simp only [if_pos shorter]
    exact ends

end Cases

theorem tracedFrom (wellFormed : rule.WellFormed) (notNullable : ¬rule.Nullable) {state : State}
    (sound : state.Sound source start) (between : Between state) :
    TracedFrom source start rule state := by
  -- Each declaration takes bytes, so what remains gets shorter.
  induction length : state.remainingLength using Nat.strong_induction_on generalizing state with
  | _ count ih =>
      by_cases atEnd : state.cursor.atEnd = true
      · exact tracedFrom_of_atEnd between atEnd
      · cases ran : rule.run (prepare state) with
        | failed returned after => exact tracedFrom_of_failed wellFormed sound atEnd ran
        | done declaration after =>
            have shorter : after.remainingLength < state.remainingLength :=
              (Rule.consumes_of_read wellFormed notNullable (Rule.read_of_run_done ran)).shorter
            have soundAfter := (performs_of_run wellFormed sound ran).sound sound.prepare
            have others : TracedFrom source start rule after :=
              ih _ (length ▸ shorter) soundAfter (between.of_run_done ran) rfl
            exact tracedFrom_of_done wellFormed sound atEnd ran shorter others

/-- All that is done while a source is read, from the place where reading begins. -/
theorem trace_proper (source : String) (offset : Nat) :
    (trace source offset).result = ofSource source offset ∧
      ∃ last, Run (Utf8.encode source) (min offset (Utf8.encode source).length)
          (State.startAt (Utf8.encode source) offset) (trace source offset).events last ∧
        EndsIn (Document.failedAttempt source offset) last := by
  have sound := State.sound_startAt source offset
  have skipped := Procedure.performs_skipGap sound
  have soundAfter := skipped.sound sound
  have between : Between ((State.startAt (Utf8.encode source) offset).mapCursor Cursor.skipGap) :=
    ⟨rfl, rfl⟩
  rcases tracedFrom (Grammar.wellFormed_declaration Grammar.maxNesting)
    (Grammar.not_nullable_declaration Grammar.maxNesting) soundAfter between with
      ⟨result, last, run, ends⟩
  have traced : trace source offset =
      (traceState (Grammar.declaration Grammar.maxNesting)
        (Procedure.skipGap (State.startAt (Utf8.encode source) offset)).result.state).after
        (Procedure.skipGap (State.startAt (Utf8.encode source) offset)).events := rfl
  rw [skipped.result] at traced
  refine ⟨?_, last, ?_, ends⟩
  · rw [traced]
    exact result
  · rw [traced]
    exact skipped.run.append run

/--
Whether events are all that is done while a source is read. The first of them happens in the state in
which reading begins, each other one in the state after the one before, and after the last of them
reading has come to its end.
-/
def IsWholeRecord (source : String) (offset : Nat) (events : List Event) : Prop :=
  ∃ last, Event.Chain (State.startAt (Utf8.encode source) offset) events last ∧
    EndsIn (Document.failedAttempt source offset) last

theorem isWholeRecord_trace (source : String) (offset : Nat) :
    IsWholeRecord source offset (trace source offset).events := by
  rcases trace_proper source offset with ⟨-, last, run, ends⟩
  exact ⟨last, run.chain, ends⟩

end Reading

end ThriftIdl
