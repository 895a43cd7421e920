import ThriftIdl.Proofs.Backtracking
import ThriftIdl.Proofs.Grammar.Complaints
import ThriftIdl.Proofs.Grammar.First
import ThriftIdl.Proofs.Trace.Gap
import ThriftIdl.Proofs.Trace.Run
import ThriftIdl.Reading.Basic

/-!
# Every success makes progress

Whatever the grammar reads takes bytes, and there is no gap behind it. So a repetition never comes to
its end because an item takes no bytes, and neither does the reading of declarations: there are at
most as many attempts as bytes remain, and one more.

The exits for items that take no bytes are therefore idle. `Rule.Runs` and `Reading.Loops` say what
it is to read without them. As such a reading might never come to an end, it has to be shown that
there is one; and then it is the reading of the grammar.
-/

namespace ThriftIdl

variable {α : Type}

/-! ### Progress -/

/--
Whether an action that is done comes to a place further on in the source, with no gap in front of
what remains.
-/
def Action.Advances (action : Action α) : Prop :=
  ∀ ⦃state after : State⦄ ⦃value : α⦄, state.cursor.mark.Anchored state.cursor.source 0 →
    action state = .done value after →
      state.cursor.offset < after.cursor.offset ∧
        after.cursor.offset ≤ state.cursor.source.length ∧ after.cursor.skipGap = after.cursor

/-- Whether fewer bytes remain behind an action that is done. -/
def Action.TakesBytes (action : Action α) : Prop :=
  ∀ ⦃state after : State⦄ ⦃value : α⦄, action state = .done value after →
    after.remainingLength < state.remainingLength

namespace Rule

variable {rule : Rule α} {bytes rest : List UInt8} {value : α}

theorem takesBytes_run (wellFormed : rule.WellFormed) (notNullable : ¬rule.Nullable) :
    rule.run.TakesBytes :=
  fun _ _ _ ran => (consumes_of_read wellFormed notNullable (read_of_run_done ran)).shorter

/-- Behind what a rule takes there is no gap, whether there is one in front of it or not. -/
theorem settled_of_consumes (wellFormed : rule.WellFormed)
    (found : rule.read bytes = some (value, rest)) (consumes : rule.Consumes bytes rest) :
    Gap.Settled rest := by
  have kept : Kept fun place => place = bytes ∨ Gap.Settled place := by
    constructor
    · intro γ terminal place behind value plain _ read
      obtain ⟨length, -, rfl⟩ := Token.read_eq_some_iff.1 read
      exact .inr (Gap.settled_rest _)
    · intro byte tail _ _
      exact .inr (Gap.settled_rest tail)
  rcases kept.read wellFormed (.inl rfl) found with rfl | settled
  · exact absurd consumes.shorter (Nat.lt_irrefl _)
  · exact settled

theorem advances_run (wellFormed : rule.WellFormed) (notNullable : ¬rule.Nullable) :
    rule.run.Advances := by
  intro state after value anchored ran
  have found := read_of_run_done ran
  have consumes := consumes_of_read wellFormed notNullable found
  have shorter : after.cursor.mark.remaining.length < state.cursor.mark.remaining.length :=
    consumes.shorter
  have extent := (framed_of_run_done ran).extent
  have whole : state.cursor.mark.extent = state.cursor.source.length := by
    have fits := anchored.fits
    rw [Mark.extent, anchored.remaining, List.length_drop]
    omega
  have settled : after.cursor.mark.skipGap = after.cursor.mark :=
    Mark.skipGap_of_settled (settled_of_consumes wellFormed found consumes)
  simp only [Mark.extent] at extent whole
  refine ⟨?_, ?_, ?_⟩
  · simp only [Cursor.offset]
    omega
  · simp only [Cursor.offset]
    omega
  · rw [Cursor.skipGap, settled]

end Rule

/-! ### Repetitions -/

namespace Action

variable {action : Action α} {state latest last : State} {items others : List α}

/--
Whether an action reads items until one fails, in every state. Each item takes bytes, and there are
at most as many attempts as bytes remain, and one more.
-/
def Exhausts (item : Action α) (all : Action (List α)) : Prop :=
  ∀ state, ∃ items latest failure after, Attempts item state items latest ∧
    item latest.save = .failed failure after ∧ items.length + 1 ≤ state.remainingLength + 1 ∧
      all state = .done items after.restore.dropCheckpoint

theorem Attempts.length_le (attempts : Attempts action state items latest) :
    items.length ≤ state.remainingLength := by
  induction attempts with
  | nil state => exact Nat.zero_le _
  | cons _ shorter _ ih => exact Nat.succ_le_of_lt (Nat.lt_of_le_of_lt ih shorter)

/-- Attempts that come to a failure are the only ones that do. -/
theorem Attempts.unique (attempts : Attempts action state items latest) {failure other : Failure}
    {after otherAfter : State} (fails : action latest.save = .failed failure after)
    (otherAttempts : Attempts action state others last)
    (otherFails : action last.save = .failed other otherAfter) : others = items ∧ last = latest := by
  induction attempts generalizing others with
  | nil state =>
      cases otherAttempts with
      | nil => exact ⟨rfl, rfl⟩
      | cons ran =>
          rw [fails] at ran
          cases ran
  | cons ran _ _ ih =>
      cases otherAttempts with
      | nil =>
          rw [ran] at otherFails
          cases otherFails
      | cons otherRan _ otherLater =>
          rw [ran] at otherRan
          cases otherRan
          rcases ih fails otherLater with ⟨rfl, rfl⟩
          exact ⟨rfl, rfl⟩

theorem Exhausts.unique {first second : Action (List α)} (exhausts : Exhausts action first)
    (other : Exhausts action second) : second = first := by
  funext state
  rcases exhausts state with ⟨items, latest, failure, after, attempts, fails, -, ends⟩
  rcases other state with ⟨others, last, otherFailure, otherAfter, otherAttempts, otherFails, -,
    otherEnds⟩
  rcases attempts.unique fails otherAttempts otherFails with ⟨rfl, rfl⟩
  rw [fails] at otherFails
  cases otherFails
  rw [ends, otherEnds]

/-- A repetition of what takes bytes makes attempts until one fails. -/
theorem exhausts_many (takesBytes : action.TakesBytes) : Exhausts action (many action) := by
  intro state
  suffices attempted : ∃ items latest failure after, Attempts action state items latest ∧
      action latest.save = .failed failure after ∧
        collect action state = (items, after.restore.dropCheckpoint) by
    rcases attempted with ⟨items, latest, failure, after, attempts, fails, collected⟩
    refine ⟨items, latest, failure, after, attempts, fails, Nat.succ_le_succ attempts.length_le, ?_⟩
    simp only [many, collected]
  induction length : state.remainingLength using Nat.strong_induction_on generalizing state with
  | _ count ih =>
      rw [collect]
      cases attempt : action state.save with
      | failed failure after => exact ⟨[], state, failure, after, .nil state, attempt, rfl⟩
      | done item after =>
          have shorter : after.remainingLength < state.save.remainingLength := takesBytes attempt
          change after.dropCheckpoint.remainingLength < state.remainingLength at shorter
          rcases ih _ (length ▸ shorter) after.dropCheckpoint rfl with
            ⟨items, latest, failure, last, attempts, fails, collected⟩
          simp only [if_pos shorter, collected]
          exact ⟨item :: items, latest, failure, last, .cons attempt shorter attempts, fails, rfl⟩

end Action

/-! ### Rules without exits -/

namespace Rule

/--
Whether an action runs a rule without the exits for items that take no bytes: a repetition ends with
an item that fails, after as many attempts as there may be.
-/
inductive Runs : {α : Type} → Rule α → Action α → Prop where
  | pure {α : Type} (value : α) : Runs (.pure value) (Action.succeed value)
  | bind {α β : Type} {first : Rule α} {next : α → Rule β} {action : Action α}
      {continuation : α → Action β} (ofFirst : Runs first action)
      (ofNext : ∀ value, Runs (next value) (continuation value)) :
      Runs (.bind first next) (Action.andThen action continuation)
  | token {α : Type} (terminal : Token α) : Runs (.token terminal) (Action.take terminal)
  | separator : Runs .separator Action.separator
  | choice {α : Type} {count : Nat} (expected : String) {alternatives : Fin count → Rule α}
      {actions : Fin count → Action α}
      (each : ∀ index, Runs (alternatives index) (actions index)) :
      Runs (.choice expected alternatives) (Action.choice expected (List.ofFn actions))
  | optional {α : Type} {rule : Rule α} {action : Action α} (ofRule : Runs rule action) :
      Runs (.optional rule) (Action.optional action)
  | many {α : Type} {rule : Rule α} {item : Action α} {all : Action (List α)}
      (ofItem : Runs rule item) (exhausts : Action.Exhausts item all) : Runs (.many rule) all
  | nested {α : Type} {rule : Rule α} {action : Action α} (ofRule : Runs rule action) :
      Runs (.nested rule) (Action.nested action)
  | refuseNesting {α : Type} : Runs (.refuseNesting : Rule α) Action.refuseNesting

theorem runs_run {rule : Rule α} (wellFormed : rule.WellFormed) : rule.Runs rule.run := by
  induction rule with
  | pure value => exact .pure value
  | bind first next ihFirst ihNext =>
      exact .bind (ihFirst wellFormed.1) fun value => ihNext value (wellFormed.2 value)
  | token terminal => exact .token terminal
  | separator => exact .separator
  | choice expected alternatives ih =>
      exact .choice expected fun index => ih index (wellFormed index)
  | optional rule ih => exact .optional (ih wellFormed)
  | many rule ih =>
      have takesBytes := takesBytes_run wellFormed.1 wellFormed.2
      exact .many (ih wellFormed.1) (Action.exhausts_many takesBytes)
  | nested rule ih => exact .nested (ih wellFormed)
  | refuseNesting => exact .refuseNesting

theorem Runs.eq_run {rule : Rule α} {action : Action α} (runs : rule.Runs action)
    (wellFormed : rule.WellFormed) : action = rule.run := by
  induction runs with
  | pure value => rfl
  | bind _ _ ihFirst ihNext =>
      obtain rfl := ihFirst wellFormed.1
      obtain rfl := funext fun value => ihNext value (wellFormed.2 value)
      rfl
  | token terminal => rfl
  | separator => rfl
  | choice expected _ ih =>
      obtain rfl := funext fun index => ih index (wellFormed index)
      rfl
  | optional _ ih =>
      obtain rfl := ih wellFormed
      rfl
  | many _ exhausts ih =>
      obtain rfl := ih wellFormed.1
      have takesBytes := takesBytes_run wellFormed.1 wellFormed.2
      exact (Action.exhausts_many takesBytes).unique exhausts
  | nested _ ih =>
      obtain rfl := ih wellFormed
      rfl
  | refuseNesting => rfl

/-- Without the exits a rule has the same run, and no other one. -/
theorem runs_iff {rule : Rule α} (wellFormed : rule.WellFormed) {action : Action α} :
    rule.Runs action ↔ action = rule.run := by
  constructor
  · intro runs
    exact runs.eq_run wellFormed
  · rintro rfl
    exact runs_run wellFormed

end Rule

/-! ### Documents without exits -/

namespace Reading

/--
The reading of declarations with an action in a number of rounds. It ends at the end of the source or
with a declaration that fails, but not with one that takes no bytes.
-/
inductive Loops (action : Action Declaration) : State → Reading → Nat → Prop where
  | atEnd {state : State} (atEnd : state.cursor.atEnd) : Loops action state ⟨[], none⟩ 0
  | failed {state after : State} {returned : Failure} (notAtEnd : ¬state.cursor.atEnd)
      (ran : action (prepare state) = .failed returned after) :
      Loops action state
        ⟨[], some (ParseError.ofFailure after.cursor.source (blame after returned))⟩ 1
  | done {state after : State} {declaration : Declaration} {rest : Reading} {rounds : Nat}
      (notAtEnd : ¬state.cursor.atEnd) (ran : action (prepare state) = .done declaration after)
      (others : Loops action after rest rounds) :
      Loops action state
        ⟨(declaration, after.cursor.offset) :: rest.declarations, rest.error⟩ (rounds + 1)

variable {rule : Rule Declaration} {state : State} {reading : Reading}

theorem loops_ofState (takesBytes : rule.run.TakesBytes) :
    ∃ rounds ≤ state.remainingLength + 1, Loops rule.run state (ofState rule state) rounds := by
  fun_induction ofState rule state with
  | case1 state atEnd => exact ⟨0, Nat.zero_le _, .atEnd atEnd⟩
  | case2 state notAtEnd returned after ran =>
      exact ⟨1, Nat.succ_le_succ (Nat.zero_le _), .failed notAtEnd ran⟩
  | case3 state notAtEnd declaration after ran shorter rest ih =>
      rcases ih with ⟨rounds, le, loops⟩
      exact ⟨rounds + 1, by omega, .done notAtEnd ran loops⟩
  | case4 state notAtEnd declaration after ran notShorter =>
      exact absurd (takesBytes ran) notShorter

theorem Loops.eq_ofState (takesBytes : rule.run.TakesBytes) {rounds : Nat}
    (loops : Loops rule.run state reading rounds) : reading = ofState rule state := by
  induction loops with
  | atEnd atEnd => rw [ofState, if_pos atEnd]
  | failed notAtEnd ran => rw [ofState, if_neg notAtEnd, ran]
  | @done state after declaration rest rounds notAtEnd ran _ ih =>
      have shorter : after.remainingLength < (prepare state).remainingLength := takesBytes ran
      change after.remainingLength < state.remainingLength at shorter
      rw [ofState, if_neg notAtEnd, ran]
      simp only [if_pos shorter, ih]

end Reading

namespace Grammar

open Rule

/--
Every success makes progress, so every loop ends. Declarations, fields, enum items, functions,
values, types, entries of maps, items of lists and segments of names all take bytes, and lead to a
place in the source in front of which no gap is. Without the exits for items that take no bytes,
declarations have one run, their own, and so do sources: in at most one round more than bytes remain,
they are read as they are read with the exits.
-/
theorem makes_progress :
    (∀ room, (declaration room).run.Advances ∧ (field room).run.Advances ∧ enumItem.run.Advances ∧
      (function room).run.Advances ∧ (value room).run.Advances ∧ (fieldType room).run.Advances ∧
      (separated (entryOf (value room))).run.Advances ∧ (separated (value room)).run.Advances ∧
      segment.run.Advances) ∧
    (∀ room action, (declaration room).Runs action ↔ action = (declaration room).run) ∧
    ∀ (room : Nat) (state : State) (reading : Reading),
      (∃ rounds ≤ (state.mapCursor Cursor.skipGap).remainingLength + 1,
        Reading.Loops (declaration room).run (state.mapCursor Cursor.skipGap) reading rounds) ↔
          reading = Reading.ofStateWithin room state := by
  refine ⟨fun room => ⟨?_, ?_, ?_, ?_, ?_, ?_, ?_, ?_, ?_⟩, ?_, ?_⟩
  · exact advances_run (wellFormed_declaration room) (not_nullable_declaration room)
  · exact advances_run (wellFormed_field room) (not_nullable_field room)
  · exact advances_run wellFormed_enumItem not_nullable_enumItem
  · exact advances_run (wellFormed_function room) (not_nullable_function room)
  · exact advances_run (wellFormed_value room) (not_nullable_value room)
  · exact advances_run (wellFormed_fieldType room) (not_nullable_fieldType room)
  · exact advances_run (wellFormed_separated.2 (wellFormed_entryOf room))
      (not_nullable_separated (not_nullable_entryOf room))
  · exact advances_run (wellFormed_separated.2 (wellFormed_value room))
      (not_nullable_separated (not_nullable_value room))
  · exact advances_run wellFormed_segment not_nullable_segment
  · intro room action
    exact runs_iff (wellFormed_declaration room)
  · intro room state reading
    have takesBytes := takesBytes_run (wellFormed_declaration room) (not_nullable_declaration room)
    constructor
    · rintro ⟨rounds, -, loops⟩
      exact loops.eq_ofState takesBytes
    · rintro rfl
      exact Reading.loops_ofState takesBytes

/-- Behind an enumeration and its separator, a comment and a line ending are passed over, too. -/
theorem makes_progress_enumeration :
    let start := State.startAt (Utf8.encode "enum E \x7bA, B\x7d; // C\nconst") 0
    start.cursor.mark.Anchored start.cursor.source 0 ∧
      ∃ enumeration after, (declaration maxNesting).run start = .done enumeration after ∧
        start.cursor.offset < after.cursor.offset ∧
        after.cursor.offset ≤ start.cursor.source.length ∧ after.cursor.skipGap = after.cursor := by
  intro start
  have anchored : start.cursor.mark.Anchored start.cursor.source 0 :=
    ⟨Nat.zero_le _, Nat.zero_le _, rfl⟩
  have isDone : ((declaration maxNesting).run start).result.isOk = true := by decide +kernel
  refine ⟨anchored, ?_⟩
  cases ran : (declaration maxNesting).run start with
  | done enumeration after =>
      exact ⟨enumeration, after, rfl, (makes_progress.1 maxNesting).1 anchored ran⟩
  | failed failure after =>
      rw [ran] at isDone
      cases isDone

end Grammar

end ThriftIdl
