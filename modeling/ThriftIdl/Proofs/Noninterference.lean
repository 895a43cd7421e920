import ThriftIdl.Proofs.Backtracking

/-!
# What is remembered does not matter

While rules are tried, a state remembers places to come back to, the failure that reached furthest
and the first refusal of nesting. The first of these is a stack that other rules have filled, and
the other two are there for messages. None of them has a say in what a rule reads, in how it fails
or in where it ends: two runs from one place of one source go alike, whatever was remembered there.

A step of a run alone does not show this, since going back looks at the stack. But an attempt goes
back only to the place that was saved for it, and this is the same place in both runs. The lemmas
about combinators are about two actions that go alike, one in each run, so that they also serve
where one action takes the place of another.
-/

namespace ThriftIdl

variable {α β : Type}

/--
Whether two states are at one place of one source with as many open levels. What they remember may
differ.
-/
structure State.SamePlace (first second : State) : Prop where
  source : first.cursor.source = second.cursor.source
  mark : first.cursor.mark = second.cursor.mark
  depth : first.depth = second.depth

/-- Whether two actions ended with one value or one failure at the same place. -/
inductive Outcome.SameEnd : Outcome α → Outcome α → Prop where
  | done (value : α) {first second : State} (place : first.SamePlace second) :
      SameEnd (.done value first) (.done value second)
  | failed (failure : Failure) {first second : State} (place : first.SamePlace second) :
      SameEnd (.failed failure first) (.failed failure second)

theorem Outcome.SameEnd.result {first second : Outcome α} (same : first.SameEnd second) :
    first.result = second.result := by
  cases same with
  | done => rfl
  | failed => rfl

theorem Outcome.SameEnd.place {first second : Outcome α} (same : first.SameEnd second) :
    first.state.SamePlace second.state := by
  cases same with
  | done _ place => exact place
  | failed _ place => exact place

namespace State.SamePlace

variable {first second third : State}

theorem symm (same : first.SamePlace second) : second.SamePlace first :=
  ⟨same.source.symm, same.mark.symm, same.depth.symm⟩

theorem trans (same : first.SamePlace second) (others : second.SamePlace third) :
    first.SamePlace third :=
  ⟨same.source.trans others.source, same.mark.trans others.mark, same.depth.trans others.depth⟩

theorem remaining (same : first.SamePlace second) :
    first.cursor.remaining = second.cursor.remaining :=
  congrArg Mark.remaining same.mark

theorem remainingLength (same : first.SamePlace second) :
    first.remainingLength = second.remainingLength :=
  congrArg List.length same.remaining

theorem peek (same : first.SamePlace second) : first.cursor.peek = second.cursor.peek :=
  congrArg (fun mark : Mark => mark.remaining[0]?) same.mark

theorem failure (same : first.SamePlace second) (kind : FailureKind) (expected : Expected) :
    first.cursor.failure kind expected = second.cursor.failure kind expected :=
  congrArg (fun mark : Mark => (⟨kind, expected, mark.position⟩ : Failure)) same.mark

theorem save (same : first.SamePlace second) : first.save.SamePlace second.save :=
  ⟨same.source, same.mark, same.depth⟩

theorem dropCheckpoint (same : first.SamePlace second) :
    first.dropCheckpoint.SamePlace second.dropCheckpoint :=
  ⟨same.source, same.mark, same.depth⟩

theorem enter (same : first.SamePlace second) : first.enter.SamePlace second.enter :=
  ⟨same.source, same.mark, congrArg (· + 1) same.depth⟩

theorem leave (same : first.SamePlace second) : first.leave.SamePlace second.leave :=
  ⟨same.source, same.mark, congrArg (· - 1) same.depth⟩

theorem bump (same : first.SamePlace second) (count : Nat) :
    (first.mapCursor (Cursor.bump · count)).SamePlace (second.mapCursor (Cursor.bump · count)) :=
  ⟨same.source, congrArg (Mark.bump · count) same.mark, same.depth⟩

theorem skipGap (same : first.SamePlace second) :
    (first.mapCursor Cursor.skipGap).SamePlace (second.mapCursor Cursor.skipGap) :=
  ⟨same.source, congrArg Mark.skipGap same.mark, same.depth⟩

/-- Two attempts that began at one place come back to it, each by its own stack. -/
theorem restore (same : first.SamePlace second) {place : Mark} {firstPlaces secondPlaces : List Mark}
    (firstStack : first.cursor.checkpoints = place :: firstPlaces)
    (secondStack : second.cursor.checkpoints = place :: secondPlaces) :
    first.restore.SamePlace second.restore :=
  ⟨same.source, (first.mark_restore firstStack).trans (second.mark_restore secondStack).symm,
    same.depth⟩

end State.SamePlace

namespace Action

/-- Whether two actions go alike from one place, whatever is remembered there. -/
def Interchangeable (first second : Action α) : Prop :=
  ∀ ⦃one other : State⦄, one.SamePlace other → (first one).SameEnd (second other)

/-- Whether an action goes alike from one place, whatever is remembered there. -/
def Forgetful (action : Action α) : Prop :=
  ∀ {first second : State}, first.SamePlace second → (action first).SameEnd (action second)

theorem forgetful_fail (kind : FailureKind) (expected : Expected) :
    Forgetful (fail kind expected : Action α) := by
  intro first second same
  unfold fail
  rw [same.failure]
  exact .failed _ ⟨same.source, same.mark, same.depth⟩

theorem forgetful_take (token : Token α) : Forgetful (take token) := by
  intro first second same
  unfold take
  rw [same.remaining]
  cases token.recognize second.cursor.remaining with
  | found value length => exact .done value (same.bump length).skipGap
  | missing kind expected understood => exact forgetful_fail kind expected (same.bump understood)

theorem forgetful_separator : Forgetful separator := by
  intro first second same
  unfold separator
  rw [same.peek]
  split_ifs
  · exact .done true (same.bump 1).skipGap
  · exact .done false same

theorem forgetful_refuseNesting : Forgetful (refuseNesting : Action α) := by
  intro first second same
  apply forgetful_fail
  exact ⟨same.source, same.mark, same.depth⟩

theorem Interchangeable.nested {first second : Action α} (alike : Interchangeable first second) :
    Interchangeable (nested first) (nested second) := by
  intro one other same
  have attempt := alike same.enter
  unfold Action.nested
  generalize first one.enter = firstOutcome at attempt ⊢
  generalize second other.enter = secondOutcome at attempt ⊢
  cases attempt with
  | done value place => exact .done value place.leave
  | failed failure place => exact .failed failure place.leave

theorem Interchangeable.andThen {first second : Action α} {next otherNext : α → Action β}
    (alike : Interchangeable first second)
    (alikeNext : ∀ value, Interchangeable (next value) (otherNext value)) :
    Interchangeable (andThen first next) (andThen second otherNext) := by
  intro one other same
  have attempt := alike same
  unfold Action.andThen
  generalize first one = firstOutcome at attempt ⊢
  generalize second other = secondOutcome at attempt ⊢
  cases attempt with
  | done value place => exact alikeNext value place
  | failed failure place => exact .failed failure place

/-! ### Choices -/

/--
Whether alternatives are tried in two states at one place in front of some bytes. This place is on
top of both stacks, whatever lies below it.
-/
structure Trying (bytes : List UInt8) (one other : State) : Prop where
  same : one.SamePlace other
  remaining : other.cursor.remaining = bytes
  stack : ∃ places, one.cursor.checkpoints = other.cursor.mark :: places
  otherStack : ∃ places, other.cursor.checkpoints = other.cursor.mark :: places

namespace Trying

variable {bytes : List UInt8} {one other after last : State}

theorem of_save (same : one.SamePlace other) :
    Trying other.cursor.remaining one.save other.save :=
  ⟨same.save, rfl, ⟨_, congrArg (· :: one.cursor.checkpoints) same.mark⟩, ⟨_, rfl⟩⟩

/-- After a failed attempt in both states, the next alternatives are tried from the same place. -/
theorem restore {first second : Action α} (trying : Trying bytes one other)
    (keeps : KeepsPlaces first) (keepsOther : KeepsPlaces second) {failure otherFailure : Failure}
    (ran : first one = .failed failure after) (otherRan : second other = .failed otherFailure last)
    (place : after.SamePlace last) : Trying bytes after.restore last.restore := by
  rcases trying with ⟨same, remaining, ⟨places, stack⟩, ⟨otherPlaces, otherStack⟩⟩
  have stackAfter := (keeps.of_failed ran).trans stack
  have otherStackAfter := (keepsOther.of_failed otherRan).trans otherStack
  have mark := last.mark_restore otherStackAfter
  refine ⟨place.restore stackAfter otherStackAfter, ?_, ⟨places, ?_⟩, ⟨otherPlaces, ?_⟩⟩
  · rw [← remaining]
    exact congrArg Mark.remaining mark
  · rw [mark]
    exact stackAfter
  · rw [mark]
    exact otherStackAfter

end Trying

/-- Whether two lists of alternatives end alike where they are tried in front of some bytes. -/
def SameTrials (expected : String) (bytes : List UInt8) (first second : List (Action α)) : Prop :=
  ∀ ⦃one other : State⦄, Trying bytes one other →
    (firstOf expected first one).SameEnd (firstOf expected second other)

variable {expected : String} {bytes : List UInt8}

theorem sameTrials_nil : SameTrials expected bytes ([] : List (Action α)) [] :=
  fun _ _ trying => forgetful_fail _ _ trying.same.dropCheckpoint

/-- The later alternatives matter only where the first one fails. -/
theorem SameTrials.cons {first second : Action α} {others otherOthers : List (Action α)}
    (alike : Interchangeable first second) (keeps : KeepsPlaces first)
    (keepsOther : KeepsPlaces second)
    (later : ∀ state failure after, state.cursor.remaining = bytes →
      second state = .failed failure after → SameTrials expected bytes others otherOthers) :
    SameTrials expected bytes (first :: others) (second :: otherOthers) := by
  intro one other trying
  have attempt := alike trying.same
  unfold firstOf
  cases ran : first one with
  | done value after =>
      rw [ran] at attempt
      generalize second other = outcome at attempt ⊢
      cases attempt with
      | done _ place => exact .done value place.dropCheckpoint
  | failed failure after =>
      cases otherRan : second other with
      | done value last =>
          rw [ran, otherRan] at attempt
          cases attempt
      | failed otherFailure last =>
          rw [ran, otherRan] at attempt
          exact later other otherFailure last trying.remaining otherRan
            (trying.restore keeps keepsOther ran otherRan attempt.place)

theorem SameTrials.choice {first second : List (Action α)}
    (trials : ∀ bytes, SameTrials expected bytes first second) :
    Interchangeable (choice expected first) (choice expected second) :=
  fun _ _ same => trials _ (.of_save same)

theorem sameTrials_of_forgetful {alternatives : List (Action α)}
    (forgetful : ∀ alternative ∈ alternatives, Forgetful alternative)
    (keep : ∀ alternative ∈ alternatives, KeepsPlaces alternative) :
    SameTrials expected bytes alternatives alternatives := by
  induction alternatives with
  | nil => exact sameTrials_nil
  | cons alternative others ih =>
      have alike : Interchangeable alternative alternative :=
        fun _ _ => forgetful alternative (by simp)
      have keeps := keep alternative (by simp)
      refine .cons alike keeps keeps fun _ _ _ _ _ => ih ?_ ?_
      · intro other mem
        exact forgetful other (by simp [mem])
      · intro other mem
        exact keep other (by simp [mem])

theorem forgetful_choice (expected : String) {alternatives : List (Action α)}
    (forgetful : ∀ alternative ∈ alternatives, Forgetful alternative)
    (keep : ∀ alternative ∈ alternatives, KeepsPlaces alternative) :
    Forgetful (choice expected alternatives) := by
  have alike : Interchangeable (choice expected alternatives) (choice expected alternatives) :=
    SameTrials.choice fun _ => sameTrials_of_forgetful forgetful keep
  exact alike

/-! ### Options and repetitions -/

/-- A failed attempt leads both runs back to the place where they began it. -/
theorem samePlace_restore {first second : Action α} (keeps : KeepsPlaces first)
    (keepsOther : KeepsPlaces second) {one other after last : State} (same : one.SamePlace other)
    {failure otherFailure : Failure} (ran : first one.save = .failed failure after)
    (otherRan : second other.save = .failed otherFailure last) (place : after.SamePlace last) :
    after.restore.dropCheckpoint.SamePlace last.restore.dropCheckpoint :=
  ((Trying.of_save same).restore keeps keepsOther ran otherRan place).same.dropCheckpoint

theorem forgetful_optional {action : Action α} (forgetful : Forgetful action)
    (keeps : KeepsPlaces action) : Forgetful (optional action) := by
  intro first second same
  have attempt := forgetful same.save
  unfold optional
  cases firstRan : action first.save with
  | done value firstAfter =>
      rw [firstRan] at attempt
      generalize action second.save = secondOutcome at attempt ⊢
      cases attempt with
      | done _ place => exact .done (some value) place.dropCheckpoint
  | failed failure firstAfter =>
      cases secondRan : action second.save with
      | done value secondAfter =>
          rw [firstRan, secondRan] at attempt
          cases attempt
      | failed _ secondAfter =>
          rw [firstRan, secondRan] at attempt
          have place := samePlace_restore keeps keeps same firstRan secondRan attempt.place
          exact .done none place

theorem samePlace_collect {first second : Action α} (alike : Interchangeable first second)
    (keeps : KeepsPlaces first) (keepsOther : KeepsPlaces second) {one other : State}
    (same : one.SamePlace other) :
    (collect first one).1 = (collect second other).1 ∧
      (collect first one).2.SamePlace (collect second other).2 := by
  induction length : other.remainingLength using Nat.strong_induction_on generalizing one other with
  | _ count ih =>
      have attempt := alike same.save
      rw [collect.eq_def first one, collect.eq_def second other, same.remainingLength]
      cases ran : first one.save with
      | failed failure after =>
          cases otherRan : second other.save with
          | done value last =>
              rw [ran, otherRan] at attempt
              cases attempt
          | failed _ last =>
              rw [ran, otherRan] at attempt
              exact ⟨rfl, samePlace_restore keeps keepsOther same ran otherRan attempt.place⟩
      | done item after =>
          rw [ran] at attempt
          generalize second other.save = outcome at attempt ⊢
          cases attempt with
          | @done _ _ last place =>
              have next := place.dropCheckpoint
              simp only [next.remainingLength]
              by_cases shorter : last.dropCheckpoint.remainingLength < other.remainingLength
              · rcases ih _ (length ▸ shorter) next rfl with ⟨sameItems, sameLast⟩
                simp only [if_pos shorter]
                exact ⟨congrArg (item :: ·) sameItems, sameLast⟩
              · simp only [if_neg shorter]
                exact ⟨trivial, next⟩

theorem Interchangeable.many {first second : Action α} (alike : Interchangeable first second)
    (keeps : KeepsPlaces first) (keepsOther : KeepsPlaces second) :
    Interchangeable (many first) (many second) := by
  intro one other same
  rcases samePlace_collect alike keeps keepsOther same with ⟨sameItems, sameLast⟩
  simp only [Action.many, sameItems]
  exact .done _ sameLast

end Action

namespace Rule

theorem forgetful_run (rule : Rule α) : Action.Forgetful rule.run := by
  induction rule with
  | pure value => exact fun same => .done value same
  | bind first next ihFirst ihNext =>
      have alike : Action.Interchangeable first.run first.run := fun _ _ => ihFirst
      exact alike.andThen fun value _ _ => ihNext value
  | token terminal => exact Action.forgetful_take terminal
  | separator => exact Action.forgetful_separator
  | choice expected alternatives ih =>
      apply Action.forgetful_choice expected
      · intro alternative mem
        rcases List.mem_ofFn.1 mem with ⟨index, rfl⟩
        exact ih index
      · intro alternative mem
        rcases List.mem_ofFn.1 mem with ⟨index, rfl⟩
        exact (alternatives index).run_keepsPlaces
  | optional rule ih => exact Action.forgetful_optional ih rule.run_keepsPlaces
  | many rule ih =>
      have alike : Action.Interchangeable rule.run rule.run := fun _ _ => ih
      exact alike.many rule.run_keepsPlaces rule.run_keepsPlaces
  | nested rule ih =>
      have alike : Action.Interchangeable rule.run rule.run := fun _ _ => ih
      exact alike.nested
  | refuseNesting => exact Action.forgetful_refuseNesting

/--
From one place of one source and with as many open levels, a rule returns the same value or the same
failure and ends at the same place, whatever places and failures are remembered.
-/
theorem run_noninterference (rule : Rule α) {first second : State}
    (same : first.SamePlace second) :
    (rule.run first).result = (rule.run second).result ∧
      (rule.run first).state.SamePlace (rule.run second).state :=
  ⟨(rule.forgetful_run same).result, (rule.forgetful_run same).place⟩

/-- A type that is missing is missed alike in a fresh state and in one that remembers a refusal. -/
theorem run_noninterference_type :
    let fresh := State.startAt [0x3C] 0
    let used : State :=
      { fresh.save.save with tooDeep := some (fresh.cursor.failure .lexical .shallowerNesting) }
    fresh.SamePlace used ∧ fresh ≠ used ∧
      ((Grammar.fieldType 1).run fresh).result = ((Grammar.fieldType 1).run used).result := by
  intro fresh used
  have same : fresh.SamePlace used := ⟨rfl, rfl, rfl⟩
  exact ⟨same, by decide, (run_noninterference (Grammar.fieldType 1) same).1⟩

end Rule

end ThriftIdl
