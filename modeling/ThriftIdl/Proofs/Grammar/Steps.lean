import Mathlib
import ThriftIdl.Grammar.Rule

/-!
# Runs as steps

However a rule is built, its run is a sequence of a few kinds of steps: a token is taken or missed, a
separator is taken, a place is saved, gone back to or forgotten, a level is opened or closed, a
choice comes to the end of its alternatives, and nesting is refused. What each of these steps keeps
is kept by every run.
-/

namespace ThriftIdl

/-- One step of a run. -/
inductive State.Step : State → State → Prop where
  | found {α : Type} {state : State} {token : Token α} {value : α} {length : Nat}
      (recognized : token.recognize state.cursor.remaining = .found value length) :
      Step state (state.mapCursor fun cursor => (cursor.bump length).skipGap)
  | missing {α : Type} {state : State} {token : Token α} {kind : FailureKind}
      {expected : Expected} {understood : Nat}
      (recognized : token.recognize state.cursor.remaining = .missing kind expected understood) :
      Step state ((state.mapCursor (Cursor.bump · understood)).mapCursor
        (Cursor.fail · kind expected))
  | separator {state : State} (isThere : state.cursor.peek.any Byte.isSeparator = true) :
      Step state (state.mapCursor fun cursor => (cursor.bump 1).skipGap)
  | save (state : State) : Step state state.save
  | restore (state : State) : Step state state.restore
  | dropCheckpoint (state : State) : Step state state.dropCheckpoint
  | enter (state : State) : Step state state.enter
  | leave (state : State) : Step state state.leave
  | exhausted (state : State) (expected : String) :
      Step state (state.mapCursor (Cursor.fail · .grammar (.description expected)))
  | refused (state : State) : Step state (Action.refuseNesting state : Outcome Unit).state

/-- Some steps, one after the other. -/
abbrev State.Steps : State → State → Prop := Relation.ReflTransGen State.Step

variable {α : Type}

namespace Action

/-- Whether an action is made of steps. -/
def Stepwise (action : Action α) : Prop := ∀ state : State, state.Steps (action state).state

theorem Stepwise.of_done {action : Action α} (stepwise : Stepwise action) {state after : State}
    {value : α} (ran : action state = .done value after) : state.Steps after := by
  have steps := stepwise state
  rwa [ran] at steps

theorem Stepwise.of_failed {action : Action α} (stepwise : Stepwise action) {state after : State}
    {failure : Failure} (ran : action state = .failed failure after) : state.Steps after := by
  have steps := stepwise state
  rwa [ran] at steps

theorem stepwise_take (token : Token α) : Stepwise (take token) := by
  intro state
  unfold take
  cases recognized : token.recognize state.cursor.remaining with
  | found value length => exact .single (.found recognized)
  | missing kind expected understood => exact .single (.missing recognized)

theorem stepwise_firstOf (expected : String) {alternatives : List (Action α)}
    (stepwise : ∀ alternative ∈ alternatives, Stepwise alternative) :
    Stepwise (firstOf expected alternatives) := by
  induction alternatives with
  | nil =>
      intro state
      exact .tail (.single (.dropCheckpoint state)) (.exhausted _ expected)
  | cons alternative others ih =>
      intro state
      have stepwiseFirst : Stepwise alternative := stepwise alternative (by simp)
      have stepwiseOthers : Stepwise (firstOf expected others) :=
        ih fun other mem => stepwise other (by simp [mem])
      simp only [firstOf]
      cases ran : alternative state with
      | done value after => exact .tail (stepwiseFirst.of_done ran) (.dropCheckpoint after)
      | failed failure after =>
          have steps := Relation.ReflTransGen.tail (stepwiseFirst.of_failed ran) (.restore after)
          exact steps.trans (stepwiseOthers after.restore)

theorem stepwise_optional {action : Action α} (stepwise : Stepwise action) :
    Stepwise (optional action) := by
  intro state
  unfold optional
  cases ran : action state.save with
  | done value after =>
      exact .tail (.head (.save state) (stepwise.of_done ran)) (.dropCheckpoint after)
  | failed failure after =>
      have steps := Relation.ReflTransGen.head (.save state) (stepwise.of_failed ran)
      exact .tail (.tail steps (.restore after)) (.dropCheckpoint after.restore)

theorem steps_collect {action : Action α} (stepwise : Stepwise action) (state : State) :
    state.Steps (collect action state).2 := by
  induction length : state.remainingLength using Nat.strong_induction_on generalizing state with
  | _ count ih =>
      rw [collect]
      cases ran : action state.save with
      | failed failure after =>
          have steps := Relation.ReflTransGen.head (.save state) (stepwise.of_failed ran)
          exact .tail (.tail steps (.restore after)) (.dropCheckpoint after.restore)
      | done item after =>
          have steps : state.Steps after.dropCheckpoint :=
            .tail (.head (.save state) (stepwise.of_done ran)) (.dropCheckpoint after)
          by_cases shorter : after.dropCheckpoint.remainingLength < state.remainingLength
          · simp only [if_pos shorter]
            exact steps.trans (ih _ (length ▸ shorter) after.dropCheckpoint rfl)
          · simp only [if_neg shorter]
            exact steps

end Action

/-- Every run is a sequence of steps. -/
theorem Rule.stepwise_run (rule : Rule α) : Action.Stepwise rule.run := by
  induction rule with
  | pure value => exact fun state => .refl
  | bind first next ihFirst ihNext =>
      intro state
      simp only [run, Action.andThen]
      cases ran : first.run state with
      | done value after => exact (ihFirst.of_done ran).trans (ihNext value after)
      | failed failure after => exact ihFirst.of_failed ran
  | token terminal => exact Action.stepwise_take terminal
  | separator =>
      intro state
      simp only [run, Action.separator]
      split_ifs with isThere
      · exact .single (.separator isThere)
      · exact .refl
  | choice expected alternatives ih =>
      intro state
      apply Relation.ReflTransGen.head (.save state)
      apply Action.stepwise_firstOf expected
      intro alternative mem
      rcases List.mem_ofFn.1 mem with ⟨index, rfl⟩
      exact ih index
  | optional rule ih => exact Action.stepwise_optional ih
  | many rule ih => exact Action.steps_collect ih
  | nested rule ih =>
      intro state
      simp only [run, Action.nested]
      cases ran : rule.run state.enter with
      | done value after => exact .tail (.head (.enter state) (ih.of_done ran)) (.leave after)
      | failed failure after => exact .tail (.head (.enter state) (ih.of_failed ran)) (.leave after)
  | refuseNesting => exact fun state => .single (.refused state)

/-! ### The furthest failure -/

/-- Whether a failure is remembered that lies at an offset or further on. -/
def State.Reached (offset : Nat) (state : State) : Prop :=
  ∃ failure ∈ state.cursor.furthest, offset ≤ failure.position.offset

/-- A failure is remembered, unless one further on is. -/
theorem State.reached_fail (state : State) (kind : FailureKind) (expected : Expected) :
    (state.mapCursor (Cursor.fail · kind expected)).Reached state.cursor.offset := by
  obtain ⟨kept, mem, far, -⟩ := Cursor.exists_mem_keepFurthest state.cursor.furthest
    (state.cursor.failure kind expected)
  exact ⟨kept, mem, far⟩

/-- A failure that is remembered gives way only to one as far. -/
theorem State.Reached.fail {state : State} {offset : Nat} (reached : state.Reached offset)
    (kind : FailureKind) (expected : Expected) :
    (state.mapCursor (Cursor.fail · kind expected)).Reached offset := by
  rcases reached with ⟨earlier, known, far⟩
  obtain ⟨kept, mem, -, notNearer⟩ := Cursor.exists_mem_keepFurthest state.cursor.furthest
    (state.cursor.failure kind expected)
  exact ⟨kept, mem, far.trans (notNearer earlier known)⟩

theorem State.Step.reached {state next : State} (step : state.Step next) {offset : Nat}
    (reached : state.Reached offset) : next.Reached offset := by
  cases step with
  | @missing _ _ _ kind expected understood _ =>
      have moved : (state.mapCursor (Cursor.bump · understood)).Reached offset := reached
      exact moved.fail kind expected
  | exhausted expected => exact reached.fail _ _
  | refused => exact State.Reached.fail reached .lexical .shallowerNesting
  | _ => exact reached

theorem State.Steps.reached {state later : State} (steps : state.Steps later) {offset : Nat}
    (reached : state.Reached offset) : later.Reached offset := by
  induction steps with
  | refl => exact reached
  | tail _ step ih => exact step.reached ih

end ThriftIdl
