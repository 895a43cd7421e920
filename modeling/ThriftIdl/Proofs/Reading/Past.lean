import ThriftIdl.Proofs.Backtracking

/-!
# What was remembered before

Saved places, the furthest failure and the first refusal of nesting may be remembered from before a
rule is tried. The rule then goes exactly as if nothing were remembered, and what it remembers itself
comes on top of what was there: its places above the others, its failures as far as they reach as
far, and its refusal if it is the first.
-/

namespace ThriftIdl

variable {α β : Type}

/-- What may be remembered from before. -/
structure Past where
  /-- The saved places, the latest first. -/
  places : List Mark
  /-- The failure that reached furthest. -/
  furthest : Option Failure
  /-- The first refusal of nesting. -/
  tooDeep : Option Failure

namespace Cursor

/-- The furthest of the failures from before and of those that came later. -/
def furthestOf (earlier later : Option Failure) : Option Failure :=
  later.elim earlier (keepFurthest earlier)

/-- One more failure is compared with the later ones first. -/
theorem keepFurthest_furthestOf (earlier later : Option Failure) (failure : Failure) :
    keepFurthest (furthestOf earlier later) failure =
      furthestOf earlier (keepFurthest later failure) := by
  cases later with
  | none => rfl
  | some middle =>
      cases earlier <;> grind [furthestOf, keepFurthest]

end Cursor

/-- The state in which that much more is remembered. -/
def State.withPast (past : Past) (state : State) : State :=
  { state with
    cursor := { state.cursor with
      checkpoints := state.cursor.checkpoints ++ past.places
      furthest := Cursor.furthestOf past.furthest state.cursor.furthest }
    tooDeep := past.tooDeep.or state.tooDeep }

/-- Changes the state that an action hands on. -/
def Outcome.mapState (change : State → State) : Outcome α → Outcome α
  | .done value state => .done value (change state)
  | .failed failure state => .failed failure (change state)

variable {past : Past}

namespace State

variable {state : State}

/-- Going back leads to a place of one's own, as long as one was saved. -/
theorem restore_withPast (stack : state.cursor.checkpoints ≠ []) :
    (state.withPast past).restore = state.restore.withPast past := by
  rcases List.exists_cons_of_ne_nil stack with ⟨place, places, isStack⟩
  simp [withPast, restore, mapCursor, Cursor.restore, isStack]

theorem dropCheckpoint_withPast (stack : state.cursor.checkpoints ≠ []) :
    (state.withPast past).dropCheckpoint = state.dropCheckpoint.withPast past := by
  rcases List.exists_cons_of_ne_nil stack with ⟨place, places, isStack⟩
  simp [withPast, dropCheckpoint, mapCursor, Cursor.dropCheckpoint, isStack]

/-- A failed attempt leads back to the place that was saved for it. -/
theorem backtrack_withPast (stack : state.cursor.checkpoints ≠ []) :
    (state.withPast past).restore.dropCheckpoint = state.restore.dropCheckpoint.withPast past := by
  have stackRestored : state.restore.cursor.checkpoints ≠ [] := stack
  rw [restore_withPast stack, dropCheckpoint_withPast stackRestored]

theorem fail_withPast (state : State) (kind : FailureKind) (expected : Expected) :
    (state.withPast past).mapCursor (Cursor.fail · kind expected) =
      (state.mapCursor (Cursor.fail · kind expected)).withPast past := by
  simp only [withPast, mapCursor, Cursor.fail, ← Cursor.keepFurthest_furthestOf]
  rfl

end State

namespace Action

/-- Whether an action goes alike if more is remembered, which it hands on below what it adds. -/
def AddsTo (past : Past) (action : Action α) : Prop :=
  ∀ state, action (state.withPast past) = (action state).mapState (State.withPast past)

theorem addsTo_fail (kind : FailureKind) (expected : Expected) :
    AddsTo past (fail kind expected : Action α) := by
  intro state
  unfold fail
  rw [state.fail_withPast]
  rfl

theorem addsTo_take (token : Token α) : AddsTo past (take token) := by
  intro state
  have remaining : (state.withPast past).cursor.remaining = state.cursor.remaining := rfl
  unfold take
  rw [remaining]
  cases token.recognize state.cursor.remaining with
  | found value length => rfl
  | missing kind expected understood =>
      exact addsTo_fail kind expected (state.mapCursor (Cursor.bump · understood))

theorem addsTo_separator : AddsTo past separator := by
  intro state
  have peek : (state.withPast past).cursor.peek = state.cursor.peek := rfl
  unfold separator
  rw [peek]
  split_ifs
  · rfl
  · rfl

/-- A refusal from before stays the first one. -/
theorem addsTo_refuseNesting : AddsTo past (refuseNesting : Action α) := by
  intro state
  have refused (tooDeep : Option Failure) :=
    @addsTo_fail α past .lexical .shallowerNesting { state with tooDeep := tooDeep }
  unfold refuseNesting
  rw [← refused]
  simp only [State.withPast, Option.or_assoc]
  rfl

theorem addsTo_andThen {action : Action α} {next : α → Action β} (adds : action.AddsTo past)
    (addsNext : ∀ value, (next value).AddsTo past) : (andThen action next).AddsTo past := by
  intro state
  unfold andThen
  rw [adds state]
  cases action state with
  | done value after => exact addsNext value after
  | failed failure after => rfl

theorem addsTo_nested {action : Action α} (adds : action.AddsTo past) :
    (nested action).AddsTo past := by
  intro state
  have entered : (state.withPast past).enter = state.enter.withPast past := rfl
  unfold nested
  rw [entered, adds state.enter]
  cases action state.enter with
  | done value after => rfl
  | failed failure after => rfl

/-- As long as alternatives are tried, the place where they begin lies above those from before. -/
theorem firstOf_withPast (expected : String) {alternatives : List (Action α)}
    (add : ∀ alternative ∈ alternatives, alternative.AddsTo past)
    (keep : ∀ alternative ∈ alternatives, alternative.KeepsPlaces) {state : State}
    (stack : state.cursor.checkpoints ≠ []) :
    firstOf expected alternatives (state.withPast past) =
      (firstOf expected alternatives state).mapState (State.withPast past) := by
  induction alternatives generalizing state with
  | nil =>
      rw [firstOf, State.dropCheckpoint_withPast stack, addsTo_fail]
      rfl
  | cons alternative others ih =>
      have keepsFirst : alternative.KeepsPlaces := keep alternative (by simp)
      rw [firstOf, add alternative (by simp) state, firstOf]
      cases ran : alternative state with
      | done value after =>
          have stackAfter : after.cursor.checkpoints ≠ [] :=
            (keepsFirst.of_done ran).trans_ne stack
          simp only [Outcome.mapState]
          rw [State.dropCheckpoint_withPast stackAfter]
      | failed failure after =>
          have stackAfter : after.cursor.checkpoints ≠ [] :=
            (keepsFirst.of_failed ran).trans_ne stack
          simp only [Outcome.mapState]
          rw [State.restore_withPast stackAfter]
          apply ih
          · intro other mem
            exact add other (by simp [mem])
          · intro other mem
            exact keep other (by simp [mem])
          · exact stackAfter

theorem addsTo_choice (expected : String) {alternatives : List (Action α)}
    (add : ∀ alternative ∈ alternatives, alternative.AddsTo past)
    (keep : ∀ alternative ∈ alternatives, alternative.KeepsPlaces) :
    (choice expected alternatives).AddsTo past := by
  intro state
  have stack : state.save.cursor.checkpoints ≠ [] := List.cons_ne_nil _ _
  exact firstOf_withPast expected add keep stack

/-- An attempt ends with the place on the stack that was saved for it. -/
theorem checkpoints_ne_nil_of_save {action : Action α} (keeps : action.KeepsPlaces) (state : State) :
    (action state.save).state.cursor.checkpoints ≠ [] :=
  (keeps state.save).trans_ne (List.cons_ne_nil _ _)

theorem addsTo_optional {action : Action α} (adds : action.AddsTo past)
    (keeps : action.KeepsPlaces) : (optional action).AddsTo past := by
  intro state
  have stack := checkpoints_ne_nil_of_save keeps state
  have saved : (state.withPast past).save = state.save.withPast past := rfl
  unfold optional
  rw [saved, adds state.save]
  generalize action state.save = outcome at stack ⊢
  cases outcome with
  | done value after =>
      simp only [Outcome.state] at stack
      simp only [Outcome.mapState]
      rw [State.dropCheckpoint_withPast stack]
  | failed failure after =>
      simp only [Outcome.state] at stack
      simp only [Outcome.mapState]
      rw [State.backtrack_withPast stack]

theorem collect_withPast {action : Action α} (adds : action.AddsTo past)
    (keeps : action.KeepsPlaces) (state : State) :
    collect action (state.withPast past) =
      ((collect action state).1, (collect action state).2.withPast past) := by
  -- What remains does not depend on the past, so both repetitions end after the same item.
  induction length : state.remainingLength using Nat.strong_induction_on generalizing state with
  | _ count ih =>
      have stack := checkpoints_ne_nil_of_save keeps state
      have saved : (state.withPast past).save = state.save.withPast past := rfl
      rw [collect.eq_def action (state.withPast past), collect.eq_def action state, saved,
        adds state.save]
      generalize action state.save = outcome at stack ⊢
      cases outcome with
      | failed failure after =>
          simp only [Outcome.state] at stack
          simp only [Outcome.mapState]
          rw [State.backtrack_withPast stack]
      | done item after =>
          simp only [Outcome.state] at stack
          simp only [Outcome.mapState]
          rw [State.dropCheckpoint_withPast stack]
          have remaining : (after.dropCheckpoint.withPast past).remainingLength =
              after.dropCheckpoint.remainingLength := rfl
          have remainingBefore : (state.withPast past).remainingLength = state.remainingLength := rfl
          rw [remaining, remainingBefore]
          split_ifs with shorter
          · rw [ih _ (length ▸ shorter) after.dropCheckpoint rfl]
          · rfl

end Action

namespace Rule

/-- Every rule goes alike if more is remembered, and adds to it what it would remember itself. -/
theorem addsTo_run (rule : Rule α) : Action.AddsTo past rule.run := by
  induction rule with
  | pure value => exact fun _ => rfl
  | bind first next ihFirst ihNext => exact Action.addsTo_andThen ihFirst ihNext
  | token terminal => exact Action.addsTo_take terminal
  | separator => exact Action.addsTo_separator
  | choice expected alternatives ih =>
      apply Action.addsTo_choice expected
      · intro alternative mem
        rcases List.mem_ofFn.1 mem with ⟨index, rfl⟩
        exact ih index
      · intro alternative mem
        rcases List.mem_ofFn.1 mem with ⟨index, rfl⟩
        exact (alternatives index).run_keepsPlaces
  | optional rule ih => exact Action.addsTo_optional ih rule.run_keepsPlaces
  | many rule ih =>
      intro state
      simp only [run, Action.many, Action.collect_withPast ih rule.run_keepsPlaces state]
      rfl
  | nested rule ih => exact Action.addsTo_nested ih
  | refuseNesting => exact Action.addsTo_refuseNesting

end Rule

end ThriftIdl
