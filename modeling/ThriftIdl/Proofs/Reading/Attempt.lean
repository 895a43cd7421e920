import ThriftIdl.Proofs.Grammar.Failing
import ThriftIdl.Proofs.Grammar.Steps
import ThriftIdl.Reading.Basic

/-!
# The attempt that fails

If a source cannot be read, there is one attempt to read a declaration that failed, and its failures
are what the error is made of. Each failure that a rule returns was recorded before, so the reported
failure is always a recorded one.
-/

namespace ThriftIdl

namespace Rule

variable {α : Type}

/-- Whether the failure of an action was recorded, unless one further on was. -/
inductive Records : Outcome α → Prop where
  | done (value : α) (after : State) : Records (.done value after)
  | failed {failure : Failure} {after : State} (reached : after.Reached failure.position.offset) :
      Records (.failed failure after)

theorem records_fail (kind : FailureKind) (expected : Expected) (state : State) :
    Records (Action.fail kind expected state : Outcome α) :=
  .failed (state.reached_fail kind expected)

theorem records_firstOf (expected : String) (alternatives : List (Action α)) (state : State) :
    Records (Action.firstOf expected alternatives state) := by
  induction alternatives generalizing state with
  | nil => exact records_fail _ _ _
  | cons alternative others ih =>
      simp only [Action.firstOf]
      cases alternative state with
      | done value after => exact .done value _
      | failed failure after => exact ih after.restore

theorem records_run (rule : Rule α) (state : State) : Records (rule.run state) := by
  induction rule generalizing state with
  | pure value => exact .done value state
  | bind first next ihFirst ihNext =>
      have recorded := ihFirst state
      simp only [run, Action.andThen]
      generalize first.run state = outcome at recorded ⊢
      cases recorded with
      | done value after => exact ihNext value after
      | failed reached => exact .failed reached
  | token terminal =>
      simp only [run, Action.take]
      cases terminal.recognize state.cursor.remaining with
      | found value length => exact .done value _
      | missing kind expected understood => exact records_fail kind expected _
  | separator =>
      simp only [run, Action.separator]
      split_ifs
      · exact .done true _
      · exact .done false _
  | choice expected alternatives ih => exact records_firstOf expected _ _
  | optional rule ih =>
      simp only [run, Action.optional]
      cases rule.run state.save with
      | done value after => exact .done _ _
      | failed failure after => exact .done _ _
  | many rule ih => exact .done _ _
  | nested rule ih =>
      have recorded := ih state.enter
      simp only [run, Action.nested]
      generalize rule.run state.enter = outcome at recorded ⊢
      cases recorded with
      | done value after => exact .done value _
      | failed reached => exact .failed reached
  | refuseNesting => exact records_fail _ _ _

/-- A failure that a rule returns was recorded, unless one further on was. -/
theorem reached_of_run_failed {rule : Rule α} {state after : State} {failure : Failure}
    (ran : rule.run state = .failed failure after) : after.Reached failure.position.offset := by
  have recorded := rule.records_run state
  rw [ran] at recorded
  cases recorded with
  | failed reached => exact reached

end Rule

namespace Reading

/-- The failure that a declaration is blamed on is always a recorded one. -/
theorem blame_mem {rule : Rule Declaration} {state after : State} {returned : Failure}
    (ran : rule.run state = .failed returned after) :
    blame after returned ∈ after.tooDeep ∨ blame after returned ∈ after.cursor.furthest := by
  rcases Rule.reached_of_run_failed ran with ⟨furthest, known, -⟩
  unfold blame
  cases refused : after.tooDeep with
  | some refusal => exact .inl rfl
  | none =>
      rw [Option.none_or, Option.mem_def.1 known]
      exact .inr rfl

/-- The failure that is blamed is one that is remembered or returned. -/
theorem blame_of_notes {property : Failure → Prop} {after : State} {returned : Failure}
    (holds : property returned) (notes : after.Notes property) :
    property (blame after returned) := by
  unfold blame
  cases deep : after.tooDeep with
  | some failure => exact notes.tooDeep failure deep
  | none =>
      cases reached : after.cursor.furthest with
      | some failure => exact notes.furthest failure reached
      | none => exact holds

/-- An attempt to read a declaration that failed. -/
structure Attempt where
  /-- The state in which the declaration was to be read. -/
  before : State
  /-- The failure that the attempt returned. -/
  returned : Failure
  /-- The state that it handed on. -/
  after : State

namespace Attempt

/-- The failure that is reported. -/
def reported (attempt : Attempt) : Failure := blame attempt.after attempt.returned

/-- The error that reports it. -/
def error (attempt : Attempt) : ParseError :=
  ParseError.ofFailure attempt.after.cursor.source attempt.reported

end Attempt

variable {rule : Rule Declaration} {state : State} {attempt : Attempt}

/-- Whether no place is saved and no level is open, as it is between declarations. -/
structure Between (state : State) : Prop where
  checkpoints : state.cursor.checkpoints = []
  depth : state.depth = 0

theorem Between.of_run_done {after : State} {declaration : Declaration}
    (between : Between state) (ran : rule.run (prepare state) = .done declaration after) :
    Between after :=
  ⟨(rule.run_keepsPlaces.of_done ran).trans between.checkpoints,
    (rule.run_keepsDepth.of_done ran).trans between.depth⟩

/-- The attempt that brings the reading of declarations to its end, if one fails. -/
def failedAttempt (rule : Rule Declaration) (state : State) : Option Attempt :=
  if state.cursor.atEnd then none
  else
    match rule.run (prepare state) with
    | .failed returned after => some ⟨state, returned, after⟩
    | .done _ after =>
      if after.remainingLength < state.remainingLength then failedAttempt rule after else none
termination_by state.remainingLength

/-- Reading ends with an error exactly if an attempt fails, and with the error of that attempt. -/
theorem error_ofState (rule : Rule Declaration) (state : State) :
    (ofState rule state).error = (failedAttempt rule state).map Attempt.error := by
  fun_induction ofState rule state with
  | case1 state atEnd => rw [failedAttempt, if_pos atEnd]; rfl
  | case2 state notAtEnd returned after ran =>
      rw [failedAttempt, if_neg notAtEnd, ran]
      rfl
  | case3 state notAtEnd declaration after ran shorter rest ih =>
      rw [failedAttempt, if_neg notAtEnd, ran]
      simp only [if_pos shorter]
      exact ih
  | case4 state notAtEnd declaration after ran notShorter =>
      rw [failedAttempt, if_neg notAtEnd, ran]
      simp only [if_neg notShorter]
      rfl

/-- What every declaration that is read hands on holds where the attempt fails. -/
theorem before_of_failedAttempt {holds : State → Prop}
    (kept : ∀ {before after : State} {declaration : Declaration}, holds before →
      rule.run (prepare before) = .done declaration after → holds after)
    (atStart : holds state) (failed : failedAttempt rule state = some attempt) :
    holds attempt.before := by
  fun_induction failedAttempt rule state with
  | case1 state atEnd => cases failed
  | case2 state notAtEnd returned after ran =>
      cases failed
      exact atStart
  | case3 state notAtEnd declaration after ran shorter ih => exact ih (kept atStart ran) failed
  | case4 state notAtEnd declaration after ran notShorter => cases failed

/-- The attempt is a run of the rule behind no failure, and something is left to be read. -/
theorem run_of_failedAttempt (failed : failedAttempt rule state = some attempt) :
    rule.run (prepare attempt.before) = .failed attempt.returned attempt.after := by
  fun_induction failedAttempt rule state with
  | case1 state atEnd => cases failed
  | case2 state notAtEnd returned after ran =>
      cases failed
      exact ran
  | case3 state notAtEnd declaration after ran shorter ih => exact ih failed
  | case4 state notAtEnd declaration after ran notShorter => cases failed

/-- The reported failure was recorded. -/
theorem reported_mem (failed : failedAttempt rule state = some attempt) :
    attempt.reported ∈ attempt.after.tooDeep ∨
      attempt.reported ∈ attempt.after.cursor.furthest :=
  blame_mem (run_of_failedAttempt failed)

/-- What holds of everything that a declaration may fail with holds of the reported failure. -/
theorem reported_of_failing {property : Failure → Prop}
    (failed : failedAttempt rule state = some attempt)
    (failing : rule.Failing property (prepare attempt.before)) : property attempt.reported := by
  have fresh : (prepare attempt.before).Notes property := ⟨nofun, nofun⟩
  have recorded := rule.notes_of_failing fresh failing
  rw [run_of_failedAttempt failed] at recorded
  cases recorded with
  | failed returned notes => exact blame_of_notes returned notes

end Reading

namespace Document

/-- The attempt that brings the reading of a source to its end, if one fails. -/
def failedAttempt (source : String) (offset : Nat) : Option Reading.Attempt :=
  Reading.failedAttempt (Grammar.declaration Grammar.maxNesting)
    ((State.startAt (Utf8.encode source) offset).mapCursor Cursor.skipGap)

/-- A source cannot be read exactly if an attempt fails, and the error is that of the attempt. -/
theorem parseFrom_eq_error_iff {source : String} {offset : Nat} {error : ParseError} :
    parseFrom source offset = .error error ↔
      ∃ attempt, failedAttempt source offset = some attempt ∧ attempt.error = error := by
  have same := Reading.error_ofState (Grammar.declaration Grammar.maxNesting)
    ((State.startAt (Utf8.encode source) offset).mapCursor Cursor.skipGap)
  unfold parseFrom Reading.ofSource Reading.ofStateWithin Reading.document failedAttempt
  rw [same]
  cases Reading.failedAttempt (Grammar.declaration Grammar.maxNesting)
    ((State.startAt (Utf8.encode source) offset).mapCursor Cursor.skipGap) with
  | none => simp
  | some attempt => simp

end Document

end ThriftIdl
