import ThriftIdl.Proofs.Backtracking
import ThriftIdl.Proofs.Trace.Reading
import ThriftIdl.Proofs.Trace.Tokens

/-!
# Rules step by step

What a rule does step by step ends as its run does, and nothing improper is done on the way
(`Rule.performs_trace`). For the combinators this rests on what every rule hands on: the saved places
are there when an attempt goes back to the latest of them, and the level that was opened is there to
be closed.
-/

namespace ThriftIdl

variable {source : List UInt8} {start : Nat} {α β : Type}

namespace Procedure

variable {state : State}

/-- An operation that does not move on only has to be allowed. -/
theorem performs_allowed {operation : Operation} (allowed : operation.Allowed state)
    (notMove : operation.isMove = false) (notDecoding : operation.decodes = false) :
    (perform operation).Performs source start state (.done () (operation.apply state)) :=
  performs_perform (.of_allowed allowed notMove notDecoding)

theorem performs_save : (perform .save).Performs source start state (.done () state.save) :=
  performs_allowed trivial rfl rfl

theorem performs_restore (stack : state.cursor.checkpoints ≠ []) :
    (perform .restore).Performs source start state (.done () state.restore) :=
  performs_allowed stack rfl rfl

theorem performs_dropCheckpoint (stack : state.cursor.checkpoints ≠ []) :
    (perform .dropCheckpoint).Performs source start state (.done () state.dropCheckpoint) :=
  performs_allowed stack rfl rfl

end Procedure

namespace Rule

/-- Whether a rule that is read step by step ends as its run does. -/
def IsTraced (source : List UInt8) (start : Nat) (rule : Rule α) : Prop :=
  ∀ {state : State}, state.Sound source start →
    rule.trace.Performs source start state (rule.run state)

open Procedure

theorem isTraced_bind {first : Rule α} {next : α → Rule β} (traced : first.IsTraced source start)
    (tracedNext : ∀ value, (next value).IsTraced source start) :
    (Rule.bind first next).IsTraced source start := by
  intro state sound
  have performs := traced sound
  change (first.trace >>= fun value => (next value).trace).Performs source start state
    (Action.andThen first.run (fun value => (next value).run) state)
  unfold Action.andThen
  cases ran : first.run state with
  | done value after =>
      rw [ran] at performs
      exact performs.bind (tracedNext value (performs.sound sound))
  | failed failure after =>
      rw [ran] at performs
      exact performs.bind_failed

/-- The place where the alternatives begin is on the stack as long as one of them is tried. -/
theorem performs_firstOf (expected : String) {alternatives : List (Rule α)}
    (traced : ∀ rule ∈ alternatives, rule.IsTraced source start) {state : State}
    (sound : state.Sound source start) (stack : state.cursor.checkpoints ≠ []) :
    (Procedure.firstOf expected (alternatives.map trace)).Performs source start state
      (Action.firstOf expected (alternatives.map run) state) := by
  induction alternatives generalizing state with
  | nil => exact (performs_dropCheckpoint stack).bind (performs_fail _ _ _)
  | cons rule others ih =>
      have performs := traced rule (by simp) sound
      have keeps := rule.run_keepsPlaces state
      simp only [List.map_cons, Procedure.firstOf, Action.firstOf]
      cases ran : rule.run state with
      | done value after =>
          rw [ran] at performs keeps
          have stackAfter : after.cursor.checkpoints ≠ [] := keeps.trans_ne stack
          exact performs.attempt_done.bind
            ((performs_dropCheckpoint stackAfter).bind (performs_pure _ _))
      | failed failure after =>
          rw [ran] at performs keeps
          have stackAfter : after.cursor.checkpoints ≠ [] := keeps.trans_ne stack
          have soundAfter : after.Sound source start := performs.sound sound
          have restored := @performs_restore source start after stackAfter
          have tried := ih (fun other mem => traced other (by simp [mem])) soundAfter.restore stackAfter
          exact performs.attempt_failed.bind (restored.bind tried)

theorem isTraced_choice (expected : String) {count : Nat} {alternatives : Fin count → Rule α}
    (traced : ∀ index, (alternatives index).IsTraced source start) :
    (Rule.choice expected alternatives).IsTraced source start := by
  intro state sound
  have saved := @performs_save source start state
  have soundSaved : state.save.Sound source start := saved.sound sound
  have tried := performs_firstOf expected (List.forall_mem_ofFn_iff.2 traced) soundSaved
    (List.cons_ne_nil _ _)
  rw [List.map_ofFn, List.map_ofFn] at tried
  exact saved.bind tried

/-- An attempt is made from a saved place and goes back to it if it fails. -/
theorem isTraced_optional {rule : Rule α} (traced : rule.IsTraced source start) :
    (Rule.optional rule).IsTraced source start := by
  intro state sound
  have saved := @performs_save source start state
  have soundSaved : state.save.Sound source start := saved.sound sound
  have performs := traced soundSaved
  have keeps := rule.run_keepsPlaces state.save
  change (Procedure.optional rule.trace).Performs source start state (Action.optional rule.run state)
  unfold Action.optional
  refine saved.bind ?_
  cases ran : rule.run state.save with
  | done value after =>
      rw [ran] at performs keeps
      have stackAfter : after.cursor.checkpoints ≠ [] := keeps.trans_ne (List.cons_ne_nil _ _)
      exact performs.attempt_done.bind
        ((performs_dropCheckpoint stackAfter).bind (performs_pure _ _))
  | failed failure after =>
      rw [ran] at performs keeps
      have stackAfter : after.cursor.checkpoints ≠ [] := keeps.trans_ne (List.cons_ne_nil _ _)
      have stackRestored : after.restore.cursor.checkpoints ≠ [] := stackAfter
      exact performs.attempt_failed.bind ((performs_restore stackAfter).bind
        ((performs_dropCheckpoint stackRestored).bind (performs_pure _ _)))

theorem isTraced_many {rule : Rule α} (traced : rule.IsTraced source start) :
    (Rule.many rule).IsTraced source start := by
  intro state sound
  -- Each item is an option that was taken; one without bytes ends the repetition.
  induction length : state.remainingLength using Nat.strong_induction_on generalizing state with
  | _ count ih =>
      have attempt := isTraced_optional traced sound
      have soundAfter := attempt.sound sound
      have steps : Procedure.many rule.trace state = _ := Procedure.collect.eq_def rule.trace state
      change (Procedure.many rule.trace).Performs source start state (Action.many rule.run state)
      change (Procedure.optional rule.trace).Performs source start state
        (Action.optional rule.run state) at attempt
      change (Action.optional rule.run state).state.Sound source start at soundAfter
      unfold Action.optional at attempt soundAfter
      rw [Action.many, Action.collect]
      rcases attempt with ⟨result, run⟩
      generalize Procedure.optional rule.trace state = tracedAttempt at result run steps
      rcases tracedAttempt with ⟨events, _⟩
      cases result
      cases ran : rule.run state.save with
      | failed failure after =>
          simp only [ran] at run steps
          constructor
          · rw [steps]
          · rw [steps]
            exact run
      | done item after =>
          simp only [ran] at run steps soundAfter
          by_cases shorter : after.dropCheckpoint.remainingLength < state.remainingLength
          · have others : (Procedure.many rule.trace).Performs source start after.dropCheckpoint
                (Action.many rule.run after.dropCheckpoint) :=
              ih _ (length ▸ shorter) soundAfter rfl
            simp only [if_pos shorter] at steps ⊢
            rcases others with ⟨laterResult, laterRun⟩
            change (Procedure.collect rule.trace after.dropCheckpoint).result = _ at laterResult
            change Run source start _ (Procedure.collect rule.trace after.dropCheckpoint).events _
              at laterRun
            generalize Procedure.collect rule.trace after.dropCheckpoint = later
              at laterResult laterRun steps
            rcases later with ⟨laterEvents, _⟩
            cases laterResult
            simp only at steps
            constructor
            · rw [steps]
            · rw [steps]
              exact run.append laterRun
          · simp only [if_neg shorter] at steps ⊢
            constructor
            · rw [steps]
            · rw [steps]
              exact run

theorem isTraced_nested {rule : Rule α} (traced : rule.IsTraced source start) :
    (Rule.nested rule).IsTraced source start := by
  intro state sound
  have entered : (perform .enter).Performs source start state (.done () state.enter) :=
    performs_allowed trivial rfl rfl
  have soundEntered : state.enter.Sound source start := entered.sound sound
  have performs := traced soundEntered
  have keeps := rule.run_keepsDepth state.enter
  change (Procedure.nested rule.trace).Performs source start state (Action.nested rule.run state)
  unfold Action.nested
  refine entered.bind ?_
  cases ran : rule.run state.enter with
  | done value after =>
      rw [ran] at performs keeps
      have inside : 0 < after.depth := Nat.lt_of_lt_of_eq (Nat.succ_pos _) keeps.symm
      have left : (perform .leave).Performs source start after (.done () after.leave) :=
        performs_allowed inside rfl rfl
      exact performs.attempt_done.bind (left.bind ⟨rfl, .nil _⟩)
  | failed failure after =>
      rw [ran] at performs keeps
      have inside : 0 < after.depth := Nat.lt_of_lt_of_eq (Nat.succ_pos _) keeps.symm
      have left : (perform .leave).Performs source start after (.done () after.leave) :=
        performs_allowed inside rfl rfl
      exact performs.attempt_failed.bind (left.bind ⟨rfl, .nil _⟩)

theorem isTraced_refuseNesting : (Rule.refuseNesting : Rule α).IsTraced source start := by
  intro state _
  have kept : (perform .keepRefusal).Performs source start state (.done () state.keepRefusal) :=
    performs_allowed trivial rfl rfl
  exact kept.bind (performs_fail _ _ _)

/-- Read step by step, a rule ends as its run does and does nothing improper. -/
theorem performs_trace {rule : Rule α} (wellFormed : rule.WellFormed) :
    rule.IsTraced source start := by
  induction rule with
  | pure value => exact fun _ => performs_pure value _
  | bind first next ihFirst ihNext =>
      exact isTraced_bind (ihFirst wellFormed.1) fun value => ihNext value (wellFormed.2 value)
  | token terminal => exact Token.performs_scan wellFormed
  | separator => exact performs_separator
  | choice expected alternatives ih =>
      exact isTraced_choice expected fun index => ih index (wellFormed index)
  | optional rule ih => exact isTraced_optional (ih wellFormed)
  | many rule ih => exact isTraced_many (ih wellFormed.1)
  | nested rule ih => exact isTraced_nested (ih wellFormed)
  | refuseNesting => exact isTraced_refuseNesting

end Rule

end ThriftIdl
