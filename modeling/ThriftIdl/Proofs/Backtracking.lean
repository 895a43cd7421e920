import ThriftIdl.Grammar.Declaration
import ThriftIdl.Proofs.Grammar.Matching

/-!
# Backtracking

A rule may fail with the cursor in the middle of a token, but it always hands on the saved places
and the open levels that it was given. This is all that a choice, an option and a repetition have to
know of what they try: if an attempt does so, then going back after its failure leads exactly to the
place where it began, with the line endings counted so far.
-/

namespace ThriftIdl

namespace Action

variable {α : Type}

/-- Whether an action hands on something as it found it. -/
def Keeps {β : Type} (feature : State → β) (action : Action α) : Prop :=
  ∀ state, feature (action state).state = feature state

/-- Whether an action hands on the saved places as it found them. -/
abbrev KeepsPlaces (action : Action α) : Prop := action.Keeps fun state => state.cursor.checkpoints

/-- Whether an action hands on as many open levels as it found. -/
abbrev KeepsDepth (action : Action α) : Prop := action.Keeps State.depth

theorem Keeps.of_done {β : Type} {feature : State → β} {action : Action α}
    (keeps : action.Keeps feature) {state after : State} {value : α}
    (ran : action state = .done value after) : feature after = feature state := by
  have kept := keeps state
  rwa [ran] at kept

theorem Keeps.of_failed {β : Type} {feature : State → β} {action : Action α}
    (keeps : action.Keeps feature) {state after : State} {failure : Failure}
    (ran : action state = .failed failure after) : feature after = feature state := by
  have kept := keeps state
  rwa [ran] at kept

/-! ### Choices -/

/--
While alternatives are tried, the place where they all begin is the latest saved one. Whatever
becomes of them, it is the only one that is taken off the stack, and after a failure of all of them
it is the current place.
-/
theorem firstOf_exact (expected : String) {alternatives : List (Action α)}
    (keep : ∀ alternative ∈ alternatives, alternative.KeepsPlaces) {place : Mark}
    {places : List Mark} {state : State} (stack : state.cursor.checkpoints = place :: places)
    (start : state.cursor.mark = place) :
    (firstOf expected alternatives state).state.cursor.checkpoints = places ∧
      ∀ failure after, firstOf expected alternatives state = .failed failure after →
        after.cursor.mark = place := by
  induction alternatives generalizing state with
  | nil =>
      refine ⟨state.checkpoints_dropCheckpoint stack, ?_⟩
      intro failure after failed
      cases failed
      exact start
  | cons alternative others ih =>
      have keepsFirst : alternative.KeepsPlaces := keep alternative (by simp)
      simp only [firstOf]
      cases attempt : alternative state with
      | done value after =>
          have same := keepsFirst.of_done attempt
          refine ⟨after.checkpoints_dropCheckpoint (same.trans stack), ?_⟩
          intro failure last failed
          cases failed
      | failed failure after =>
          have same : after.cursor.checkpoints = place :: places :=
            (keepsFirst.of_failed attempt).trans stack
          apply ih
          · intro other mem
            exact keep other (by simp [mem])
          · exact same
          · exact after.mark_restore same

theorem firstOf_keepsDepth (expected : String) {alternatives : List (Action α)}
    (keep : ∀ alternative ∈ alternatives, alternative.KeepsDepth) :
    KeepsDepth (firstOf expected alternatives) := by
  induction alternatives with
  | nil => exact fun _ => rfl
  | cons alternative others ih =>
      intro state
      have keepsFirst : alternative.KeepsDepth := keep alternative (by simp)
      simp only [firstOf]
      cases attempt : alternative state with
      | done value after =>
          have same : after.depth = state.depth := keepsFirst.of_done attempt
          exact same
      | failed failure after =>
          have same : after.depth = state.depth := keepsFirst.of_failed attempt
          have keepOthers : KeepsDepth (firstOf expected others) :=
            ih fun other mem => keep other (by simp [mem])
          exact (keepOthers after.restore).trans same

theorem choice_exact (expected : String) {alternatives : List (Action α)}
    (keep : ∀ alternative ∈ alternatives, alternative.KeepsPlaces) :
    KeepsPlaces (choice expected alternatives) ∧
      ∀ state failure after, choice expected alternatives state = .failed failure after →
        after.cursor.mark = state.cursor.mark := by
  have exactly (state : State) := @firstOf_exact α expected alternatives keep state.cursor.mark
    state.cursor.checkpoints state.save rfl rfl
  constructor
  · intro state
    exact (exactly state).1
  · intro state failure after failed
    exact (exactly state).2 failure after failed

/-! ### Options -/

theorem optional_exact {action : Action α} (keeps : action.KeepsPlaces) :
    KeepsPlaces (optional action) ∧
      ∀ state after, optional action state = .done none after →
        after.cursor.mark = state.cursor.mark := by
  constructor
  · intro state
    unfold optional
    cases attempt : action state.save with
    | done value after => exact after.checkpoints_dropCheckpoint (keeps.of_done attempt)
    | failed failure after =>
        exact after.restore.checkpoints_dropCheckpoint (keeps.of_failed attempt)
  · intro state after absent
    unfold optional at absent
    cases attempt : action state.save with
    | done value next => simp only [attempt] at absent; cases absent
    | failed failure next =>
        simp only [attempt] at absent
        cases absent
        exact next.mark_restore (keeps.of_failed attempt)

theorem optional_keepsDepth {action : Action α} (keeps : action.KeepsDepth) :
    KeepsDepth (optional action) := by
  intro state
  unfold optional
  cases attempt : action state.save with
  | done value after =>
      have same : after.depth = state.save.depth := keeps.of_done attempt
      exact same
  | failed failure after =>
      have same : after.depth = state.save.depth := keeps.of_failed attempt
      exact same

/-! ### Repetitions -/

/--
The attempts of a repetition up to some state: each of them is done, takes bytes, and leads to the
state in which the next one is made.
-/
inductive Attempts (action : Action α) : State → List α → State → Prop where
  | nil (state : State) : Attempts action state [] state
  | cons {state after latest : State} {item : α} {items : List α}
      (ran : action state.save = .done item after)
      (shorter : after.dropCheckpoint.remainingLength < state.remainingLength)
      (others : Attempts action after.dropCheckpoint items latest) :
      Attempts action state (item :: items) latest

/-- How a repetition comes to its end in some state, the latest one in which it makes an attempt. -/
inductive Ends (action : Action α) (latest : State) : List α → State → Prop where
  /-- The attempt fails, and the place is the one before the attempt. -/
  | failed {failure : Failure} {after last : State}
      (ran : action latest.save = .failed failure after)
      (place : last.cursor.mark = latest.cursor.mark) : Ends action latest [] last
  /-- The attempt takes no bytes, and its item is the last one. -/
  | idle {item : α} {after : State} (ran : action latest.save = .done item after)
      (notShorter : ¬after.dropCheckpoint.remainingLength < latest.remainingLength) :
      Ends action latest [item] after.dropCheckpoint

theorem collect_exact {action : Action α} (keeps : action.KeepsPlaces) (state : State) :
    (collect action state).2.cursor.checkpoints = state.cursor.checkpoints ∧
      ∃ latest front back, Attempts action state front latest ∧
        Ends action latest back (collect action state).2 ∧
          (collect action state).1 = front ++ back := by
  induction length : state.remainingLength using Nat.strong_induction_on generalizing state with
  | _ count ih =>
      rw [collect]
      cases attempt : action state.save with
      | failed failure after =>
          have same := keeps.of_failed attempt
          refine ⟨after.restore.checkpoints_dropCheckpoint same, ?_⟩
          exact ⟨state, [], [], .nil state, .failed attempt (after.mark_restore same), rfl⟩
      | done item after =>
          have same : after.dropCheckpoint.cursor.checkpoints = state.cursor.checkpoints :=
            after.checkpoints_dropCheckpoint (keeps.of_done attempt)
          by_cases shorter : after.dropCheckpoint.remainingLength < state.remainingLength
          · rcases ih _ (length ▸ shorter) after.dropCheckpoint rfl with
              ⟨sameLater, latest, front, back, attempts, ends, items⟩
            simp only [if_pos shorter]
            refine ⟨sameLater.trans same, ?_⟩
            exact ⟨latest, item :: front, back, .cons attempt shorter attempts, ends,
              congrArg (item :: ·) items⟩
          · simp only [if_neg shorter]
            exact ⟨same, state, [], [item], .nil state, .idle attempt shorter, rfl⟩

theorem collect_keepsDepth {action : Action α} (keeps : action.KeepsDepth) (state : State) :
    (collect action state).2.depth = state.depth := by
  induction length : state.remainingLength using Nat.strong_induction_on generalizing state with
  | _ count ih =>
      rw [collect]
      cases attempt : action state.save with
      | failed failure after =>
          have same : after.depth = state.save.depth := keeps.of_failed attempt
          exact same
      | done item after =>
          have same : after.depth = state.save.depth := keeps.of_done attempt
          by_cases shorter : after.dropCheckpoint.remainingLength < state.remainingLength
          · simp only [if_pos shorter]
            exact (ih _ (length ▸ shorter) after.dropCheckpoint rfl).trans same
          · simp only [if_neg shorter]
            exact same

end Action

/-! ### Rules -/

namespace Rule

variable {α : Type}

theorem run_keepsPlaces (rule : Rule α) : Action.KeepsPlaces rule.run := by
  intro state
  have agree := run_agrees rule state
  generalize rule.run state = outcome at agree ⊢
  generalize rule.read state.cursor.remaining = result at agree
  cases agree with
  | done framed => exact framed.checkpoints
  | failed framed => exact framed.checkpoints

theorem run_keepsDepth (rule : Rule α) : Action.KeepsDepth rule.run := by
  intro state
  have agree := run_agrees rule state
  generalize rule.run state = outcome at agree ⊢
  generalize rule.read state.cursor.remaining = result at agree
  cases agree with
  | done framed => exact framed.depth
  | failed framed => exact framed.depth

end Rule

namespace Action

/--
Backtracking is exact. Every rule hands on the saved places and the open levels of every state. So
do a choice, an option and a repetition of any actions that do so themselves; and after a choice
that fails, an option that is absent, and the failed attempt with which a repetition ends, the place
is the one before.
-/
theorem backtracking_exact :
    (∀ (α : Type) (rule : Rule α), KeepsPlaces rule.run ∧ KeepsDepth rule.run) ∧
    (∀ (α : Type) (expected : String) (alternatives : List (Action α)),
      (∀ alternative ∈ alternatives, alternative.KeepsPlaces) →
        KeepsPlaces (choice expected alternatives) ∧
        ((∀ alternative ∈ alternatives, alternative.KeepsDepth) →
          KeepsDepth (choice expected alternatives)) ∧
        ∀ state failure after, choice expected alternatives state = .failed failure after →
          after.cursor.mark = state.cursor.mark) ∧
    (∀ (α : Type) (action : Action α), action.KeepsPlaces →
      KeepsPlaces (optional action) ∧
      (action.KeepsDepth → KeepsDepth (optional action)) ∧
      ∀ state after, optional action state = .done none after →
        after.cursor.mark = state.cursor.mark) ∧
    ∀ (α : Type) (action : Action α), action.KeepsPlaces →
      KeepsPlaces (many action) ∧
      (action.KeepsDepth → KeepsDepth (many action)) ∧
      ∀ state, ∃ latest front back last, Attempts action state front latest ∧
        Ends action latest back last ∧ many action state = .done (front ++ back) last := by
  refine ⟨?_, ?_, ?_, ?_⟩
  · intro α rule
    exact ⟨rule.run_keepsPlaces, rule.run_keepsDepth⟩
  · intro α expected alternatives keep
    rcases choice_exact expected keep with ⟨keepsPlaces, place⟩
    refine ⟨keepsPlaces, ?_, place⟩
    intro keepDepth state
    exact firstOf_keepsDepth expected keepDepth state.save
  · intro α action keeps
    rcases optional_exact keeps with ⟨keepsPlaces, place⟩
    exact ⟨keepsPlaces, optional_keepsDepth, place⟩
  · intro α action keeps
    refine ⟨fun state => (collect_exact keeps state).1, ?_, ?_⟩
    · intro keepsDepth state
      exact collect_keepsDepth keepsDepth state
    · intro state
      rcases collect_exact keeps state with ⟨-, latest, front, back, attempts, ends, items⟩
      refine ⟨latest, front, back, _, attempts, ends, ?_⟩
      rw [← items]
      rfl

/--
A name is there, but the mark behind it is not. The failed attempt has passed over the name, and
both the choice and the option come back to it.
-/
theorem backtracking_exact_name :
    let start := State.startAt [0x6C, 0x69, 0x73, 0x74, 0x3C] 0
    let attempt := (Rule.bind Rule.identifier fun _ => Rule.mark Byte.closeAngle).run
    KeepsPlaces attempt ∧ (attempt start).state.cursor.offset = 4 ∧
      (∃ failure after, choice "a name" [attempt] start = .failed failure after ∧
        after.cursor.mark = start.cursor.mark) ∧
      ∃ after, optional attempt start = .done none after ∧
        after.cursor.mark = start.cursor.mark := by
  intro start attempt
  have keeps : KeepsPlaces attempt := (backtracking_exact.1 Unit _).1
  have keepsEach : ∀ alternative ∈ [attempt], KeepsPlaces alternative := by simpa using keeps
  have place := (backtracking_exact.2.1 Unit "a name" [attempt] keepsEach).2.2
  have placeOfOption := (backtracking_exact.2.2.1 Unit attempt keeps).2.2
  have choiceFails : (choice "a name" [attempt] start).result.toOption = none := by decide +kernel
  have isAbsent : (optional attempt start).result.toOption = some none := by decide +kernel
  refine ⟨keeps, by decide +kernel, ?_, ?_⟩
  · cases ran : choice "a name" [attempt] start with
    | done value after => rw [ran] at choiceFails; cases choiceFails
    | failed failure after => exact ⟨failure, after, rfl, place start failure after ran⟩
  · cases ran : optional attempt start with
    | done value after =>
        rw [ran] at isAbsent
        cases isAbsent
        exact ⟨after, rfl, placeOfOption start after ran⟩
    | failed failure after => rw [ran] at isAbsent; cases isAbsent

end Action

end ThriftIdl
