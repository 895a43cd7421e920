import Mathlib
import ThriftIdl.Grammar.Rule

/-!
# Parallel runs

Places of one source may correspond to places of another. If the same tokens are recognised at
corresponding places, and if one moves on from there to corresponding places again, then two runs of
a rule that begin at corresponding places take the same steps. They end with the same value or with
the same failure, and all places and failures that they remember correspond.
-/

namespace ThriftIdl

namespace Rule

/-- Whether all tokens that a rule ever tries have a property. -/
@[simp]
def Tries (ofToken : ∀ {β : Type}, Token β → Prop) : {α : Type} → Rule α → Prop
  | _, .pure _ => True
  | _, .bind first next => first.Tries ofToken ∧ ∀ value, (next value).Tries ofToken
  | _, .token terminal => ofToken terminal
  | _, .separator => True
  | _, .choice _ alternatives => ∀ index, (alternatives index).Tries ofToken
  | _, .optional rule => rule.Tries ofToken
  | _, .many rule => rule.Tries ofToken
  | _, .nested rule => rule.Tries ofToken
  | _, .refuseNesting => True

variable {α : Type} {ofToken : ∀ {β : Type}, Token β → Prop}

@[simp]
theorem tries_oneOf {expected : String} {alternatives : List (Rule α)} :
    (oneOf expected alternatives).Tries ofToken ↔ ∀ rule ∈ alternatives, rule.Tries ofToken := by
  simp [oneOf, List.forall_mem_iff_get]

@[simp]
theorem tries_separated {rule : Rule α} :
    (separated rule).Tries ofToken ↔ rule.Tries ofToken := by
  simp [separated]

theorem tries_of_forall (all : ∀ {β : Type} (terminal : Token β), ofToken terminal)
    (rule : Rule α) : rule.Tries ofToken := by
  induction rule with
  | pure value => trivial
  | bind first next ihFirst ihNext => exact ⟨ihFirst, ihNext⟩
  | token terminal => exact all terminal
  | separator => trivial
  | choice expected alternatives ih => exact ih
  | optional rule ih => exact ih
  | many rule ih => exact ih
  | nested rule ih => exact ih
  | refuseNesting => trivial

end Rule

/-- Which places of one source correspond to which places of another one. -/
structure Correspondence where
  /-- The tokens that are recognised alike. -/
  knows : ∀ {α : Type}, Token α → Prop
  source : List UInt8 → List UInt8 → Prop
  position : Position → Position → Prop
  mark : Mark → Mark → Prop
  position_of_mark : ∀ {near far : Mark}, mark near far → position near.position far.position
  /-- Which of two places is further on is the same in both sources. -/
  offset_le_iff : ∀ {near far otherNear otherFar : Position}, position near far →
    position otherNear otherFar → (far.offset ≤ otherFar.offset ↔ near.offset ≤ otherNear.offset)
  length_eq : ∀ {near far : Mark}, mark near far → far.remaining.length = near.remaining.length
  separator : ∀ {near far : Mark}, mark near far →
    far.remaining.head?.any Byte.isSeparator = near.remaining.head?.any Byte.isSeparator
  recognize : ∀ {α : Type} {terminal : Token α} {near far : Mark}, knows terminal →
    mark near far → terminal.recognize far.remaining = terminal.recognize near.remaining
  bump : ∀ {near far : Mark} (count : Nat), mark near far → mark (near.bump count) (far.bump count)
  skipGap : ∀ {near far : Mark}, mark near far → mark near.skipGap far.skipGap

namespace Correspondence

variable (correspondence : Correspondence)

/-- Whether two failures are the same at corresponding places. -/
structure Failures (near far : Failure) : Prop where
  kind : far.kind = near.kind
  expected : far.expected = near.expected
  position : correspondence.position near.position far.position

/-- Whether two cursors are at corresponding places and remember corresponding ones. -/
structure Cursors (near far : Cursor) : Prop where
  source : correspondence.source near.source far.source
  mark : correspondence.mark near.mark far.mark
  checkpoints : List.Forall₂ correspondence.mark near.checkpoints far.checkpoints
  furthest : Option.Rel correspondence.Failures near.furthest far.furthest

/-- Whether two states are at corresponding places and remember corresponding ones. -/
structure States (near far : State) : Prop where
  cursor : correspondence.Cursors near.cursor far.cursor
  tooDeep : Option.Rel correspondence.Failures near.tooDeep far.tooDeep

/-- Whether two actions ended with the same value or with the same failure. -/
inductive Outcomes {α : Type} : Outcome α → Outcome α → Prop where
  | done (value : α) {near far : State} (states : correspondence.States near far) :
      Outcomes (.done value near) (.done value far)
  | failed {nearFailure farFailure : Failure} {near far : State}
      (failures : correspondence.Failures nearFailure farFailure)
      (states : correspondence.States near far) :
      Outcomes (.failed nearFailure near) (.failed farFailure far)

variable {correspondence} {α β : Type}

namespace Cursors

variable {near far : Cursor}

theorem atEnd_eq (cursors : correspondence.Cursors near far) : far.atEnd = near.atEnd := by
  have length := correspondence.length_eq cursors.mark
  unfold Cursor.atEnd
  rw [Bool.eq_iff_iff, List.isEmpty_iff_length_eq_zero, List.isEmpty_iff_length_eq_zero, length]

theorem bump (cursors : correspondence.Cursors near far) (count : Nat) :
    correspondence.Cursors (near.bump count) (far.bump count) :=
  { cursors with mark := correspondence.bump count cursors.mark }

theorem skipGap (cursors : correspondence.Cursors near far) :
    correspondence.Cursors near.skipGap far.skipGap :=
  { cursors with mark := correspondence.skipGap cursors.mark }

theorem save (cursors : correspondence.Cursors near far) :
    correspondence.Cursors near.save far.save :=
  { cursors with checkpoints := .cons cursors.mark cursors.checkpoints }

theorem restore (cursors : correspondence.Cursors near far) :
    correspondence.Cursors near.restore far.restore := by
  refine { cursors with mark := ?_ }
  have checkpoints := cursors.checkpoints
  unfold Cursor.restore
  generalize near.checkpoints = nearPlaces at checkpoints ⊢
  generalize far.checkpoints = farPlaces at checkpoints ⊢
  cases checkpoints with
  | nil => exact cursors.mark
  | cons latest _ => exact latest

theorem dropCheckpoint (cursors : correspondence.Cursors near far) :
    correspondence.Cursors near.dropCheckpoint far.dropCheckpoint := by
  refine { cursors with checkpoints := ?_ }
  have checkpoints := cursors.checkpoints
  unfold Cursor.dropCheckpoint
  generalize near.checkpoints = nearPlaces at checkpoints ⊢
  generalize far.checkpoints = farPlaces at checkpoints ⊢
  cases checkpoints with
  | nil => exact .nil
  | cons _ others => exact others

theorem failure (cursors : correspondence.Cursors near far) (kind : FailureKind)
    (expected : Expected) :
    correspondence.Failures (near.failure kind expected) (far.failure kind expected) :=
  ⟨rfl, rfl, correspondence.position_of_mark cursors.mark⟩

/-- The same one of two failures reached further. -/
theorem keepFurthest {nearFurthest farFurthest : Option Failure} {nearFailure farFailure : Failure}
    (furthest : Option.Rel correspondence.Failures nearFurthest farFurthest)
    (failures : correspondence.Failures nearFailure farFailure) :
    Option.Rel correspondence.Failures (Cursor.keepFurthest nearFurthest nearFailure)
      (Cursor.keepFurthest farFurthest farFailure) := by
  cases furthest with
  | none => exact .some failures
  | some earlier =>
      simp only [Cursor.keepFurthest,
        correspondence.offset_le_iff earlier.position failures.position]
      split_ifs
      · exact .some failures
      · exact .some earlier

theorem fail (cursors : correspondence.Cursors near far) (kind : FailureKind)
    (expected : Expected) : correspondence.Cursors (near.fail kind expected)
      (far.fail kind expected) :=
  { cursors with furthest := keepFurthest cursors.furthest (cursors.failure kind expected) }

end Cursors

namespace States

variable {near far : State}

theorem mapCursor (states : correspondence.States near far) {operation : Cursor → Cursor}
    (step : ∀ {near far : Cursor}, correspondence.Cursors near far →
      correspondence.Cursors (operation near) (operation far)) :
    correspondence.States (near.mapCursor operation) (far.mapCursor operation) :=
  ⟨step states.cursor, states.tooDeep⟩

theorem save (states : correspondence.States near far) :
    correspondence.States near.save far.save :=
  states.mapCursor Cursors.save

theorem restore (states : correspondence.States near far) :
    correspondence.States near.restore far.restore :=
  states.mapCursor Cursors.restore

theorem dropCheckpoint (states : correspondence.States near far) :
    correspondence.States near.dropCheckpoint far.dropCheckpoint :=
  states.mapCursor Cursors.dropCheckpoint

theorem enter (states : correspondence.States near far) :
    correspondence.States near.enter far.enter :=
  ⟨states.cursor, states.tooDeep⟩

theorem leave (states : correspondence.States near far) :
    correspondence.States near.leave far.leave :=
  ⟨states.cursor, states.tooDeep⟩

theorem remainingLength_eq (states : correspondence.States near far) :
    far.remainingLength = near.remainingLength :=
  correspondence.length_eq states.cursor.mark

end States

/-! ### Actions -/

variable (correspondence) in
/-- Whether an action ends alike at corresponding places. -/
def Parallel (action : Action α) : Prop :=
  ∀ {near far : State}, correspondence.States near far →
    correspondence.Outcomes (action near) (action far)

theorem parallel_fail (kind : FailureKind) (expected : Expected) :
    correspondence.Parallel (Action.fail kind expected : Action α) := by
  intro near far states
  apply Outcomes.failed
  · exact states.cursor.failure kind expected
  · exact states.mapCursor fun cursors => cursors.fail kind expected

theorem parallel_take {terminal : Token α} (known : correspondence.knows terminal) :
    correspondence.Parallel (Action.take terminal) := by
  intro near far states
  have same : terminal.recognize far.cursor.remaining = terminal.recognize near.cursor.remaining :=
    correspondence.recognize known states.cursor.mark
  unfold Action.take
  rw [same]
  cases terminal.recognize near.cursor.remaining with
  | found value length =>
      exact .done value (states.mapCursor fun cursors => (cursors.bump length).skipGap)
  | missing kind expected understood =>
      apply parallel_fail
      exact states.mapCursor fun cursors => cursors.bump understood

theorem parallel_separator : correspondence.Parallel Action.separator := by
  intro near far states
  have same : far.cursor.peek.any Byte.isSeparator = near.cursor.peek.any Byte.isSeparator := by
    have sameHead := correspondence.separator states.cursor.mark
    rwa [List.head?_eq_getElem?, List.head?_eq_getElem?] at sameHead
  unfold Action.separator
  rw [same]
  split_ifs
  · exact .done true (states.mapCursor fun cursors => (cursors.bump 1).skipGap)
  · exact .done false states

theorem parallel_refuseNesting : correspondence.Parallel (Action.refuseNesting : Action α) := by
  intro near far states
  apply parallel_fail
  refine ⟨states.cursor, ?_⟩
  have failures := states.cursor.failure .lexical .shallowerNesting
  have tooDeep := states.tooDeep
  generalize near.tooDeep = nearDeep at tooDeep ⊢
  generalize far.tooDeep = farDeep at tooDeep ⊢
  cases tooDeep with
  | none => exact .some failures
  | some earlier => exact .some earlier

theorem parallel_nested {action : Action α} (parallel : correspondence.Parallel action) :
    correspondence.Parallel (Action.nested action) := by
  intro near far states
  have attempt := parallel states.enter
  unfold Action.nested
  generalize action near.enter = nearOutcome at attempt ⊢
  generalize action far.enter = farOutcome at attempt ⊢
  cases attempt with
  | done value after => exact .done value after.leave
  | failed failures after => exact .failed failures after.leave

theorem parallel_andThen {action : Action α} {next : α → Action β}
    (parallel : correspondence.Parallel action)
    (parallelNext : ∀ value, correspondence.Parallel (next value)) :
    correspondence.Parallel (Action.andThen action next) := by
  intro near far states
  have attempt := parallel states
  unfold Action.andThen
  generalize action near = nearOutcome at attempt ⊢
  generalize action far = farOutcome at attempt ⊢
  cases attempt with
  | done value after => exact parallelNext value after
  | failed failures after => exact .failed failures after

theorem parallel_firstOf (expected : String) {alternatives : List (Action α)}
    (parallel : ∀ alternative ∈ alternatives, correspondence.Parallel alternative) :
    correspondence.Parallel (Action.firstOf expected alternatives) := by
  intro near far states
  induction alternatives generalizing near far with
  | nil => exact parallel_fail _ _ states.dropCheckpoint
  | cons alternative others ih =>
      have attempt := parallel alternative (by simp) states
      simp only [Action.firstOf]
      generalize alternative near = nearOutcome at attempt ⊢
      generalize alternative far = farOutcome at attempt ⊢
      cases attempt with
      | done value after => exact .done value after.dropCheckpoint
      | failed _ after =>
          apply ih
          · intro other mem
            exact parallel other (by simp [mem])
          · exact after.restore

theorem parallel_optional {action : Action α} (parallel : correspondence.Parallel action) :
    correspondence.Parallel (Action.optional action) := by
  intro near far states
  have attempt := parallel states.save
  unfold Action.optional
  generalize action near.save = nearOutcome at attempt ⊢
  generalize action far.save = farOutcome at attempt ⊢
  cases attempt with
  | done value after => exact .done (some value) after.dropCheckpoint
  | failed _ after => exact .done none after.restore.dropCheckpoint

theorem parallel_collect {action : Action α} (parallel : correspondence.Parallel action)
    {near far : State} (states : correspondence.States near far) :
    (Action.collect action far).1 = (Action.collect action near).1 ∧
      correspondence.States (Action.collect action near).2 (Action.collect action far).2 := by
  induction length : near.remainingLength using Nat.strong_induction_on generalizing near far with
  | _ count ih =>
      have attempt := parallel states.save
      rw [Action.collect.eq_def action near, Action.collect.eq_def action far,
        states.remainingLength_eq]
      generalize action near.save = nearOutcome at attempt ⊢
      generalize action far.save = farOutcome at attempt ⊢
      cases attempt with
      | failed _ after => exact ⟨rfl, after.restore.dropCheckpoint⟩
      | @done value nearAfter farAfter after =>
          have next := after.dropCheckpoint
          simp only [next.remainingLength_eq]
          by_cases shorter : nearAfter.dropCheckpoint.remainingLength < near.remainingLength
          · have later := ih _ (length ▸ shorter) next rfl
            simp only [if_pos shorter]
            exact ⟨congrArg _ later.1, later.2⟩
          · simp only [if_neg shorter]
            exact ⟨trivial, next⟩

/-- A rule whose tokens are recognised alike ends alike at corresponding places. -/
theorem parallel_run {rule : Rule α} (tries : rule.Tries correspondence.knows) :
    correspondence.Parallel rule.run := by
  induction rule with
  | pure value => exact fun states => .done value states
  | bind first next ihFirst ihNext =>
      apply parallel_andThen (ihFirst tries.1)
      intro value
      exact ihNext value (tries.2 value)
  | token terminal => exact parallel_take tries
  | separator => exact parallel_separator
  | choice expected alternatives ih =>
      intro near far states
      refine parallel_firstOf expected ?_ states.save
      intro alternative mem
      rcases List.mem_ofFn.1 mem with ⟨index, rfl⟩
      exact ih index (tries index)
  | optional rule ih => exact parallel_optional (ih tries)
  | many rule ih =>
      intro near far states
      rcases parallel_collect (ih tries) states with ⟨same, after⟩
      simp only [Rule.run, Action.many, same]
      exact .done _ after
  | nested rule ih => exact parallel_nested (ih tries)
  | refuseNesting => exact parallel_refuseNesting

end Correspondence

end ThriftIdl
