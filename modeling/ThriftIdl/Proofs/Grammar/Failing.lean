import ThriftIdl.Proofs.Backtracking

/-!
# Where rules fail

`Rule.Fails` follows the constructors of a rule to everything that it may fail with on some bytes:
what was expected, and in front of which bytes. Attempts that are given up count as well, as each of
them leaves its failure behind. A run records no other failures (`Rule.notes_of_failing`), so
whatever holds of these holds of the failure that is reported in the end.
-/

namespace ThriftIdl

variable {α β : Type}

namespace Rule

/-- Whether an attempt that a rule makes on some bytes may fail in front of the given bytes. -/
def Fails : {α : Type} → Rule α → List UInt8 → FailureKind → Expected → List UInt8 → Prop
  | _, .pure _, _, _, _, _ => False
  | _, .bind first next, bytes, kind, expected, place =>
    first.Fails bytes kind expected place ∨
      ∃ value middle, first.read bytes = some (value, middle) ∧
        (next value).Fails middle kind expected place
  | _, .token terminal, bytes, kind, expected, place =>
    ∃ understood, terminal.recognize bytes = .missing kind expected understood ∧
      place = bytes.drop understood
  | _, .separator, _, _, _, _ => False
  | _, .choice label alternatives, bytes, kind, expected, place =>
    (kind = .grammar ∧ expected = .description label ∧ place = bytes) ∨
      ∃ index, (alternatives index).Fails bytes kind expected place
  | _, .optional rule, bytes, kind, expected, place => rule.Fails bytes kind expected place
  | _, .many rule, bytes, kind, expected, place =>
    ∃ items middle, Repeats (fun bytes item rest => rule.read bytes = some (item, rest)) bytes
      items middle ∧ rule.Fails middle kind expected place
  | _, .nested rule, bytes, kind, expected, place => rule.Fails bytes kind expected place
  | _, .refuseNesting, bytes, kind, expected, place =>
    kind = .lexical ∧ expected = .shallowerNesting ∧ place = bytes

/-- A rule fails in front of bytes that it was given. -/
theorem Fails.suffix {rule : Rule α} {bytes place : List UInt8} {kind : FailureKind}
    {expected : Expected} (fails : rule.Fails bytes kind expected place) : place <:+ bytes := by
  induction rule generalizing bytes with
  | pure value => cases fails
  | bind first next ihFirst ihNext =>
      rcases fails with fails | ⟨value, middle, found, fails⟩
      · exact ihFirst fails
      · exact (ihNext value fails).trans (first.read_suffix found)
  | token terminal =>
      rcases fails with ⟨understood, -, rfl⟩
      exact List.drop_suffix understood bytes
  | separator => cases fails
  | choice label alternatives ih =>
      rcases fails with ⟨-, -, rfl⟩ | ⟨index, fails⟩
      · exact List.suffix_rfl
      · exact ih index fails
  | optional rule ih => exact ih fails
  | many rule ih =>
      rcases fails with ⟨items, middle, repeats, fails⟩
      have suffix : middle <:+ bytes := by
        induction repeats with
        | nil bytes => exact List.suffix_rfl
        | cons found _ ihItems => exact (ihItems fails).trans (rule.read_suffix found)
      exact (ih fails).trans suffix
  | nested rule ih => exact ih fails
  | refuseNesting =>
      rcases fails with ⟨-, -, rfl⟩
      exact List.suffix_rfl

end Rule

/-! ### Failures that are recorded -/

/-- Whether all failures that a state remembers have a property. -/
structure State.Notes (property : Failure → Prop) (state : State) : Prop where
  furthest : ∀ failure ∈ state.cursor.furthest, property failure
  tooDeep : ∀ failure ∈ state.tooDeep, property failure

/-- Whether all failures that an action returns or leaves behind have a property. -/
inductive Outcome.Notes (property : Failure → Prop) : Outcome α → Prop where
  | done {value : α} {after : State} (notes : after.Notes property) :
      Notes property (.done value after)
  | failed {failure : Failure} {after : State} (returned : property failure)
      (notes : after.Notes property) : Notes property (.failed failure after)

variable {property : Failure → Prop} {state : State}

/-- What a failure at the current place adds to the failures that are remembered. -/
theorem State.Notes.fail (notes : state.Notes property) {kind : FailureKind} {expected : Expected}
    (holds : property (state.cursor.failure kind expected)) :
    (Action.fail kind expected state : Outcome α).Notes property := by
  refine .failed holds ⟨?_, notes.tooDeep⟩
  intro failure mem
  rcases Cursor.eq_or_mem_of_mem_keepFurthest mem with rfl | known
  · exact holds
  · exact notes.furthest failure known

/-- Whether everything that a rule may fail with from a state has a property. -/
def Rule.Failing (property : Failure → Prop) (rule : Rule α) (state : State) : Prop :=
  ∀ kind expected (mark : Mark), mark.extent = state.cursor.mark.extent →
    rule.Fails state.cursor.remaining kind expected mark.remaining →
      property ⟨kind, expected, mark.position⟩

namespace Action

/-- The alternatives of a choice are all tried from the same place, and so is the choice itself. -/
theorem notes_firstOf (expected : String) {alternatives : List (Action α)} {place : Mark}
    {places : List Mark} (keep : ∀ alternative ∈ alternatives, KeepsPlaces alternative)
    (each : ∀ alternative ∈ alternatives, ∀ state, state.cursor.mark = place →
      state.Notes property → (alternative state).Notes property)
    (none : property ⟨.grammar, .description expected, place.position⟩)
    (start : state.cursor.mark = place) (stack : state.cursor.checkpoints = place :: places)
    (notes : state.Notes property) : (firstOf expected alternatives state).Notes property := by
  induction alternatives generalizing state with
  | nil =>
      have dropped : state.dropCheckpoint.Notes property := ⟨notes.furthest, notes.tooDeep⟩
      refine dropped.fail ?_
      rw [← start] at none
      exact none
  | cons alternative others ih =>
      have attempt := each alternative (by simp) state start notes
      have kept := keep alternative (by simp) state
      simp only [firstOf]
      generalize alternative state = outcome at attempt kept ⊢
      cases attempt with
      | done later => exact .done ⟨later.furthest, later.tooDeep⟩
      | @failed failure after _ later =>
          have stackAfter := Eq.trans kept stack
          apply ih
          · intro other mem
            exact keep other (by simp [mem])
          · intro other mem
            exact each other (by simp [mem])
          · exact after.mark_restore stackAfter
          · exact stackAfter
          · exact ⟨later.furthest, later.tooDeep⟩

theorem notes_refuseNesting (notes : state.Notes property)
    (refusal : property (state.cursor.failure .lexical .shallowerNesting)) :
    (refuseNesting state : Outcome α).Notes property := by
  have noted : State.Notes property { state with
      tooDeep := state.tooDeep.or (some (state.cursor.failure .lexical .shallowerNesting)) } := by
    refine ⟨notes.furthest, ?_⟩
    intro failure mem
    rcases Option.or_eq_some_iff.1 mem with known | ⟨-, known⟩
    · exact notes.tooDeep failure known
    · cases known
      exact refusal
  exact noted.fail refusal

end Action

/-- Each attempt of a repetition begins behind the items that were read before it. -/
theorem Rule.notes_collect {rule : Rule α}
    (each : ∀ {state : State}, state.Notes property → rule.Failing property state →
      (rule.run state).Notes property)
    (notes : state.Notes property) (failing : (Rule.many rule).Failing property state) :
    (Action.collect rule.run state).2.Notes property := by
  induction length : state.remainingLength using Nat.strong_induction_on generalizing state with
  | _ count ih =>
      have saved : state.save.Notes property := ⟨notes.furthest, notes.tooDeep⟩
      have attempt := each saved fun kind expected mark extent fails =>
        failing kind expected mark extent ⟨[], _, .nil _, fails⟩
      rw [Action.collect]
      cases ran : rule.run state.save with
      | failed failure after =>
          rw [ran] at attempt
          cases attempt with
          | failed _ later => exact ⟨later.furthest, later.tooDeep⟩
      | done item after =>
          have found : rule.read state.save.cursor.remaining =
              some (item, after.cursor.remaining) := read_of_run_done ran
          have framed : Framed state.save after := framed_of_run_done ran
          rw [ran] at attempt
          cases attempt with
          | done later =>
              have next : after.dropCheckpoint.Notes property := ⟨later.furthest, later.tooDeep⟩
              by_cases shorter : after.dropCheckpoint.remainingLength < state.remainingLength
              · simp only [if_pos shorter]
                refine ih _ (length ▸ shorter) next ?_ rfl
                rintro kind expected mark extent ⟨items, middle, repeats, fails⟩
                exact failing kind expected mark (extent.trans framed.extent)
                  ⟨item :: items, middle, .cons found repeats, fails⟩
              · simp only [if_neg shorter]
                exact next

/-- What a rule records is what it may fail with. -/
theorem Rule.notes_of_failing (rule : Rule α) (notes : state.Notes property)
    (failing : rule.Failing property state) : (rule.run state).Notes property := by
  induction rule generalizing state with
  | pure value => exact .done notes
  | bind first next ihFirst ihNext =>
      have attempt := ihFirst notes fun kind expected mark extent fails =>
        failing kind expected mark extent (.inl fails)
      simp only [run, Action.andThen]
      cases ran : first.run state with
      | failed failure after =>
          rw [ran] at attempt
          cases attempt with
          | failed returned later => exact .failed returned later
      | done value after =>
          have found := read_of_run_done ran
          have framed := framed_of_run_done ran
          rw [ran] at attempt
          cases attempt with
          | done later =>
              apply ihNext value later
              intro kind expected mark extent fails
              exact failing kind expected mark (extent.trans framed.extent)
                (.inr ⟨value, _, found, fails⟩)
  | token terminal =>
      simp only [run, Action.take]
      cases recognized : terminal.recognize state.cursor.remaining with
      | found value length => exact .done ⟨notes.furthest, notes.tooDeep⟩
      | missing kind expected understood =>
          have moved : (state.mapCursor (Cursor.bump · understood)).Notes property :=
            ⟨notes.furthest, notes.tooDeep⟩
          exact moved.fail (failing kind expected _ (state.cursor.mark.extent_bump understood)
            ⟨understood, recognized, rfl⟩)
  | separator =>
      simp only [run, Action.separator]
      split_ifs
      · exact .done ⟨notes.furthest, notes.tooDeep⟩
      · exact .done notes
  | choice label alternatives ih =>
      have saved : state.save.Notes property := ⟨notes.furthest, notes.tooDeep⟩
      refine Action.notes_firstOf label ?_ ?_ ?_ rfl rfl saved
      · intro alternative mem
        rcases List.mem_ofFn.1 mem with ⟨index, rfl⟩
        exact (alternatives index).run_keepsPlaces
      · intro alternative mem other start otherNotes
        rcases List.mem_ofFn.1 mem with ⟨index, rfl⟩
        apply ih index otherNotes
        intro kind expected mark extent fails
        have remaining : other.cursor.remaining = state.cursor.remaining :=
          congrArg Mark.remaining start
        rw [remaining] at fails
        exact failing kind expected mark (extent.trans (congrArg Mark.extent start))
          (.inr ⟨index, fails⟩)
      · exact failing _ _ state.cursor.mark rfl (.inl ⟨rfl, rfl, rfl⟩)
  | optional rule ih =>
      have saved : state.save.Notes property := ⟨notes.furthest, notes.tooDeep⟩
      have attempt := ih saved failing
      simp only [run, Action.optional]
      generalize rule.run state.save = outcome at attempt ⊢
      cases attempt with
      | done later => exact .done ⟨later.furthest, later.tooDeep⟩
      | failed _ later => exact .done ⟨later.furthest, later.tooDeep⟩
  | many rule ih => exact .done (Rule.notes_collect ih notes failing)
  | nested rule ih =>
      have entered : state.enter.Notes property := ⟨notes.furthest, notes.tooDeep⟩
      have attempt := ih entered failing
      simp only [run, Action.nested]
      generalize rule.run state.enter = outcome at attempt ⊢
      cases attempt with
      | done later => exact .done ⟨later.furthest, later.tooDeep⟩
      | failed returned later => exact .failed returned ⟨later.furthest, later.tooDeep⟩
  | refuseNesting =>
      exact Action.notes_refuseNesting notes (failing _ _ state.cursor.mark rfl ⟨rfl, rfl, rfl⟩)

end ThriftIdl
