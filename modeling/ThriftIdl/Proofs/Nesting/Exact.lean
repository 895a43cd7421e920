import ThriftIdl.Proofs.Nesting.Cap
import ThriftIdl.Proofs.Nesting.Coincidence
import ThriftIdl.Proofs.Nesting.Unlimited

/-!
# The limit on nesting is exact

The limit refuses nothing but depth. A value is read under a limit exactly if it is read without one
and nests no deeper than the limit, and it ends at the same place.

That a shallow value is read under the limit is not clear from the refusals, as a repetition takes a
refusal for its end. But then its bracket would have to close there, and no value begins with a
closing bracket.
-/

namespace ThriftIdl

open Rule

variable {room larger : Nat} {value : Value} {bytes rest : List UInt8}

/-- A value that nests no deeper than a smaller limit is read under the smaller limit, too. -/
theorem SpellsValue.of_depth_le (spells : SpellsValue larger value bytes rest)
    (shallow : value.depth ≤ room) : SpellsValue room value bytes rest := by
  induction room generalizing larger value bytes rest with
  | zero => exact absurd (value.one_le_depth.trans shallow) (Nat.not_succ_le_zero 0)
  | succ room ih =>
      cases larger with
      | zero => exact spells.elim
      | succ larger =>
          refine SpellsForm.imp (fun shallower inside => ih inside ?_) spells
          exact Nat.le_of_lt_succ (shallower.trans_le shallow)

/-- A smaller limit takes away exactly the values that nest deeper. -/
theorem spellsValue_iff_of_le (le : room ≤ larger) :
    SpellsValue room value bytes rest ↔
      SpellsValue larger value bytes rest ∧ value.depth ≤ room := by
  constructor
  · intro spells
    exact ⟨spells.mono le, spells.wellFormed.shallow⟩
  · rintro ⟨spells, shallow⟩
    exact spells.of_depth_le shallow

/-- Whether an action is done with a value at a position. -/
def Action.EndsAt {α : Type} (action : Action α) (state : State) (value : α) (position : Position) :
    Prop :=
  ∃ after, action state = .done value after ∧ after.cursor.position = position

namespace Grammar

variable {state : State} {position : Position}

/-- Under two limits, a value that is read under both of them ends at one position. -/
theorem endsAt_of_read (ends : Action.EndsAt (Grammar.value room).run state value position)
    (found : (Grammar.value larger).read state.cursor.remaining = some (value, rest)) :
    Action.EndsAt (Grammar.value larger).run state value position := by
  rcases ends with ⟨after, ran, rfl⟩
  rcases exists_run_of_read found with ⟨last, otherRan, -⟩
  have same : last.SamePlace after :=
    coincide_value larger room ⟨rfl, rfl, rfl⟩ otherRan ran
  exact ⟨last, otherRan, congrArg Mark.position same.mark⟩

/-- Under a limit a value is read exactly if it is read without one and nests no deeper. -/
theorem endsAt_value_iff :
    Action.EndsAt (Grammar.value room).run state value position ↔
      Action.EndsAt Action.Unlimited.value state value position ∧ value.depth ≤ room := by
  -- under this limit nothing is refused, so it stands for the absence of a limit
  let unbounded := max room (state.remainingLength + 1)
  have enough : state.remainingLength < unbounded := Nat.le_max_right _ _
  have le : room ≤ unbounded := le_max_left _ _
  have unlimited : Action.EndsAt Action.Unlimited.value state value position ↔
      Action.EndsAt (Grammar.value unbounded).run state value position := by
    simp only [Action.EndsAt, Action.Unlimited.value_eq_run enough]
  rw [unlimited]
  constructor
  · rintro ⟨after, ran, atPosition⟩
    have spells := read_value_iff.1 (read_of_run_done ran)
    rcases (spellsValue_iff_of_le le).1 spells with ⟨spellsLarger, shallow⟩
    exact ⟨endsAt_of_read ⟨after, ran, atPosition⟩ (read_value_iff.2 spellsLarger), shallow⟩
  · rintro ⟨⟨after, ran, atPosition⟩, shallow⟩
    have spells := read_value_iff.1 (read_of_run_done ran)
    have spellsSmaller := (spellsValue_iff_of_le le).2 ⟨spells, shallow⟩
    exact endsAt_of_read ⟨after, ran, atPosition⟩ (read_value_iff.2 spellsSmaller)

/--
The limit on the nesting of values is exact. The rule without a limit is the one action that reads
itself inside its brackets. In a fresh state at any offset of any source, a value is read under the
limit and ends at some position exactly if the rule without a limit reads it and ends there, and the
value nests no deeper than the limit.
-/
theorem value_limit_exact :
    (∀ action, action = Action.Unlimited.valueOf action ↔ action = Action.Unlimited.value) ∧
    ∀ (source : String) (offset : Nat) (value : Value) (position : Position),
      Action.EndsAt (Grammar.value maxNesting).run (State.startAt (Utf8.encode source) offset) value
          position ↔
        Action.EndsAt Action.Unlimited.value (State.startAt (Utf8.encode source) offset) value
          position ∧ value.depth ≤ maxNesting := by
  constructor
  · intro action
    constructor
    · exact Action.Unlimited.eq_value_of_eq
    · rintro rfl
      exact Action.Unlimited.value_eq
  · intro source offset value position
    exact endsAt_value_iff

/-- At a limit of two levels, brackets around nothing take as much room as a pair around a number. -/
example : [((Grammar.value 2).run (State.startAt (Utf8.encode "[[]]") 0)).result.toOption,
      ((Grammar.value 2).run (State.startAt (Utf8.encode "[1]") 0)).result.toOption,
      ((Grammar.value 2).run (State.startAt (Utf8.encode "[[1]]") 0)).result.toOption] =
    [some (.list [.list []]), some (.list [.int 1]), none] := by decide +kernel

end Grammar

end ThriftIdl
