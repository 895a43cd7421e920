import ThriftIdl.Proofs.Grammar.Parallel
import ThriftIdl.Reading.Basic

/-!
# Parallel readings

Two readings that begin at corresponding places read the same declarations. If one of them stops
early, then so does the other one, and both blame the same failure at corresponding places.
-/

namespace ThriftIdl

namespace Correspondence

variable (correspondence : Correspondence)

/-- Whether two errors report the same failure at corresponding places. -/
inductive Errors : ParseError → ParseError → Prop where
  | report {nearSource farSource : List UInt8} {near far : Failure}
      (source : correspondence.source nearSource farSource)
      (failures : correspondence.Failures near far) :
      Errors (.ofFailure nearSource near) (.ofFailure farSource far)

/-- Whether the same declaration ends at corresponding places. -/
inductive Endings : Declaration × Nat → Declaration × Nat → Prop where
  | same (declaration : Declaration) {near far : Position}
      (position : correspondence.position near far) :
      Endings (declaration, near.offset) (declaration, far.offset)

/-- Whether the same was read at corresponding places. -/
structure Readings (near far : Reading) : Prop where
  declarations : List.Forall₂ correspondence.Endings near.declarations far.declarations
  error : Option.Rel correspondence.Errors near.error far.error

variable {correspondence} {near far : State}

theorem States.prepare (states : correspondence.States near far) :
    correspondence.States (Reading.prepare near) (Reading.prepare far) :=
  ⟨{ states.cursor with furthest := .none }, .none⟩

theorem States.blame (states : correspondence.States near far) {nearReturned farReturned : Failure}
    (returned : correspondence.Failures nearReturned farReturned) :
    correspondence.Failures (Reading.blame near nearReturned)
      (Reading.blame far farReturned) := by
  have tooDeep := states.tooDeep
  have furthest := states.cursor.furthest
  unfold Reading.blame
  generalize near.tooDeep = nearDeep at tooDeep ⊢
  generalize far.tooDeep = farDeep at tooDeep ⊢
  generalize near.cursor.furthest = nearFurthest at furthest ⊢
  generalize far.cursor.furthest = farFurthest at furthest ⊢
  cases tooDeep with
  | some deep => exact deep
  | none =>
      cases furthest with
      | some reached => exact reached
      | none => exact returned

theorem Outcomes.exists_of_done {α : Type} {value : α} {after : State} {other : Outcome α}
    (outcomes : correspondence.Outcomes (.done value after) other) :
    ∃ otherAfter, other = .done value otherAfter ∧ correspondence.States after otherAfter := by
  cases outcomes with
  | done _ states => exact ⟨_, rfl, states⟩

theorem Outcomes.exists_of_failed {α : Type} {failure : Failure} {after : State}
    {other : Outcome α} (outcomes : correspondence.Outcomes (.failed failure after) other) :
    ∃ otherFailure otherAfter, other = .failed otherFailure otherAfter ∧
      correspondence.Failures failure otherFailure ∧ correspondence.States after otherAfter := by
  cases outcomes with
  | failed failures states => exact ⟨_, _, rfl, failures, states⟩

/-- What is remembered of the declarations before plays no part. -/
theorem readings_ofState {rule : Rule Declaration} (tries : rule.Tries correspondence.knows)
    (states : correspondence.States (Reading.prepare near) (Reading.prepare far)) :
    correspondence.Readings (Reading.ofState rule near) (Reading.ofState rule far) := by
  have sameEnd : ∀ {near far : State},
      correspondence.States (Reading.prepare near) (Reading.prepare far) →
        far.cursor.atEnd = near.cursor.atEnd := fun states => states.cursor.atEnd_eq
  have sameLength : ∀ {near far : State},
      correspondence.States (Reading.prepare near) (Reading.prepare far) →
        far.remainingLength = near.remainingLength := fun states => states.remainingLength_eq
  fun_induction Reading.ofState rule near generalizing far with
  | case1 near atEnd =>
      rw [Reading.ofState, if_pos ((sameEnd states).trans atEnd)]
      exact ⟨.nil, .none⟩
  | case2 near notAtEnd returned after ran =>
      obtain ⟨returnedFar, afterFar, ranFar, failures, statesAfter⟩ :=
        (ran ▸ parallel_run tries states).exists_of_failed
      rw [Reading.ofState, if_neg (by rwa [sameEnd states]), ranFar]
      exact ⟨.nil, .some (.report statesAfter.cursor.source (statesAfter.blame failures))⟩
  | case3 near notAtEnd declaration after ran shorter later =>
      rename_i ih
      obtain ⟨afterFar, ranFar, statesAfter⟩ := (ran ▸ parallel_run tries states).exists_of_done
      have others := ih statesAfter.prepare
      have ending := Endings.same declaration
        (correspondence.position_of_mark statesAfter.cursor.mark)
      rw [Reading.ofState, if_neg (by rwa [sameEnd states]), ranFar]
      simp only [statesAfter.remainingLength_eq, sameLength states, if_pos shorter]
      exact ⟨.cons ending others.declarations, others.error⟩
  | case4 near notAtEnd declaration after ran notShorter =>
      obtain ⟨afterFar, ranFar, statesAfter⟩ := (ran ▸ parallel_run tries states).exists_of_done
      have ending := Endings.same declaration
        (correspondence.position_of_mark statesAfter.cursor.mark)
      rw [Reading.ofState, if_neg (by rwa [sameEnd states]), ranFar]
      simp only [statesAfter.remainingLength_eq, sameLength states, if_neg notShorter]
      exact ⟨.cons ending .nil, .none⟩

theorem Readings.map_fst_eq {near far : Reading} (readings : correspondence.Readings near far) :
    far.declarations.map Prod.fst = near.declarations.map Prod.fst := by
  have endings := readings.declarations
  generalize near.declarations = nearEndings at endings ⊢
  generalize far.declarations = farEndings at endings ⊢
  induction endings with
  | nil => rfl
  | cons first _ ih =>
      cases first
      exact congrArg (_ :: ·) ih

end Correspondence

end ThriftIdl
