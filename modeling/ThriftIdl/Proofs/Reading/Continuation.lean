import ThriftIdl.Proofs.Grammar.Shift
import ThriftIdl.Proofs.Reading.Parallel
import ThriftIdl.Proofs.Reading.Success

/-!
# Reading on

Nothing is remembered from one declaration to the next but the place: where reading has got to, it
goes on as if it had begun there. So the same is read whatever was read in front of it, and an error
says the same except for the line, which counts what is in front.
-/

namespace ThriftIdl

open Rule

/-- Whether two errors differ in nothing but the line. -/
structure ParseError.SameButLine (first second : ParseError) : Prop where
  message : second.message = first.message
  context : second.context = first.context
  kind : second.kind = first.kind

/-- Whether an error reports the same failure in a source with more text in front. -/
inductive ParseError.Shifted (front : Front) : ParseError → ParseError → Prop where
  | report {near far : Failure} (source : List UInt8) (failure : near.Shifted front far) :
      ParseError.Shifted front (ofFailure source near) (ofFailure (front.bytes ++ source) far)

namespace ParseError.Shifted

variable {front : Front} {near far : ParseError}

/-- A failure further on has the same bytes behind it, so its error says the same. -/
theorem sameButLine (shifted : near.Shifted front far) : near.SameButLine far := by
  obtain ⟨source, failure⟩ := shifted
  rename_i nearFailure farFailure
  have behind : (front.bytes ++ source).drop farFailure.position.offset =
      source.drop nearFailure.position.offset := by
    rw [failure.position.offset, Nat.add_comm, ← List.drop_drop, List.drop_left]
  have sameMessage : farFailure.message = nearFailure.message := by
    simp only [Failure.message, failure.kind, failure.expected]
  constructor
  · simp only [ofFailure, behind, sameMessage]
  · simp only [ofFailure, behind]
  · exact failure.kind

/-- The line of an error is the same if no line ending in front is counted. -/
theorem eq_of_uncounted (shifted : near.Shifted front far) (lineFeeds : front.lineFeeds = 0)
    (carriageReturns : front.carriageReturns = 0) : far = near := by
  have same := shifted.sameButLine
  have sameLine : far.line = near.line := by
    obtain ⟨source, failure⟩ := shifted
    have sameFeeds := failure.position.lineFeeds
    have sameReturns := failure.position.carriageReturns
    simp only [ofFailure, Position.line]
    omega
  cases near
  cases far
  simp only [mk.injEq]
  exact ⟨same.message, same.context, sameLine, same.kind⟩

end ParseError.Shifted

/-- Whether the same was read from a source with more text in front. -/
structure Reading.Shifted (front : Front) (near far : Reading) : Prop where
  declarations : far.declarations =
    near.declarations.map fun (declaration, finish) => (declaration, finish + front.bytes.length)
  error : Option.Rel (ParseError.Shifted front) near.error far.error

namespace Reading

variable {rule : Rule Declaration} {front : Front} {near far : State}

/-- A reading of the same bytes further on has everything in the same distance. -/
theorem shifted_of_readings {near far : Reading}
    (readings : front.correspondence.Readings near far) : near.Shifted front far := by
  obtain ⟨endings, errors⟩ := readings
  constructor
  · generalize near.declarations = nearEndings at endings ⊢
    generalize far.declarations = farEndings at endings ⊢
    induction endings with
    | nil => rfl
    | cons first _ ih =>
        obtain ⟨declaration, position⟩ := first
        have shifted : Position.Shifted front _ _ := position
        rw [List.map_cons, ih, shifted.offset]
  · generalize near.error = nearError at errors ⊢
    generalize far.error = farError at errors ⊢
    cases errors with
    | none => exact .none
    | some error =>
        obtain ⟨source, failures⟩ := error
        have behind : _ = front.bytes ++ _ := source
        subst behind
        exact .some (.report _ failures)

/-- Where the same bytes remain, the same is read. -/
theorem shifted_ofState (shifted : (prepare near).Shifted front (prepare far)) :
    (ofState rule near).Shifted front (ofState rule far) :=
  shifted_of_readings
    (Correspondence.readings_ofState (rule.tries_of_forall fun _ => trivial) shifted)

/-- Where the same bytes remain, reading ends with the same error or with none. -/
theorem ofState_shifted (shifted : (prepare near).Shifted front (prepare far)) :
    Option.Rel ParseError.SameButLine (ofState rule near).error (ofState rule far).error := by
  have alike := (@shifted_ofState rule _ _ _ shifted).error
  generalize (ofState rule near).error = nearError at alike ⊢
  generalize (ofState rule far).error = farError at alike ⊢
  cases alike with
  | some error => exact .some error.sameButLine
  | none => exact .none

/-- Reading gets through declarations and goes on behind them. -/
theorem exists_after_declarations (wellFormed : rule.WellFormed) (notNullable : ¬rule.Nullable)
    {state : State} {rest : List UInt8} {declarations : List Declaration}
    (repeats : Repeats (fun bytes item rest => rule.read bytes = some (item, rest))
      state.cursor.remaining declarations rest) :
    ∃ after, after.cursor.remaining = rest ∧ Framed state after ∧
      (ofState rule after).error = (ofState rule state).error := by
  generalize place : state.cursor.remaining = bytes at repeats
  induction repeats generalizing state with
  | nil bytes => exact ⟨state, place, .refl state, rfl⟩
  | @cons bytes middle rest item items found others ih =>
      have shorter : middle.length < bytes.length :=
        (consumes_of_read wellFormed notNullable found).shorter
      have foundThere : rule.read (prepare state).cursor.remaining = some (item, middle) :=
        (congrArg rule.read place).trans found
      obtain ⟨next, ran, nextPlace, framed⟩ := exists_run_of_read foundThere
      obtain ⟨after, afterPlace, afterFramed, same⟩ := ih nextPlace
      have framedNext : Framed state next :=
        ⟨framed.source, framed.checkpoints, framed.extent, framed.depth⟩
      refine ⟨after, afterPlace, framedNext.trans afterFramed, same.trans ?_⟩
      have notAtEnd : ¬state.cursor.atEnd = true := by
        intro atEnd
        have nothing : bytes = [] := place.symm.trans (List.isEmpty_iff.1 atEnd)
        exact absurd (nothing ▸ shorter) (Nat.not_lt_zero _)
      have progress : next.remainingLength < state.remainingLength := by
        change next.cursor.remaining.length < state.cursor.remaining.length
        rwa [nextPlace, place]
      rw [ofState.eq_def rule state, if_neg notAtEnd, ran]
      simp only [if_pos progress]

/-- An error is what one declaration is blamed for that begins where reading had got to. -/
theorem exists_failed_declaration {state : State} {error : ParseError}
    (failed : (ofState rule state).error = some error) :
    ∃ before returned after, Framed state before ∧
      before.cursor.remaining <:+ state.cursor.remaining ∧
        rule.run (prepare before) = .failed returned after ∧
          error = ParseError.ofFailure after.cursor.source (blame after returned) := by
  fun_induction ofState rule state with
  | case1 state atEnd => cases failed
  | case2 state notAtEnd returned after ran =>
      cases failed
      exact ⟨state, returned, after, .refl state, List.suffix_rfl, ran, rfl⟩
  | case3 state notAtEnd declaration next ran shorter later ih =>
      rcases ih failed with ⟨before, returned, after, framed, suffix, ranLater, blamed⟩
      have framedNext : Framed (prepare state) next := framed_of_run_done ran
      have suffixNext : next.cursor.remaining <:+ (prepare state).cursor.remaining :=
        rule.read_suffix (read_of_run_done ran)
      have framedHere : Framed state next :=
        ⟨framedNext.source, framedNext.checkpoints, framedNext.extent, framedNext.depth⟩
      exact ⟨before, returned, after, framedHere.trans framed, suffix.trans suffixNext, ranLater,
        blamed⟩
  | case4 state notAtEnd declaration next ran notShorter => cases failed

end Reading

end ThriftIdl
