import ThriftIdl.Proofs.Grammar.Values
import ThriftIdl.Proofs.Noninterference

/-!
# Where one value ends under several limits

What a rule reads fixes the bytes that remain, but not how many line endings were counted on the way
there, since a line ending inside a literal is not counted. So two rules that read one value from one
place need not end at one place. Two rules for values do, whatever their limits: they try the same
forms, and from the value it is clear which form was read, and what inside it.
-/

namespace ThriftIdl

variable {α β : Type}

namespace Rule

/-- Whether two rules that read one value from one place end at one place. -/
def Coincide (first second : Rule α) : Prop :=
  ∀ ⦃one other after last : State⦄ ⦃value : α⦄, one.SamePlace other →
    first.run one = .done value after → second.run other = .done value last → after.SamePlace last

theorem coincide_refl (rule : Rule α) : rule.Coincide rule := by
  intro one other after last value same ran otherRan
  have ends := rule.forgetful_run same
  rw [ran, otherRan] at ends
  exact ends.place

theorem Coincide.nested {first second : Rule α} (coincide : first.Coincide second) :
    (Rule.nested first).Coincide (Rule.nested second) := by
  intro one other after last value same ran otherRan
  simp only [run, Action.nested] at ran otherRan
  cases firstRan : first.run one.enter with
  | failed failure inside => rw [firstRan] at ran; cases ran
  | done inner inside =>
      cases secondRan : second.run other.enter with
      | failed failure otherInside => rw [secondRan] at otherRan; cases otherRan
      | done otherInner otherInside =>
          rw [firstRan] at ran
          rw [secondRan] at otherRan
          cases ran
          cases otherRan
          exact (coincide same.enter firstRan secondRan).leave

/-- The first parts may differ if it is clear from the whole what they read. -/
theorem Coincide.bind {first second : Rule α} {next other : α → Rule β}
    (coincide : first.Coincide second) (coincideNext : ∀ part, (next part).Coincide (other part))
    (clear : ∀ {part otherPart : α} {whole : β} {bytes rest otherBytes otherRest : List UInt8},
      (next part).read bytes = some (whole, rest) →
        (other otherPart).read otherBytes = some (whole, otherRest) → part = otherPart) :
    (Rule.bind first next).Coincide (Rule.bind second other) := by
  intro one another after last whole same ran otherRan
  rcases run_bind_eq_done_iff.1 ran with ⟨part, middle, firstRan, ran⟩
  rcases run_bind_eq_done_iff.1 otherRan with ⟨otherPart, otherMiddle, secondRan, otherRan⟩
  obtain rfl := clear (read_of_run_done ran) (read_of_run_done otherRan)
  exact coincideNext part (coincide same firstRan secondRan) ran otherRan

theorem Coincide.separated {first second : Rule α} (coincide : first.Coincide second) :
    (Rule.separated first).Coincide (Rule.separated second) := by
  refine coincide.bind (fun part => coincide_refl _) fun found otherFound => ?_
  rcases read_bind_eq_some_iff.1 found with ⟨-, -, -, ⟨⟩⟩
  rcases read_bind_eq_some_iff.1 otherFound with ⟨-, -, -, ⟨⟩⟩
  rfl

/-- After a failed attempt a run is at the place where the attempt began. -/
theorem samePlace_of_run_failed {rule : Rule α} {state after : State} {failure : Failure}
    (ran : rule.run state.save = .failed failure after) :
    after.restore.dropCheckpoint.SamePlace state := by
  have framed : Framed state.save after := framed_of_run_failed ran
  exact ⟨framed.source, framed.restore.1, framed.depth⟩

/-- The first item of a repetition is what its first attempt reads. -/
theorem head?_collect (action : Action α) (state : State) :
    (Action.collect action state).1.head? = (action state.save).result.toOption := by
  rw [Action.collect]
  cases action state.save with
  | failed failure after => rfl
  | done item after =>
      simp only
      split_ifs <;> rfl

theorem Coincide.many {first second : Rule α} (coincide : first.Coincide second) :
    (Rule.many first).Coincide (Rule.many second) := by
  suffices collected : ∀ {one other : State}, one.SamePlace other →
      (Action.collect first.run one).1 = (Action.collect second.run other).1 →
      (Action.collect first.run one).2.SamePlace (Action.collect second.run other).2 by
    intro one other after last items same ran otherRan
    rcases Outcome.done.inj ran with ⟨items, rfl⟩
    rcases Outcome.done.inj otherRan with ⟨otherItems, rfl⟩
    exact collected same (items.trans otherItems.symm)
  intro one other same sameItems
  induction length : other.remainingLength using Nat.strong_induction_on generalizing one other with
  | _ count ih =>
      have attempts : (first.run one.save).result.toOption =
          (second.run other.save).result.toOption := by
        rw [← head?_collect, ← head?_collect, sameItems]
      rw [Action.collect.eq_def first.run, Action.collect.eq_def second.run] at sameItems ⊢
      cases firstRan : first.run one.save with
      | failed failure after =>
          cases secondRan : second.run other.save with
          | failed otherFailure last =>
              have place := samePlace_of_run_failed firstRan
              exact place.trans (same.trans (samePlace_of_run_failed secondRan).symm)
          | done item last => rw [firstRan, secondRan] at attempts; cases attempts
      | done item after =>
          cases secondRan : second.run other.save with
          | failed otherFailure last => rw [firstRan, secondRan] at attempts; cases attempts
          | done otherItem last =>
              rw [firstRan, secondRan] at attempts
              obtain rfl : item = otherItem := Option.some.inj attempts
              have next : after.dropCheckpoint.SamePlace last.dropCheckpoint :=
                (coincide same.save firstRan secondRan).dropCheckpoint
              simp only [firstRan, secondRan, next.remainingLength, same.remainingLength]
                at sameItems ⊢
              by_cases shorter : last.dropCheckpoint.remainingLength < other.remainingLength
              · simp only [if_pos shorter, List.cons.injEq, true_and] at sameItems ⊢
                exact ih _ (length ▸ shorter) next sameItems rfl
              · simp only [if_neg shorter]
                exact next

/-! ### Alternatives -/

variable {expected : String} {first second : Rule α} {others otherOthers : List (Rule α)}

/-- The alternative that is read first decides where a choice ends. -/
theorem samePlace_of_run_oneOf {state inside after : State} {value inner : α}
    (ran : (oneOf expected (first :: others)).run state = .done value after)
    (firstRan : first.run state = .done inner inside) : value = inner ∧ after.SamePlace inside := by
  have saved : state.save.SamePlace state := ⟨rfl, rfl, rfl⟩
  have ends := first.forgetful_run saved
  rw [run_oneOf, List.map_cons, Action.choice, Action.firstOf] at ran
  rw [firstRan] at ends
  generalize first.run state.save = outcome at ran ends
  cases ends with
  | done _ place =>
      cases ran
      exact ⟨rfl, ⟨place.source, place.mark, place.depth⟩⟩

/-- After an alternative that is not there, a choice goes on as if it had not been tried. -/
theorem exists_run_oneOf_of_none {state after : State} {value : α}
    (missing : first.read state.cursor.remaining = none)
    (ran : (oneOf expected (first :: others)).run state = .done value after) :
    ∃ last, (oneOf expected others).run state = .done value last ∧ after.SamePlace last := by
  have agree := run_agrees first state.save
  change Agrees state.save _ (first.read state.cursor.remaining) at agree
  rw [missing] at agree
  rw [run_oneOf, List.map_cons, Action.choice, Action.firstOf] at ran
  rw [run_oneOf, Action.choice]
  generalize first.run state.save = outcome at agree ran
  cases agree with
  | @failed failure behind framed =>
      have place : behind.restore.SamePlace state.save :=
        ⟨framed.source, framed.restore.1, framed.depth⟩
      have trying : Action.Trying state.cursor.remaining behind.restore state.save :=
        ⟨place, rfl, ⟨_, framed.of_save⟩, ⟨_, rfl⟩⟩
      have ends : (Action.firstOf expected (others.map run) behind.restore).SameEnd
          (Action.firstOf expected (others.map run) state.save) := by
        refine Action.sameTrials_of_forgetful ?_ ?_ trying
        · intro alternative mem
          rcases List.mem_map.1 mem with ⟨rule, -, rfl⟩
          exact rule.forgetful_run
        · intro alternative mem
          rcases List.mem_map.1 mem with ⟨rule, -, rfl⟩
          exact rule.run_keepsPlaces
      simp only at ran
      rw [ran] at ends
      generalize Action.firstOf expected (others.map run) state.save = outcome at ends
      cases ends with
      | done _ sameLast => exact ⟨_, rfl, sameLast⟩

/--
Two choices coincide if their alternatives do one by one, and nothing that a first alternative reads
is read by a later one of the other choice where the first one there is missing.
-/
theorem Coincide.oneOf_cons (coincide : first.Coincide second)
    (coincideOthers : (oneOf expected others).Coincide (oneOf expected otherOthers))
    (apart : ∀ {bytes rest last : List UInt8} {value : α}, first.read bytes = some (value, rest) →
      second.read bytes = none → (oneOf expected otherOthers).read bytes ≠ some (value, last))
    (otherApart : ∀ {bytes rest last : List UInt8} {value : α},
      second.read bytes = some (value, rest) → first.read bytes = none →
        (oneOf expected others).read bytes ≠ some (value, last)) :
    (oneOf expected (first :: others)).Coincide (oneOf expected (second :: otherOthers)) := by
  intro one other after last value same ran otherRan
  have remaining := same.remaining
  cases firstRan : first.run one with
  | done inner inside =>
      rcases samePlace_of_run_oneOf ran firstRan with ⟨rfl, place⟩
      have found := read_of_run_done firstRan
      cases secondRan : second.run other with
      | done otherInner otherInside =>
          rcases samePlace_of_run_oneOf otherRan secondRan with ⟨rfl, otherPlace⟩
          exact place.trans ((coincide same firstRan secondRan).trans otherPlace.symm)
      | failed failure otherInside =>
          have missing := read_of_run_failed secondRan
          rcases exists_run_oneOf_of_none missing otherRan with ⟨_, otherRan, -⟩
          have foundLater := read_of_run_done otherRan
          rw [remaining] at found
          exact absurd foundLater (apart found missing)
  | failed failure inside =>
      have missing := read_of_run_failed firstRan
      rcases exists_run_oneOf_of_none missing ran with ⟨_, ran, place⟩
      cases secondRan : second.run other with
      | done otherInner otherInside =>
          have found := read_of_run_done secondRan
          have foundLater := read_of_run_done ran
          rcases samePlace_of_run_oneOf otherRan secondRan with ⟨rfl, -⟩
          rw [remaining] at missing foundLater
          exact absurd foundLater (otherApart found missing)
      | failed otherFailure otherInside =>
          have otherMissing := read_of_run_failed secondRan
          rcases exists_run_oneOf_of_none otherMissing otherRan with ⟨_, otherRan, otherPlace⟩
          exact place.trans ((coincideOthers same ran otherRan).trans otherPlace.symm)

/-- An alternative that both choices begin with cannot make a difference. -/
theorem Coincide.oneOf_cons_same
    (coincideOthers : (oneOf expected others).Coincide (oneOf expected otherOthers)) :
    (oneOf expected (first :: others)).Coincide (oneOf expected (first :: otherOthers)) := by
  refine (coincide_refl first).oneOf_cons coincideOthers ?_ ?_
  · intro bytes rest last value found missing
    rw [found] at missing
    cases missing
  · intro bytes rest last value found missing
    rw [found] at missing
    cases missing

end Rule

namespace Grammar

open Rule

variable {room larger : Nat} {bytes rest : List UInt8} {value : Value}

theorem coincide_listOf {item other : Rule Value} (coincide : item.Coincide other) :
    (listOf fun _ => item).Coincide (listOf fun _ => other) := by
  refine (coincide_refl (mark Byte.openBracket)).bind (fun _ => ?_) fun _ _ => rfl
  refine coincide.separated.many.bind (fun items => coincide_refl _) fun found otherFound => ?_
  rcases read_mark_bind_iff.1 found with ⟨_, -, ⟨⟩⟩
  rcases read_mark_bind_iff.1 otherFound with ⟨_, -, ⟨⟩⟩
  rfl

theorem coincide_entryOf {item other : Rule Value} (coincide : item.Coincide other) :
    (entryOf item).Coincide (entryOf other) := by
  refine coincide.bind (fun key => ?_) fun found otherFound => ?_
  · refine (coincide_refl (mark Byte.colon)).bind (fun _ => ?_) fun _ _ => rfl
    refine coincide.bind (fun value => coincide_refl _) fun found otherFound => ?_
    cases found
    cases otherFound
    rfl
  · rcases read_mark_bind_iff.1 found with ⟨_, -, found⟩
    rcases read_mark_bind_iff.1 otherFound with ⟨_, -, otherFound⟩
    rcases read_bind_eq_some_iff.1 found with ⟨_, _, -, ⟨⟩⟩
    rcases read_bind_eq_some_iff.1 otherFound with ⟨_, _, -, ⟨⟩⟩
    rfl

theorem coincide_mapOf {item other : Rule Value} (coincide : item.Coincide other) :
    (mapOf fun _ => item).Coincide (mapOf fun _ => other) := by
  refine (coincide_refl (mark Byte.openBrace)).bind (fun _ => ?_) fun _ _ => rfl
  refine (coincide_entryOf coincide).separated.many.bind (fun entries => coincide_refl _)
    fun found otherFound => ?_
  rcases read_mark_bind_iff.1 found with ⟨_, -, ⟨⟩⟩
  rcases read_mark_bind_iff.1 otherFound with ⟨_, -, ⟨⟩⟩
  rfl

theorem exists_list_of_read {item : Unit → Rule Value}
    (found : (listOf item).read bytes = some (value, rest)) : ∃ items, value = .list items := by
  rcases read_mark_bind_iff.1 found with ⟨_, -, found⟩
  rcases read_bind_eq_some_iff.1 found with ⟨items, _, -, found⟩
  rcases read_mark_bind_iff.1 found with ⟨_, -, ⟨⟩⟩
  exact ⟨items, rfl⟩

theorem exists_map_of_read {item : Unit → Rule Value}
    (found : (mapOf item).read bytes = some (value, rest)) : ∃ entries, value = .map entries := by
  rcases read_mark_bind_iff.1 found with ⟨_, -, found⟩
  rcases read_bind_eq_some_iff.1 found with ⟨entries, _, -, found⟩
  rcases read_mark_bind_iff.1 found with ⟨_, -, ⟨⟩⟩
  exact ⟨entries, rfl⟩

theorem exists_reference_of_read {expected : String}
    (found : (oneOf expected [.reference <$> reference]).read bytes = some (value, rest)) :
    ∃ segments, value = .reference segments := by
  rcases exists_mem_of_read_oneOf found with ⟨rule, mem, found⟩
  rcases List.mem_singleton.1 mem with rfl
  rcases read_bind_eq_some_iff.1 found with ⟨segments, _, -, ⟨⟩⟩
  exact ⟨segments, rfl⟩

/-- Under all limits, one value that is read from one place ends at one place. -/
theorem coincide_value (room larger : Nat) :
    (Grammar.value room).Coincide (Grammar.value larger) := by
  induction room generalizing larger with
  | zero =>
      intro one other after last value same ran
      cases ran
  | succ room ih =>
      cases larger with
      | zero =>
          intro one other after last value same ran otherRan
          cases otherRan
      | succ larger =>
          have inside : (Grammar.value room).Coincide (Grammar.value larger) := ih larger
          apply Coincide.nested
          iterate 6 apply Coincide.oneOf_cons_same
          have references := coincide_refl (oneOf "a constant value" [Value.reference <$> reference])
          have maps : (oneOf "a constant value" [mapOf fun _ => Grammar.value room,
              Value.reference <$> reference]).Coincide (oneOf "a constant value"
                [mapOf fun _ => Grammar.value larger, Value.reference <$> reference]) := by
            refine (coincide_mapOf inside).oneOf_cons references ?_ ?_
            all_goals
              intro bytes rest last value found missing later
              rcases exists_map_of_read found with ⟨entries, rfl⟩
              rcases exists_reference_of_read later with ⟨segments, ⟨⟩⟩
          refine (coincide_listOf inside).oneOf_cons maps ?_ ?_
          all_goals
            intro bytes rest last value found missing later
            rcases exists_list_of_read found with ⟨items, rfl⟩
            rcases read_oneOf_cons_eq_some_iff.1 later with later | ⟨-, later⟩
            · rcases exists_map_of_read later with ⟨entries, ⟨⟩⟩
            · rcases exists_reference_of_read later with ⟨segments, ⟨⟩⟩

end Grammar

end ThriftIdl
