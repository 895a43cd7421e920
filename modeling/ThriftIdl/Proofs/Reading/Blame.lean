import ThriftIdl.Proofs.Noninterference
import ThriftIdl.Proofs.Reading.Keyword
import ThriftIdl.Proofs.Reading.Past

/-!
# Which declaration is blamed

All kinds of declarations are tried at one place, and each attempt leaves failures behind. But where
a keyword stands, only the attempt of its kind goes on, so its failures lie further on than those of
all others: whatever the order of the kinds, the failure that is blamed is the one that would be
blamed if no other kind had been tried. Where no keyword stands, all attempts fail at the place where
they begin, and the choice itself is blamed there.
-/

namespace ThriftIdl

/--
Whether two attempts to read a declaration come to the same: they are done with one declaration at
one place, or one failure of one source is blamed for both.
-/
inductive Outcome.SameVerdict : Outcome Declaration → Outcome Declaration → Prop where
  | done (declaration : Declaration) {first second : State} (place : first.SamePlace second) :
      SameVerdict (.done declaration first) (.done declaration second)
  | failed {returned otherReturned : Failure} {first second : State}
      (source : first.cursor.source = second.cursor.source)
      (blame : Reading.blame first returned = Reading.blame second otherReturned) :
      SameVerdict (.failed returned first) (.failed otherReturned second)

namespace Outcome.SameVerdict

variable {first second third : Outcome Declaration}

theorem symm (same : first.SameVerdict second) : second.SameVerdict first := by
  cases same with
  | done declaration place => exact .done declaration place.symm
  | failed source blame => exact .failed source.symm blame.symm

theorem trans (same : first.SameVerdict second) (others : second.SameVerdict third) :
    first.SameVerdict third := by
  cases same with
  | done declaration place =>
      cases others with
      | done _ otherPlace => exact .done declaration (place.trans otherPlace)
  | failed source blame =>
      cases others with
      | failed otherSource otherBlame =>
          exact .failed (source.trans otherSource) (blame.trans otherBlame)

/-- What comes to the same as a failed attempt has failed, and one failure is blamed for both. -/
theorem exists_failed {returned : Failure} {after : State}
    (same : (Outcome.failed returned after).SameVerdict second) :
    ∃ otherReturned otherAfter, second = .failed otherReturned otherAfter ∧
      after.cursor.source = otherAfter.cursor.source ∧
      Reading.blame after returned = Reading.blame otherAfter otherReturned := by
  cases same with
  | failed source blame => exact ⟨_, _, rfl, source, blame⟩

/-- What comes to the same as a declaration is this declaration, and ends at the same place. -/
theorem exists_done {declaration : Declaration} {after : State}
    (same : (Outcome.done declaration after).SameVerdict second) :
    ∃ otherAfter, second = .done declaration otherAfter ∧ after.SamePlace otherAfter := by
  cases same with
  | done _ place => exact ⟨_, rfl, place⟩

end Outcome.SameVerdict

namespace Cursor

/-- A failure gives way to a later one as far, whether an earlier one is compared or not. -/
theorem keepFurthest_keepFurthest {furthest : Option Failure} {earlier later : Failure}
    (le : earlier.position.offset ≤ later.position.offset) :
    keepFurthest (keepFurthest furthest earlier) later = keepFurthest furthest later := by
  cases furthest <;> grind [keepFurthest]

end Cursor

namespace Reading

/-! ### One alternative after the other -/

/-- The state in which an alternative begins if these failures are remembered from the others. -/
def trying (before : State) (furthest tooDeep : Option Failure) : State :=
  ⟨{ before.cursor with checkpoints := [before.cursor.mark], furthest := furthest }, tooDeep,
    before.depth⟩

variable {before : State} {rule : Rule Declaration} {furthest tooDeep : Option Failure}

/-- Except for what is remembered, every alternative begins like the only one. -/
theorem trying_eq (between : Between before) (furthest tooDeep : Option Failure) :
    trying before furthest tooDeep =
      (prepare before).withPast ⟨[before.cursor.mark], furthest, tooDeep⟩ := by
  simp [trying, State.withPast, prepare, Cursor.clearFurthest, Cursor.furthestOf,
    between.checkpoints]

theorem run_oneOf_prepare (between : Between before) (expected : String)
    (rules : List (Rule Declaration)) :
    (Rule.oneOf expected rules).run (prepare before) =
      Action.firstOf expected (rules.map Rule.run) (trying before none none) := by
  have saved : (prepare before).save = trying before none none := by
    simp [trying, prepare, Cursor.clearFurthest, State.save, State.mapCursor, Cursor.save,
      between.checkpoints]
  rw [Rule.run_oneOf, Action.choice, saved]

/-- An alternative that fails adds its failures to those of the others. -/
theorem firstOf_trying_of_failed (between : Between before) {returned : Failure} {after : State}
    (ran : rule.run (prepare before) = .failed returned after) (expected : String)
    (others : List (Action Declaration)) :
    Action.firstOf expected (rule.run :: others) (trying before furthest tooDeep) =
      Action.firstOf expected others (trying before
        (Cursor.furthestOf furthest after.cursor.furthest) (tooDeep.or after.tooDeep)) := by
  have framed := Rule.framed_of_run_failed ran
  have restored : (after.withPast ⟨[before.cursor.mark], furthest, tooDeep⟩).restore =
      trying before (Cursor.furthestOf furthest after.cursor.furthest)
        (tooDeep.or after.tooDeep) := by
    have stack : after.cursor.checkpoints = [] := framed.checkpoints.trans between.checkpoints
    have source : after.cursor.source = before.cursor.source := framed.source
    have depth : after.depth = before.depth := framed.depth
    simp [State.restore, State.mapCursor, Cursor.restore, State.withPast, trying, stack, source,
      depth]
  rw [Action.firstOf, trying_eq between furthest tooDeep, rule.addsTo_run, ran]
  simp only [Outcome.mapState]
  rw [restored]

/-- An alternative that is done decides. -/
theorem firstOf_trying_of_done (between : Between before) {declaration : Declaration}
    {after : State} (ran : rule.run (prepare before) = .done declaration after)
    (expected : String) (others : List (Action Declaration)) :
    (Action.firstOf expected (rule.run :: others)
      (trying before furthest tooDeep)).SameVerdict (.done declaration after) := by
  rw [Action.firstOf, trying_eq between furthest tooDeep, rule.addsTo_run, ran]
  exact .done declaration ⟨rfl, rfl, rfl⟩

/-- The failure of a choice at a place where none of its alternatives matches. -/
def unmatched (expected : String) (position : Position) : Failure :=
  ⟨.grammar, .description expected, position⟩

/-- A choice without any more alternatives fails, and is blamed if no failure lies further on. -/
theorem exists_firstOf_nil (before : State) (expected : String)
    (furthest tooDeep : Option Failure) :
    ∃ after,
      (Action.firstOf expected [] (trying before furthest tooDeep) : Outcome Declaration) =
        .failed (unmatched expected before.cursor.position) after ∧
      after.cursor.source = before.cursor.source ∧
      blame after (unmatched expected before.cursor.position) =
        (tooDeep.or (Cursor.keepFurthest furthest
          (unmatched expected before.cursor.position))).getD
            (unmatched expected before.cursor.position) :=
  ⟨_, rfl, rfl, rfl⟩

/-! ### Missed keywords -/

section Kinds

variable {room : Nat} {expected : String} {kind : Kind} {kinds : List Kind}

/-- The furthest failure after the keywords of some kinds were missed at a place. -/
def missed (position : Position) (kinds : List Kind) (furthest : Option Failure) :
    Option Failure :=
  kinds.foldl (fun known kind =>
    Cursor.keepFurthest known ⟨.lexical, .keyword kind.keyword, position⟩) furthest

/-- Missed keywords do not matter if there is a later failure as far. -/
theorem keepFurthest_missed {position : Position} (kinds : List Kind) {failure : Failure}
    (le : position.offset ≤ failure.position.offset) (furthest : Option Failure) :
    Cursor.keepFurthest (missed position kinds furthest) failure =
      Cursor.keepFurthest furthest failure := by
  induction kinds generalizing furthest with
  | nil => rfl
  | cons kind others ih => exact (ih _).trans (Cursor.keepFurthest_keepFurthest le)

/-- A failure further on is the furthest one, whatever keywords were missed before and after it. -/
theorem keepFurthest_missed_around {position : Position} {failure : Failure}
    (further : position.offset < failure.position.offset) (front back : List Kind) :
    Cursor.keepFurthest
        (missed position back (Cursor.furthestOf (missed position front none) (some failure)))
        (unmatched expected position) = some failure := by
  have le : position.offset ≤ (unmatched expected position).position.offset := Nat.le_refl _
  have first : Cursor.furthestOf (missed position front none) (some failure) = some failure :=
    keepFurthest_missed front further.le none
  calc
    _ = Cursor.keepFurthest (some failure) (unmatched expected position) := by
      rw [first, keepFurthest_missed back le]
    _ = some failure := by simp [Cursor.keepFurthest, unmatched, Nat.not_le.2 further]

theorem firstOf_trying_missed (between : Between before)
    (missing : ∀ kind ∈ kinds, ¬kind.StandsAt before.cursor.remaining)
    (others : List (Action Declaration)) (furthest tooDeep : Option Failure) :
    Action.firstOf expected
        ((kinds.map (Grammar.formOf room)).map Rule.run ++ others)
        (trying before furthest tooDeep) =
      Action.firstOf expected others
        (trying before (missed before.cursor.position kinds furthest) tooDeep) := by
  induction kinds generalizing furthest with
  | nil => rfl
  | cons kind rest ih =>
      have ran := @Grammar.run_formOf_of_not_standsAt kind (prepare before) room
        (missing kind (by simp))
      have missingRest := fun other mem => missing other (List.mem_cons_of_mem kind mem)
      simp only [List.map_cons, List.cons_append]
      rw [firstOf_trying_of_failed between ran]
      change Action.firstOf expected _ (trying before _ (tooDeep.or none)) = _
      rw [Option.or_none]
      exact ih missingRest _

/-- Where no keyword stands, a choice comes to a failure of its own. -/
theorem sameVerdict_of_not_standsAt (between : Between before)
    (missing : ∀ kind ∈ kinds, ¬kind.StandsAt before.cursor.remaining) :
    ((Rule.oneOf expected (kinds.map (Grammar.formOf room))).run (prepare before)).SameVerdict
      (.failed (unmatched expected before.cursor.position) (prepare before)) := by
  rw [run_oneOf_prepare between, ← List.append_nil (List.map _ _),
    firstOf_trying_missed between missing]
  have ending := exists_firstOf_nil before expected (missed before.cursor.position kinds none) none
  rcases ending with ⟨after, ran, source, blamed⟩
  have le : before.cursor.position.offset ≤
      (unmatched expected before.cursor.position).position.offset := Nat.le_refl _
  rw [keepFurthest_missed kinds le] at blamed
  rw [ran]
  exact .failed source blamed

/-- Where a keyword stands, a choice comes to what the rule for its kind alone comes to. -/
theorem sameVerdict_of_standsAt (between : Between before) (nodup : kinds.Nodup)
    (mem : kind ∈ kinds) (stands : kind.StandsAt before.cursor.remaining) :
    ((Rule.oneOf expected (kinds.map (Grammar.formOf room))).run (prepare before)).SameVerdict
      ((Grammar.formOf room kind).run (prepare before)) := by
  rcases List.append_of_mem mem with ⟨front, back, rfl⟩
  have notOther : ∀ other ∈ front ++ back, ¬other.StandsAt before.cursor.remaining := by
    intro other isOther otherStands
    rw [otherStands.unique stands] at isOther
    exact (List.nodup_cons.1 (List.nodup_middle.1 nodup)).1 isOther
  have notFront := fun other isOther => notOther other (List.mem_append_left back isOther)
  have notBack := fun other isOther => notOther other (List.mem_append_right front isOther)
  rw [run_oneOf_prepare between]
  simp only [List.map_append, List.map_cons]
  rw [firstOf_trying_missed between notFront]
  have beyond := Grammar.beyond_run_formOf room stands between
  cases ran : (Grammar.formOf room kind).run (prepare before) with
  | done declaration after => exact firstOf_trying_of_done between ran expected _
  | failed returned after =>
      -- All others fail in front of the furthest failure of this one, so it stays the furthest.
      rw [ran] at beyond
      rcases Rule.reached_of_run_failed ran with ⟨failure, known, -⟩
      rw [Option.mem_def] at known
      have further : before.cursor.position.offset < failure.position.offset :=
        Nat.lt_of_lt_of_le (Nat.lt_add_of_pos_right kind.keywordLength_pos)
          (beyond.furthest failure known)
      have ending := exists_firstOf_nil before expected
        (missed before.cursor.position back
          (Cursor.furthestOf (missed before.cursor.position front none) (some failure)))
        after.tooDeep
      rcases ending with ⟨last, failed, source, blamed⟩
      rw [firstOf_trying_of_failed between ran, ← List.append_nil (List.map _ (List.map _ back)),
        firstOf_trying_missed between notBack, known, Option.none_or, failed]
      rw [keepFurthest_missed_around further] at blamed
      refine .failed (source.trans (Rule.framed_of_run_failed ran).source.symm) ?_
      rw [blamed, blame, known]
      cases after.tooDeep <;> rfl

end Kinds

end Reading

end ThriftIdl
