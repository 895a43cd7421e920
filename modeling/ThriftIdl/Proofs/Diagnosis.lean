import ThriftIdl.Proofs.Reading.Blame
import ThriftIdl.Proofs.Trace.Source

/-!
# Errors are about the right declaration

If a source cannot be read, then an attempt to read a declaration has failed. Either a keyword stands
where the attempt begins, and then the error lies behind this keyword and comes from the rule that
belongs to it; or there is no keyword, and then the error says so at this place. In which order the
kinds of declarations are tried makes no difference to any source.
-/

namespace ThriftIdl

namespace Grammar

variable {room : Nat}

/-- The rules in another order are the rules for the kinds in another order. -/
theorem exists_kinds_of_perm {order : List (Rule Declaration)}
    (perm : order.Perm (declarations room)) :
    ∃ kinds : List Kind, kinds.Perm Kind.all ∧ order = kinds.map (formOf room) := by
  have each : List.Forall₂ (fun rule kind => rule = formOf room kind) (declarations room) Kind.all :=
    List.forall₂_map_right_iff.1 (List.forall₂_same.2 fun _ _ => rfl)
  rcases List.perm_comp_forall₂ perm each with ⟨kinds, same, permKinds⟩
  refine ⟨kinds, permKinds, ?_⟩
  rw [← List.forall₂_map_right_iff, List.forall₂_eq_eq_eq] at same
  exact same

end Grammar

namespace Reading

variable {rule other : Rule Declaration}

/-- Two states between declarations are the same for what is read next if they are at one place. -/
theorem prepare_eq_of_samePlace {first second : State} (between : Between first)
    (otherBetween : Between second) (same : first.SamePlace second) :
    prepare first = prepare second := by
  rcases first with ⟨⟨source, mark, checkpoints, furthest⟩, tooDeep, depth⟩
  rcases second with ⟨⟨otherSource, otherMark, otherCheckpoints, otherFurthest⟩, otherTooDeep,
    otherDepth⟩
  cases between.checkpoints
  cases otherBetween.checkpoints
  cases same.source
  cases same.mark
  cases same.depth
  rfl

/-- Rules that always come to the same verdict read the same declarations and report the same error. -/
theorem ofState_congr
    (same : ∀ before, Between before →
      (rule.run (prepare before)).SameVerdict (other.run (prepare before)))
    {first second : State} (between : Between first) (otherBetween : Between second)
    (place : first.SamePlace second) : ofState rule first = ofState other second := by
  induction length : first.remainingLength using Nat.strong_induction_on
    generalizing first second with
  | _ count ih =>
      have atEnd : first.cursor.atEnd = second.cursor.atEnd :=
        congrArg List.isEmpty place.remaining
      have verdict := same first between
      have prepared := prepare_eq_of_samePlace between otherBetween place
      rw [ofState.eq_def rule first, ofState.eq_def other second, atEnd, ← prepared]
      split_ifs
      · rfl
      cases ran : rule.run (prepare first) with
      | failed returned after =>
          rw [ran] at verdict
          rcases verdict.exists_failed with ⟨otherReturned, otherAfter, otherRan, source, blamed⟩
          simp only [otherRan, source, blamed]
      | done declaration after =>
          rw [ran] at verdict
          rcases verdict.exists_done with ⟨otherAfter, otherRan, placeAfter⟩
          have betweenAfter := between.of_run_done ran
          have otherBetweenAfter := between.of_run_done otherRan
          have offset : after.cursor.offset = otherAfter.cursor.offset :=
            congrArg (fun mark : Mark => mark.position.offset) placeAfter.mark
          simp only [otherRan, ← placeAfter.remainingLength, ← place.remainingLength, offset]
          split_ifs with shorter
          · rw [ih _ (length ▸ shorter) betweenAfter otherBetweenAfter placeAfter rfl]
          · rfl

/-- In which order the kinds of declarations are tried does not matter. -/
theorem ofState_order {room : Nat} {expected : String} {kinds others : List Kind}
    (perm : kinds.Perm others) (nodup : others.Nodup) {state : State} (between : Between state) :
    ofState (Rule.oneOf expected (kinds.map (Grammar.formOf room))) state =
      ofState (Rule.oneOf expected (others.map (Grammar.formOf room))) state := by
  refine ofState_congr ?_ between between ⟨rfl, rfl, rfl⟩
  intro before betweenBefore
  by_cases standing : ∃ kind ∈ others, kind.StandsAt before.cursor.remaining
  · rcases standing with ⟨kind, mem, stands⟩
    refine (sameVerdict_of_standsAt betweenBefore (perm.nodup_iff.2 nodup) (perm.mem_iff.2 mem)
      stands).trans ?_
    exact (sameVerdict_of_standsAt betweenBefore nodup mem stands).symm
  · have missing : ∀ kind ∈ others, ¬kind.StandsAt before.cursor.remaining := by
      intro kind mem stands
      exact standing ⟨kind, mem, stands⟩
    refine (sameVerdict_of_not_standsAt betweenBefore fun kind mem =>
      missing kind (perm.mem_iff.1 mem)).trans ?_
    exact (sameVerdict_of_not_standsAt betweenBefore missing).symm

/-! ### The failed attempt -/

variable {attempt : Attempt}

theorem between_of_failedAttempt {state : State} (between : Between state)
    (failed : failedAttempt rule state = some attempt) : Between attempt.before :=
  before_of_failedAttempt (fun betweenBefore ran => betweenBefore.of_run_done ran) between failed

theorem sound_of_failedAttempt {source : List UInt8} {start : Nat} (wellFormed : rule.WellFormed)
    {state : State} (sound : state.Sound source start)
    (failed : failedAttempt rule state = some attempt) : attempt.before.Sound source start := by
  refine before_of_failedAttempt ?_ sound failed
  intro before after declaration soundBefore ran
  have soundPrepared := soundBefore.prepare
  have soundAfter := (rule.performs_trace wellFormed soundPrepared).sound soundPrepared
  rwa [ran] at soundAfter

namespace Attempt

/-- Whether the error of an attempt is that there is no keyword where the attempt begins. -/
structure LacksKeyword (attempt : Attempt) : Prop where
  position : attempt.reported.position = attempt.before.cursor.position
  kind : attempt.error.kind = .grammar
  message : attempt.error.message =
    "unexpected token, expected a declaration keyword, found " ++
      ParseError.found attempt.error.context.toList

/--
Whether the error of an attempt lies behind the keyword of a kind and is what would be reported if
only the rule for this kind were tried, which then records the failure. All other rules fail where
the attempt begins.
-/
structure BlamedOn (attempt : Attempt) (kind : Kind) : Prop where
  behind : attempt.before.cursor.offset + kind.keywordLength ≤ attempt.reported.position.offset
  recorded : ∃ returned after,
    (Grammar.formOf Grammar.maxNesting kind).run (prepare attempt.before) =
        .failed returned after ∧
      attempt.reported = blame after returned ∧
      (attempt.reported ∈ after.tooDeep ∨ attempt.reported ∈ after.cursor.furthest)
  others : ∀ other ≠ kind, (Grammar.formOf Grammar.maxNesting other).run (prepare attempt.before) =
    Action.fail .lexical (.keyword other.keyword) (prepare attempt.before)

end Attempt

theorem lacksKeyword_of_failed (between : Between attempt.before)
    (ran : (Grammar.declaration Grammar.maxNesting).run (prepare attempt.before) =
      .failed attempt.returned attempt.after)
    (missing : ∀ kind : Kind, ¬kind.StandsAt attempt.before.cursor.remaining) :
    attempt.LacksKeyword := by
  have verdict : ((Grammar.declaration Grammar.maxNesting).run
      (prepare attempt.before)).SameVerdict _ :=
    sameVerdict_of_not_standsAt between fun kind (_ : kind ∈ Kind.all) => missing kind
  rw [ran] at verdict
  rcases verdict.exists_failed with ⟨_, _, ⟨⟩, -, blamed⟩
  have reported : attempt.reported =
      unmatched "a declaration keyword" attempt.before.cursor.position := blamed
  refine ⟨congrArg Failure.position reported, ?_, ?_⟩
  · exact congrArg Failure.kind reported
  · unfold Attempt.error
    rw [reported, ParseError.ofFailure, String.toList_ofList]
    rfl

theorem blamedOn_of_failed (between : Between attempt.before)
    (ran : (Grammar.declaration Grammar.maxNesting).run (prepare attempt.before) =
      .failed attempt.returned attempt.after)
    {kind : Kind} (stands : kind.StandsAt attempt.before.cursor.remaining) :
    attempt.BlamedOn kind := by
  have verdict : ((Grammar.declaration Grammar.maxNesting).run
      (prepare attempt.before)).SameVerdict _ :=
    sameVerdict_of_standsAt between Kind.nodup_all kind.mem_all stands
  rw [ran] at verdict
  rcases verdict.exists_failed with ⟨returned, after, alone, -, blamed⟩
  have reported : attempt.reported = blame after returned := blamed
  have beyond := Grammar.beyond_run_formOf Grammar.maxNesting stands between
  rw [alone] at beyond
  have recorded := blame_mem alone
  rw [← reported] at recorded
  refine ⟨recorded.elim (beyond.tooDeep _) (beyond.furthest _),
    ⟨returned, after, alone, reported, recorded⟩, ?_⟩
  intro other differ
  apply Grammar.run_formOf_of_not_standsAt
  intro otherStands
  exact differ (otherStands.unique stands)

end Reading

namespace Document

/--
The document of a source from an offset on, or why it cannot be read, if a certain rule is the one
for declarations.
-/
def parseBy (rule : Rule Declaration) (source : String) (offset : Nat) :
    Except ParseError Document :=
  (Reading.ofState rule
    ((State.startAt (Utf8.encode source) offset).mapCursor Cursor.skipGap)).document

theorem parseFrom_eq_parseBy (source : String) (offset : Nat) :
    parseFrom source offset = parseBy (Grammar.declaration Grammar.maxNesting) source offset := rfl

/--
Errors are blamed on the right declaration. If the attempt to read a declaration fails where there is
no keyword, then the error is that there is none. If there is a keyword, it is the only one, and the
error lies behind it and comes from the rule for it. The order in which the nine rules are tried has
no influence on any document or error.
-/
theorem error_blamed_on_declaration :
    (∀ (source : String) (offset : Nat) (error : ParseError),
      parseFrom source offset = .error error →
        ∃ attempt, failedAttempt source offset = some attempt ∧ attempt.error = error ∧
          ((∀ kind : Kind,
            ¬kind.StandsAt ((Utf8.encode source).drop attempt.before.cursor.offset)) →
              attempt.LacksKeyword) ∧
          ∀ kind : Kind, kind.StandsAt ((Utf8.encode source).drop attempt.before.cursor.offset) →
            (∀ other : Kind,
              other.StandsAt ((Utf8.encode source).drop attempt.before.cursor.offset) →
                other = kind) ∧
            attempt.BlamedOn kind) ∧
    ∀ order : List (Rule Declaration), order.Perm (Grammar.declarations Grammar.maxNesting) →
      ∀ (source : String) (offset : Nat),
        parseBy (Rule.oneOf "a declaration keyword" order) source offset =
          parseFrom source offset := by
  have between (source : String) (offset : Nat) : Reading.Between
      ((State.startAt (Utf8.encode source) offset).mapCursor Cursor.skipGap) := ⟨rfl, rfl⟩
  constructor
  · intro source offset error failed
    rcases parseFrom_eq_error_iff.1 failed with ⟨attempt, isFailed, rfl⟩
    have sound := State.sound_startAt source offset
    have soundBefore := Reading.sound_of_failedAttempt
      (Grammar.wellFormed_declaration Grammar.maxNesting)
      ((Procedure.performs_skipGap sound).sound sound) isFailed
    have betweenBefore := Reading.between_of_failedAttempt (between source offset) isFailed
    have ran := Reading.run_of_failedAttempt isFailed
    refine ⟨attempt, isFailed, rfl, ?_⟩
    rw [← soundBefore.remaining]
    refine ⟨Reading.lacksKeyword_of_failed betweenBefore ran, ?_⟩
    intro kind stands
    exact ⟨fun other otherStands => otherStands.unique stands,
      Reading.blamedOn_of_failed betweenBefore ran stands⟩
  · intro order perm source offset
    rcases Grammar.exists_kinds_of_perm perm with ⟨kinds, permKinds, rfl⟩
    rw [parseFrom_eq_parseBy]
    exact congrArg Reading.document
      (Reading.ofState_order permKinds Kind.nodup_all (between source offset))

/--
Behind the keyword of the union a type is missing, whatever was tried before the union; and a word
that only begins with the keyword is none.
-/
theorem error_blamed_on_declaration_union :
    (∃ error attempt, parseFrom "enum A {} union U { 1: }" 0 = .error error ∧
      failedAttempt "enum A {} union U { 1: }" 0 = some attempt ∧
      attempt.before.cursor.offset = 10 ∧
      Kind.union.StandsAt ((Utf8.encode "enum A {} union U { 1: }").drop 10) ∧
      attempt.BlamedOn .union ∧
      (Grammar.declarations Grammar.maxNesting).reverse.Perm
        (Grammar.declarations Grammar.maxNesting) ∧
      parseBy (Rule.oneOf "a declaration keyword" (Grammar.declarations Grammar.maxNesting).reverse)
        "enum A {} union U { 1: }" 0 = .error error) ∧
    ∃ error attempt, parseFrom "enum A {} unions U {}" 0 = .error error ∧
      failedAttempt "enum A {} unions U {}" 0 = some attempt ∧
      attempt.before.cursor.offset = 10 ∧
      (∀ kind : Kind, ¬kind.StandsAt ((Utf8.encode "enum A {} unions U {}").drop 10)) ∧
      attempt.LacksKeyword := by
  constructor
  · have failed : parseFrom "enum A {} union U { 1: }" 0 =
        .error ⟨"unexpected token, expected a type, found `\x7d`", "\x7d", 1, .grammar⟩ := by
      decide +kernel
    have place : (failedAttempt "enum A {} union U { 1: }" 0).map
        (fun attempt => attempt.before.cursor.offset) = some 10 := by
      decide +kernel
    have stands : Kind.union.StandsAt ((Utf8.encode "enum A {} union U { 1: }").drop 10) := by
      decide +kernel
    have reversed := List.reverse_perm (Grammar.declarations Grammar.maxNesting)
    rcases error_blamed_on_declaration.1 _ _ _ failed with ⟨attempt, isFailed, -, -, blamed⟩
    rw [isFailed] at place
    have offset : attempt.before.cursor.offset = 10 := Option.some.inj place
    rw [offset] at blamed
    exact ⟨_, attempt, failed, isFailed, offset, stands, (blamed .union stands).2, reversed,
      (error_blamed_on_declaration.2 _ reversed _ _).trans failed⟩
  · have failed : parseFrom "enum A {} unions U {}" 0 =
        .error ⟨"unexpected token, expected a declaration keyword, found `u`", "unions U {}", 1,
          .grammar⟩ := by
      decide +kernel
    have place : (failedAttempt "enum A {} unions U {}" 0).map
        (fun attempt => attempt.before.cursor.offset) = some 10 := by
      decide +kernel
    have missing :
        ∀ kind : Kind, ¬kind.StandsAt ((Utf8.encode "enum A {} unions U {}").drop 10) := by
      intro kind
      cases kind <;> decide +kernel
    rcases error_blamed_on_declaration.1 _ _ _ failed with ⟨attempt, isFailed, -, lacks, -⟩
    rw [isFailed] at place
    have offset : attempt.before.cursor.offset = 10 := Option.some.inj place
    rw [offset] at lacks
    exact ⟨_, attempt, failed, isFailed, offset, missing, lacks missing⟩

end Document

end ThriftIdl
