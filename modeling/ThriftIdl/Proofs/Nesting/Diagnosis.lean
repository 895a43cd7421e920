import ThriftIdl.Proofs.Concatenation
import ThriftIdl.Proofs.Grammar.Steps
import ThriftIdl.Proofs.Nesting.Cap
import ThriftIdl.Proofs.Nesting.Within
import ThriftIdl.Proofs.Reading.Attempt

/-!
# What a complaint about nesting means

If a source is refused because of too deep nesting, then at the reported place as many levels are
open as there may be. If a value or a type begins there, then it is one level too many: without the
limit it would be read, or it would fail somewhere behind that place.

But it is also possible that nothing begins there. The items of a list end with an attempt that
fails, and inside the deepest list that is allowed this attempt is refused. The refusal is remembered
although the list is read, and so it is reported if the same declaration fails later on, instead of
the failure that reached furthest.
-/

namespace ThriftIdl

open Rule

variable {α β : Type}

/-! ### Getting past a place -/

theorem State.Reached.mono {state : State} {offset further : Nat} (reached : state.Reached further)
    (le : offset ≤ further) : state.Reached offset := by
  rcases reached with ⟨failure, known, far⟩
  exact ⟨failure, known, le.trans far⟩

/-- Whether an action is done or has recorded a failure beyond an offset. -/
inductive Outcome.Passes (offset : Nat) : Outcome α → Prop where
  | done (value : α) (after : State) : Passes offset (.done value after)
  | failed (failure : Failure) {after : State} (reached : after.Reached (offset + 1)) :
      Passes offset (.failed failure after)

/-- Whether an action gets past a place whenever it begins there. -/
def Action.PassesFrom (place : Mark) (action : Action α) : Prop :=
  ∀ state : State, state.cursor.mark = place → (action state).Passes place.position.offset

variable {place : Mark}

/-- One alternative that gets past a place is enough, whether it is the one that decides or not. -/
theorem Action.passes_firstOf (expected : String) {alternatives : List (Action α)}
    {alternative : Action α} (mem : alternative ∈ alternatives)
    (passes : alternative.PassesFrom place)
    (keep : ∀ alternative ∈ alternatives, alternative.KeepsPlaces)
    (stepwise : ∀ alternative ∈ alternatives, alternative.Stepwise) {state : State}
    {places : List Mark} (start : state.cursor.mark = place)
    (stack : state.cursor.checkpoints = place :: places) :
    (firstOf expected alternatives state).Passes place.position.offset := by
  induction alternatives generalizing state with
  | nil => cases mem
  | cons first others ih =>
      simp only [firstOf]
      cases ran : first state with
      | done value after => exact .done value after.dropCheckpoint
      | failed failure after =>
          have keepOthers := fun other (isOther : other ∈ others) =>
            keep other (List.mem_cons_of_mem first isOther)
          have stepwiseOthers := fun other (isOther : other ∈ others) =>
            stepwise other (List.mem_cons_of_mem first isOther)
          have stackAfter : after.cursor.checkpoints = place :: places :=
            ((keep first List.mem_cons_self).of_failed ran).trans stack
          rcases List.mem_cons.1 mem with rfl | isOther
          · have passed := passes state start
            rw [ran] at passed
            cases passed with
            | failed _ reached =>
                have steps := stepwise_firstOf expected stepwiseOthers after.restore
                have reachedLater := State.Steps.reached (.head (.restore after) steps) reached
                change (firstOf expected others after.restore).Passes place.position.offset
                generalize firstOf expected others after.restore = outcome at reachedLater ⊢
                cases outcome with
                | done value last => exact .done value last
                | failed failure last => exact .failed failure reachedLater
          · exact ih isOther keepOthers stepwiseOthers (after.mark_restore stackAfter) stackAfter

namespace Rule

theorem passes_oneOf (expected : String) {forms : List (Rule α)} {form : Rule α}
    (mem : form ∈ forms) (passes : Action.PassesFrom place form.run) :
    Action.PassesFrom place (oneOf expected forms).run := by
  rintro state rfl
  rcases List.mem_iff_get.1 mem with ⟨index, rfl⟩
  apply Action.passes_firstOf expected (List.mem_ofFn.2 ⟨index, rfl⟩) passes
  · intro alternative isOne
    rcases List.mem_ofFn.1 isOne with ⟨other, rfl⟩
    exact (forms.get other).run_keepsPlaces
  · intro alternative isOne
    rcases List.mem_ofFn.1 isOne with ⟨other, rfl⟩
    exact (forms.get other).stepwise_run
  · rfl
  · rfl

theorem passes_nested {rule : Rule α} (passes : Action.PassesFrom place rule.run) :
    Action.PassesFrom place (Rule.nested rule).run := by
  intro state start
  have passed := passes state.enter start
  simp only [run, Action.nested]
  generalize rule.run state.enter = outcome at passed ⊢
  cases passed with
  | done value after => exact .done value after.leave
  | failed failure reached => exact .failed failure reached

/-- A rule that can be read at a place gets past it. -/
theorem passes_of_read {rule : Rule α} {result : α × List UInt8}
    (found : rule.read place.remaining = some result) : Action.PassesFrom place rule.run := by
  rintro state rfl
  rcases exists_run_of_read found with ⟨after, ran, -, -⟩
  rw [ran]
  exact .done result.1 after

theorem passes_map {rule : Rule α} {function : α → β} (passes : Action.PassesFrom place rule.run) :
    Action.PassesFrom place (function <$> rule : Rule β).run := by
  intro state start
  have passed := passes state start
  simp only [map_eq, run, Action.andThen]
  generalize rule.run state = outcome at passed ⊢
  cases passed with
  | done value after => exact .done (function value) after
  | failed failure reached => exact .failed failure reached

/-- A token that is missed is missed at the current place or behind the bytes that it has. -/
theorem reached_of_token_failed {token : Token α} {state after : State} {failure : Failure}
    (ran : (Rule.token token).run state = .failed failure after) {kind : FailureKind}
    {expected : Expected} {understood : Nat}
    (missing : token.recognize state.cursor.remaining = .missing kind expected understood) :
    after.Reached (state.cursor.offset + (state.cursor.remaining.take understood).length) := by
  simp only [run, Action.take, missing] at ran
  cases ran
  exact (state.mapCursor (Cursor.bump · understood)).reached_fail kind expected

/-- A token gets past a place if it is there, or if at least one byte of it is. -/
theorem passes_token {token : Token α}
    (understood : ∀ kind expected count,
      token.recognize place.remaining = .missing kind expected count →
        0 < (place.remaining.take count).length) :
    Action.PassesFrom place (Rule.token token).run := by
  rintro state rfl
  cases ran : (Rule.token token).run state with
  | done value after => exact .done value after
  | failed failure after =>
      rcases Token.read_eq_none_iff.1 (read_of_run_failed ran) with
        ⟨kind, expected, count, missing⟩
      have positive := understood kind expected count missing
      have reached := reached_of_token_failed ran missing
      exact .failed failure (reached.mono (Nat.add_le_add_left positive _))

/-- Brackets get past the place of the opening one, whatever is between them. -/
theorem passes_brackets {opening closing : UInt8} (item : Rule α) (make : List α → β)
    (head : place.remaining.head? = some opening) :
    Action.PassesFrom place (Rule.bind (mark opening) fun _ => .bind (.many item) fun items =>
      .bind (mark closing) fun _ => .pure (make items)).run := by
  rintro state rfl
  rcases List.head?_eq_some_iff.1 head with ⟨tail, bytes⟩
  have found : (mark opening).read state.cursor.remaining = some ((), Gap.rest tail) :=
    Token.read_mark_iff.2 ⟨tail, bytes, rfl⟩
  rcases exists_run_of_read found with ⟨inside, ran, behind, framed⟩
  have beyond : state.cursor.offset + 1 ≤ inside.cursor.offset := by
    have shorter := Gap.rest_length_le tail
    have extent := framed.extent
    have insideBytes : inside.cursor.mark.remaining = Gap.rest tail := behind
    simp only [Mark.extent, bytes, insideBytes, List.length_cons] at extent
    simp only [Cursor.offset]
    omega
  cases ranItems : (Rule.many item).run inside with
  | failed failure last => cases ranItems
  | done items last =>
      have further := offset_le_of_run_done ranItems
      simp only [run, Action.andThen] at ranItems ⊢
      simp only [ran, ranItems]
      cases ranClosing : (mark closing).run last with
      | done _ after => exact .done _ after
      | failed failure after =>
          rcases Token.read_eq_none_iff.1 (read_of_run_failed ranClosing) with
            ⟨kind, expected, count, missing⟩
          have reached := reached_of_token_failed ranClosing missing
          refine .failed failure (reached.mono ?_)
          exact (beyond.trans further).trans (Nat.le_add_right _ _)

end Rule

/-! ### What begins at a place -/

namespace Grammar

/-- Whether bytes begin like a value: with a byte of a name, a quote, a bracket, or a number. -/
def BeginsValue (bytes : List UInt8) : Prop :=
  bytes.head?.any Byte.isIdentifier = true ∨ bytes.head?.any Byte.isQuote = true ∨
    bytes.head? = some Byte.openBracket ∨ bytes.head? = some Byte.openBrace ∨
      bytes.head?.any Byte.isSign = true ∧
        ((bytes.drop 1).takeWhile Byte.isNumeral).any Byte.isDigit = true

/-- Whether bytes begin like a type, which is with a byte of a name. -/
def BeginsType (bytes : List UInt8) : Prop := bytes.head?.any Byte.isIdentifier = true

theorem exists_read_identifier {bytes : List UInt8}
    (name : bytes.head?.any Byte.isIdentifier = true) :
    ∃ first middle, identifier.read bytes = some (first, middle) := by
  cases bytes with
  | nil => cases name
  | cons byte tail =>
      have letter : Byte.isIdentifier byte = true := by simpa using name
      simp [identifier, Token.read, Token.recognize, Lexeme.word, letter]

/-- A name is a reference, however it goes on. -/
theorem exists_read_reference {bytes : List UInt8}
    (name : bytes.head?.any Byte.isIdentifier = true) :
    ∃ result, reference.read bytes = some result := by
  rcases exists_read_identifier name with ⟨first, middle, found⟩
  exact ⟨_, read_bind_of_some found⟩

theorem passes_string (quote : place.remaining.head?.any Byte.isQuote = true) :
    Action.PassesFrom place (Rule.token Token.string).run := by
  apply passes_token
  intro kind expected count missing
  generalize place.remaining = bytes at quote missing
  cases bytes with
  | nil => cases quote
  | cons byte tail =>
      have isQuote : Byte.isQuote byte = true := by simpa using quote
      simp only [Token.recognize, Lexeme.quoted, isQuote, if_true, Lexeme.malformed] at missing
      split at missing
      · cases missing
      · cases missing
        simp

theorem passes_decimal (sign : place.remaining.head?.any Byte.isSign = true)
    (digit : ((place.remaining.drop 1).takeWhile Byte.isNumeral).any Byte.isDigit = true) :
    Action.PassesFrom place (Rule.token Token.decimal).run := by
  apply passes_token
  intro kind expected count missing
  generalize place.remaining = bytes at sign digit missing
  cases bytes with
  | nil => cases sign
  | cons byte tail =>
      have length : Lexeme.signLength Byte.isSign (byte :: tail) = 1 := by
        simp only [Lexeme.signLength, sign, if_true]
      simp only [Token.recognize, Lexeme.decimal, length, digit, Lexeme.malformed,
        Bool.not_true, Bool.false_eq_true, if_false] at missing
      split at missing
      · cases missing
      · cases missing
        simp

/-- A value that begins at a place gets past it, even if nothing may be nested in it. -/
theorem passes_value (room : Nat) (begins : BeginsValue place.remaining) :
    Action.PassesFrom place (value (room + 1)).run := by
  apply passes_nested
  rcases begins with name | quote | bracket | brace | ⟨sign, digit⟩
  · rcases exists_read_reference name with ⟨result, found⟩
    have isForm : .reference <$> reference ∈ valueForms fun _ => value room := by simp [valueForms]
    exact passes_oneOf _ isForm (passes_map (passes_of_read found))
  · have isForm : .string <$> .token .string ∈ valueForms fun _ => value room := by
      simp [valueForms]
    exact passes_oneOf _ isForm (passes_map (passes_string quote))
  · have isForm : listOf (fun _ => value room) ∈ valueForms fun _ => value room := by
      simp [valueForms]
    exact passes_oneOf _ isForm (passes_brackets _ Value.list bracket)
  · have isForm : mapOf (fun _ => value room) ∈ valueForms fun _ => value room := by
      simp [valueForms]
    exact passes_oneOf _ isForm (passes_brackets _ Value.map brace)
  · have isForm : .token .decimal ∈ valueForms fun _ => value room := by simp [valueForms]
    exact passes_oneOf _ isForm (passes_decimal sign digit)

theorem passes_fieldType (room : Nat) (begins : BeginsType place.remaining) :
    Action.PassesFrom place (fieldType (room + 1)).run := by
  apply passes_nested
  rcases exists_read_identifier begins with ⟨first, middle, found⟩
  have isForm : .named <$> identifier ∈ typeForms fun _ => fieldType room := by simp [typeForms]
  exact passes_oneOf _ isForm (passes_map (passes_of_read found))

end Grammar

/-! ### The error -/

/-- No other failure is described by the words for too deep nesting. -/
theorem Failure.expected_eq_shallowerNesting {source : List UInt8} {failure : Failure}
    {found : String} (complains : (ParseError.ofFailure source failure).message =
      "maximum nesting depth exceeded" ++ found) : failure.expected = .shallowerNesting := by
  have letter := congrArg (fun text : String => text.toList.head?) complains
  rcases failure with ⟨kind, expected, position⟩
  cases expected with
  | shallowerNesting => rfl
  | _ => cases kind <;> simp [ParseError.ofFailure, Failure.message] at letter

/-- Whether a failure is no refusal, or lies as deep in the source as there may be levels. -/
def Failure.RefusedDeep (source : List UInt8) (failure : Failure) : Prop :=
  failure.expected = .shallowerNesting → failure.kind = .lexical ∧
    DeepWithin Grammar.maxNesting source (source.drop failure.position.offset)

theorem Failure.plain_refusedDeep (source : List UInt8) : Plain (Failure.RefusedDeep source) :=
  fun _ _ _ notRefusal isRefusal => absurd isRefusal notRefusal

/-- Whatever a declaration refuses lies as deep in the source as there may be levels. -/
theorem refused_refusedDeep {source : List UInt8} {state : State}
    (suffix : state.cursor.remaining <:+ source)
    (extent : state.cursor.mark.extent = source.length) :
    (Grammar.declaration Grammar.maxNesting).Refused (Failure.RefusedDeep source) state := by
  intro levels mark markExtent refuses _
  have place : mark.remaining = source.drop mark.position.offset :=
    Mark.remaining_eq_drop (refuses.suffix.trans suffix) (markExtent.trans extent)
  rcases deepWithin_of_refuses refuses with ⟨-, start, startSuffix, within⟩
  rw [place] at within
  exact ⟨rfl, start, startSuffix.trans suffix, within⟩

/--
Whether a place in a source lies as deep in a value or in a type as there may be levels. If another
value, or type, begins there, then without the limit it would be read, or it would fail behind that
place.
-/
inductive FullyNested (source : List UInt8) (place : Mark) : Prop where
  | value {start : List UInt8} (suffix : start <:+ source)
      (within : ValueWithin Grammar.maxNesting start place.remaining)
      (passes : Grammar.BeginsValue place.remaining →
        ∀ room, Action.PassesFrom place (Grammar.value (room + 1)).run) : FullyNested source place
  | type {start : List UInt8} (suffix : start <:+ source)
      (within : TypeWithin Grammar.maxNesting start place.remaining)
      (passes : Grammar.BeginsType place.remaining →
        ∀ room, Action.PassesFrom place (Grammar.fieldType (room + 1)).run) :
      FullyNested source place

namespace Document

/-- A complaint about too deep nesting is about a place with as many levels as there may be. -/
theorem parse_error_refusal {source : String} {error : ParseError} {found : String}
    (failed : parse source = .error error)
    (complains : error.message = "maximum nesting depth exceeded" ++ found) :
    ∃ position : Position,
      error = ParseError.ofFailure (Utf8.encode source) ⟨.lexical, .shallowerNesting, position⟩ ∧
      FullyNested (Utf8.encode source) ⟨position, (Utf8.encode source).drop position.offset⟩ := by
  rcases Reading.exists_failed_declaration (parse_eq_error_iff.1 failed) with
    ⟨before, returned, after, framed, suffix, ran, blamed⟩
  have suffixSource : before.cursor.remaining <:+ Utf8.encode source := by
    rw [remaining_opening] at suffix
    exact suffix.trans (Gap.rest_suffix _)
  have extent : before.cursor.mark.extent = (Utf8.encode source).length :=
    framed.extent.trans (extent_opening source)
  have fresh : (Reading.prepare before).Notes (Failure.RefusedDeep (Utf8.encode source)) :=
    ⟨nofun, nofun⟩
  have recorded := Rule.notes_run (Failure.plain_refusedDeep (Utf8.encode source))
    (Grammar.declaration Grammar.maxNesting) fresh (refused_refusedDeep suffixSource extent)
  rw [ran] at recorded
  have sameSource : after.cursor.source = Utf8.encode source :=
    (framed_of_run_failed ran).source.trans framed.source
  rw [sameSource] at blamed
  cases recorded with
  | failed holds notes =>
      have ofBlamed := Reading.blame_of_notes holds notes
      generalize Reading.blame after returned = failure at blamed ofBlamed
      rw [blamed] at complains
      have isRefusal := Failure.expected_eq_shallowerNesting complains
      rcases ofBlamed isRefusal with ⟨isLexical, start, startSuffix, within⟩
      rcases failure with ⟨kind, expected, position⟩
      cases isRefusal
      cases isLexical
      refine ⟨position, blamed, ?_⟩
      rcases within with within | within
      · exact .value startSuffix within fun begins room => Grammar.passes_value room begins
      · exact .type startSuffix within fun begins room => Grammar.passes_fieldType room begins

/-- The value of this constant nests one level too many. -/
theorem parse_error_refusal_lists :
    ∃ error found, parse ("const A a = " ++ String.ofList (List.replicate 65 '[')) = .error error ∧
      error.message = "maximum nesting depth exceeded" ++ found ∧
      ∃ position : Position,
        error = ParseError.ofFailure
          (Utf8.encode ("const A a = " ++ String.ofList (List.replicate 65 '[')))
          ⟨.lexical, .shallowerNesting, position⟩ ∧
        FullyNested (Utf8.encode ("const A a = " ++ String.ofList (List.replicate 65 '[')))
          ⟨position, (Utf8.encode ("const A a = " ++ String.ofList (List.replicate 65 '['))).drop
            position.offset⟩ := by
  have failed : parse ("const A a = " ++ String.ofList (List.replicate 65 '[')) =
      .error ⟨"maximum nesting depth exceeded, found `[`", "[", 1, .lexical⟩ := by
    decide +kernel
  have complains : "maximum nesting depth exceeded, found `[`" =
      "maximum nesting depth exceeded" ++ ", found `[`" := by decide
  exact ⟨_, _, failed, complains, parse_error_refusal failed complains⟩

end Document

namespace Grammar

/-- At a closing bracket no value begins, and none gets any further. -/
theorem not_passes_closeBracket (room : Nat) (position : Position) (tail : List UInt8) :
    ¬Action.PassesFrom ⟨position, Byte.closeBracket :: tail⟩ (value (room + 1)).run := by
  intro passes
  let place : Mark := ⟨position, Byte.closeBracket :: tail⟩
  let state : State := ⟨⟨[], place, [], none⟩, none, 0⟩
  have failed : ∃ failure after, (value (room + 1)).run state = .failed failure after ∧
      after.cursor.furthest = some ⟨.grammar, .description "a constant value", position⟩ := by
    refine ⟨_, _, rfl, ?_⟩
    simp [state, place, State.leave, State.dropCheckpoint, State.restore, State.save, State.enter,
      State.mapCursor, Cursor.bump, Cursor.fail, Cursor.failure, Cursor.position, Cursor.save,
      Cursor.restore, Cursor.dropCheckpoint, Cursor.keepFurthest, Mark.bump, Position.advance]
  rcases failed with ⟨failure, after, ran, furthest⟩
  have passed := passes state rfl
  rw [ran] at passed
  cases passed with
  | failed _ reached =>
      rcases reached with ⟨known, isKnown, far⟩
      rw [furthest] at isKnown
      cases isKnown
      exact absurd far (Nat.not_succ_le_self _)

end Grammar

namespace Document

/--
The default value is a list in a list, 64 levels in all, which is allowed. The declaration fails at
the exclamation mark, and with one level more it is blamed on that. But the attempt to read an item
in front of the first closing bracket was refused, so the error is about nesting and about the
bracket, where no value begins.
-/
theorem parse_error_refusal_of_closed_list :
    let source := "struct S \x7b 1: A a = " ++
      String.ofList (List.replicate 64 '[' ++ List.replicate 64 ']') ++ " ! \x7d"
    let place : Mark := ⟨⟨84, 0, 0⟩, (Utf8.encode source).drop 84⟩
    parse source = .error
        (ParseError.ofFailure (Utf8.encode source) ⟨.lexical, .shallowerNesting, place.position⟩) ∧
      parseWithin 65 source 0 = .error ⟨"expected `\x7d`, found `!`", "! \x7d", 1, .structural⟩ ∧
        ∀ room, ¬Action.PassesFrom place (Grammar.value (room + 1)).run := by
  intro source place
  refine ⟨by decide +kernel, by decide +kernel, ?_⟩
  intro room
  have bytes : place = ⟨⟨84, 0, 0⟩, Byte.closeBracket :: (Utf8.encode source).drop 85⟩ := by
    decide +kernel
  rw [bytes]
  exact Grammar.not_passes_closeBracket room _ _

end Document

end ThriftIdl
