import ThriftIdl.Proofs.Backtracking
import ThriftIdl.Proofs.Grammar.First

/-!
# Values without a limit

`Grammar.value` is a family of rules, one for each number of levels. The rule without a limit is not
among them: inside its brackets it calls itself, and in a `Rule`, which is a tree, nothing does so.
So it is an action here, and `Action.Unlimited.valueOf` says what it does with the action that reads
the values inside.

Only one action does so with itself inside. Every level takes a byte before it reads another value,
so with room for more levels than bytes remain nothing is ever refused.
-/

namespace ThriftIdl

variable {α β : Type}

namespace Action

variable {bound : Nat}

/-- Whether two actions are the same in every state in which less than a number of bytes remains. -/
def SameBelow (bound : Nat) (first second : Action α) : Prop :=
  ∀ state : State, state.remainingLength < bound → first state = second state

/-- Whether at least as many bytes remain before an action as behind it. -/
def Shrinks (action : Action α) : Prop :=
  ∀ {state after : State} {value : α}, action state = .done value after →
    after.remainingLength ≤ state.remainingLength

theorem SameBelow.refl (bound : Nat) (action : Action α) : SameBelow bound action action :=
  fun _ _ => rfl

theorem SameBelow.andThen {first second : Action α} {next other : α → Action β}
    (same : SameBelow bound first second) (shrinks : Shrinks second)
    (sameNext : ∀ value, SameBelow bound (next value) (other value)) :
    SameBelow bound (Action.andThen first next) (Action.andThen second other) := by
  intro state below
  simp only [Action.andThen, same state below]
  cases ran : second state with
  | done value after => exact sameNext value after (Nat.lt_of_le_of_lt (shrinks ran) below)
  | failed failure after => rfl

theorem SameBelow.many {first second : Action α} (same : SameBelow bound first second) :
    SameBelow bound (Action.many first) (Action.many second) := by
  intro state below
  suffices collected : collect first state = collect second state by
    simp only [Action.many, collected]
  induction length : state.remainingLength using Nat.strong_induction_on generalizing state with
  | _ count ih =>
      have attempt : first state.save = second state.save := same state.save below
      rw [collect.eq_def first, collect.eq_def second, attempt]
      cases second state.save with
      | failed failure after => rfl
      | done item after =>
          by_cases shorter : after.dropCheckpoint.remainingLength < state.remainingLength
          · have later := ih _ (length ▸ shorter) after.dropCheckpoint (shorter.trans below) rfl
            simp only [if_pos shorter, later]
          · simp only [if_neg shorter]

/-- A token takes at least one byte. -/
theorem take_shorter {token : Token α} (plain : token.isPlain = true) {state after : State}
    {value : α} (ran : take token state = .done value after) :
    after.remainingLength < state.remainingLength := by
  have run : (Rule.token token).run state = .done value after := ran
  exact (Rule.consumes_token plain (Rule.read_of_run_done run)).shorter

/-- Behind a token only states count in which fewer bytes remain. -/
theorem andThen_take_congr {token : Token α} (plain : token.isPlain = true)
    {next other : α → Action β} {state : State}
    (same : ∀ value, SameBelow state.remainingLength (next value) (other value)) :
    andThen (take token) next state = andThen (take token) other state := by
  unfold andThen
  cases ran : take token state with
  | done value after => exact same value after (take_shorter plain ran)
  | failed failure after => rfl

/-- While alternatives are tried, as many bytes remain as at the place where all of them begin. -/
theorem firstOf_congr (expected : String) {firsts seconds : List (Action α)} {count : Nat}
    (same : List.Forall₂ (fun first second => ∀ state : State, state.remainingLength = count →
      first state = second state) firsts seconds)
    (keep : ∀ alternative ∈ seconds, KeepsPlaces alternative) {place : Mark} {places : List Mark}
    (size : place.remaining.length = count) {state : State}
    (stack : state.cursor.checkpoints = place :: places) (start : state.remainingLength = count) :
    firstOf expected firsts state = firstOf expected seconds state := by
  induction same generalizing state with
  | nil => rfl
  | @cons first second firsts seconds sameFirst _ ih =>
      have keepsSecond : KeepsPlaces second := keep second (by simp)
      simp only [firstOf, sameFirst state start]
      cases ran : second state with
      | done value after => rfl
      | failed failure after =>
          have stackAfter : after.cursor.checkpoints = place :: places :=
            (keepsSecond.of_failed ran).trans stack
          apply ih
          · intro other mem
            exact keep other (by simp [mem])
          · exact stackAfter
          · have back : after.restore.cursor.mark = place := after.mark_restore stackAfter
            rw [← size, ← back]
            rfl

end Action

theorem Rule.shrinks_run (rule : Rule α) : Action.Shrinks rule.run :=
  fun ran => (rule.read_suffix (read_of_run_done ran)).length_le

namespace Action.Unlimited

/-- Something with the separator that may follow it. -/
def separated (action : Action α) : Action α :=
  andThen action fun value => andThen separator fun _ => succeed value

/-- A list of values with optional separators. -/
def listOf (item : Action Value) : Action Value :=
  andThen (take (.mark Byte.openBracket)) fun _ =>
    andThen (many (separated item)) fun items =>
      andThen (take (.mark Byte.closeBracket)) fun _ => succeed (.list items)

/-- A key, a colon and a value. -/
def entryOf (item : Action Value) : Action (Value × Value) :=
  andThen item fun key =>
    andThen (take (.mark Byte.colon)) fun _ =>
      andThen item fun value => succeed (key, value)

/-- A map of values with optional separators. -/
def mapOf (item : Action Value) : Action Value :=
  andThen (take (.mark Byte.openBrace)) fun _ =>
    andThen (many (separated (entryOf item))) fun entries =>
      andThen (take (.mark Byte.closeBrace)) fun _ => succeed (.map entries)

/-- The forms of a value, in the order in which they are tried; `item` reads a value inside. -/
def valueForms (item : Action Value) : List (Action Value) :=
  [ (.int <$> .token .hexadecimal : Rule Value).run,
    (.double <$> .token .scientific : Rule Value).run,
    take .decimal,
    (.int <$> .token .integer : Rule Value).run,
    (.string <$> .token .string : Rule Value).run,
    Grammar.boolean.run,
    listOf item,
    mapOf item,
    (.reference <$> Grammar.reference : Rule Value).run ]

/-- A value one level deeper, with an action for the values inside. -/
def valueOf (item : Action Value) : Action Value :=
  nested (choice "a constant value" (valueForms item))

/-- The forms with a rule inside are the forms of the grammar. -/
theorem valueForms_run (rule : Rule Value) :
    valueForms rule.run = (Grammar.valueForms fun _ => rule).map Rule.run := rfl

/-- A value of the grammar has values of the grammar with one level less inside. -/
theorem valueOf_run_value (room : Nat) :
    valueOf (Grammar.value room).run = (Grammar.value (room + 1)).run := by
  have forms : List.ofFn (fun index => ((Grammar.valueForms fun _ => Grammar.value room).get
      index).run) = valueForms (Grammar.value room).run := rfl
  simp only [valueOf, Grammar.value, Rule.run, Rule.oneOf, forms]

theorem keepsPlaces_of_mem_valueForms {rule : Rule Value} {alternative : Action Value}
    (mem : alternative ∈ valueForms rule.run) : KeepsPlaces alternative := by
  rw [valueForms_run] at mem
  rcases List.mem_map.1 mem with ⟨form, -, rfl⟩
  exact form.run_keepsPlaces

/-- The rule for values that knows no limit. -/
def value : Action Value := fun state => (Grammar.value (state.remainingLength + 1)).run state

variable {item : Action Value} {rule : Rule Value} {state : State} {room larger : Nat}

/-! ### Values inside begin where fewer bytes remain -/

section Inside

variable (same : SameBelow state.remainingLength item rule.run)

include same

theorem listOf_congr : listOf item state = listOf rule.run state := by
  refine andThen_take_congr rfl fun _ => ?_
  have sameItem : SameBelow state.remainingLength (separated item) (separated rule.run) :=
    same.andThen rule.shrinks_run fun value => .refl _ _
  exact sameItem.many.andThen (Rule.many (.separated rule)).shrinks_run fun items => .refl _ _

theorem mapOf_congr : mapOf item state = mapOf rule.run state := by
  refine andThen_take_congr rfl fun _ => ?_
  have sameValue (key : Value) : SameBelow state.remainingLength
      (andThen item fun value => succeed (key, value))
      (andThen rule.run fun value => succeed (key, value)) :=
    same.andThen rule.shrinks_run fun value => .refl _ _
  have sameEntry : SameBelow state.remainingLength (entryOf item) (entryOf rule.run) := by
    refine same.andThen rule.shrinks_run fun key => ?_
    exact (SameBelow.refl _ (take (.mark Byte.colon))).andThen
      (Rule.mark Byte.colon).shrinks_run fun _ => sameValue key
  have sameSeparated : SameBelow state.remainingLength (separated (entryOf item))
      (separated (entryOf rule.run)) :=
    sameEntry.andThen (Grammar.entryOf rule).shrinks_run fun entry => .refl _ _
  exact sameSeparated.many.andThen (Rule.many (.separated (Grammar.entryOf rule))).shrinks_run
    fun entries => .refl _ _

/-- What a value is depends only on what is read inside where fewer bytes remain. -/
theorem valueOf_congr : valueOf item state = valueOf rule.run state := by
  have forms : List.Forall₂ (fun first second => ∀ other : State,
      other.remainingLength = state.remainingLength → first other = second other)
      (valueForms item) (valueForms rule.run) := by
    simp only [valueForms, List.forall₂_cons, List.Forall₂.nil, implies_true, true_and, and_true]
    constructor
    · intro other length
      exact listOf_congr (length ▸ same)
    · intro other length
      exact mapOf_congr (length ▸ same)
  have chosen : choice "a constant value" (valueForms item) state.enter =
      choice "a constant value" (valueForms rule.run) state.enter :=
    firstOf_congr "a constant value" forms (fun _ => keepsPlaces_of_mem_valueForms) rfl rfl rfl
  unfold valueOf nested
  rw [chosen]

end Inside

/-! ### The one action that calls itself inside -/

/-- With room for more levels than bytes remain, more room makes no difference. -/
theorem run_value_eq (enough : state.remainingLength < room)
    (enoughToo : state.remainingLength < larger) :
    (Grammar.value room).run state = (Grammar.value larger).run state := by
  induction room generalizing larger state with
  | zero => exact absurd enough (Nat.not_lt_zero _)
  | succ room ih =>
      obtain ⟨larger, rfl⟩ : ∃ less, larger = less + 1 := ⟨larger - 1, by omega⟩
      rw [← valueOf_run_value, ← valueOf_run_value]
      apply valueOf_congr
      intro inside fewer
      exact ih (by omega) (by omega)

/-- The rule without a limit is every rule of the grammar that has room enough. -/
theorem value_eq_run (enough : state.remainingLength < room) :
    value state = (Grammar.value room).run state :=
  run_value_eq (Nat.lt_succ_self _) enough

/-- The rule without a limit has itself inside. -/
theorem value_eq : value = valueOf value := by
  funext state
  have inside : SameBelow state.remainingLength value (Grammar.value state.remainingLength).run :=
    fun _ fewer => value_eq_run fewer
  rw [valueOf_congr inside, valueOf_run_value]
  rfl

/-- No other action has itself inside. -/
theorem eq_value_of_eq {action : Action Value} (itself : action = valueOf action) :
    action = value := by
  funext state
  induction length : state.remainingLength using Nat.strong_induction_on generalizing state with
  | _ count ih =>
      have inside : SameBelow state.remainingLength action
          (Grammar.value state.remainingLength).run := by
        intro other fewer
        rw [ih _ (length ▸ fewer) other rfl, value_eq_run fewer]
      rw [itself, valueOf_congr inside, valueOf_run_value]
      rfl

end Action.Unlimited

end ThriftIdl
