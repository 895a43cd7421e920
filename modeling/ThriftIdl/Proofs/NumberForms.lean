import ThriftIdl.Proofs.Grammar.Consumption
import ThriftIdl.Proofs.Nesting.Exact

/-!
# Numbers as ids and as values

The number of an id and the number of a value are read by different forms. Among the forms of a value
a hexadecimal literal comes first, and whatever the form for decimal integers reads is read by an
earlier one: this form could be left out.

That no run could tell is shown for rules that go alike from one place, and such rules may replace
each other inside of others. An alternative of a choice needs to be looked at only where all the
alternatives before it are missing.
-/

namespace ThriftIdl

variable {α β : Type}

namespace Rule

/-- Whether two rules go alike from one place. -/
def Interchangeable (first second : Rule α) : Prop :=
  Action.Interchangeable first.run second.run

theorem interchangeable_refl (rule : Rule α) : rule.Interchangeable rule :=
  fun _ _ => rule.forgetful_run

namespace Interchangeable

variable {first second : Rule α}

theorem nested (alike : first.Interchangeable second) :
    (Rule.nested first).Interchangeable (Rule.nested second) :=
  Action.Interchangeable.nested alike

theorem bind {next other : α → Rule β} (alike : first.Interchangeable second)
    (alikeNext : ∀ value, (next value).Interchangeable (other value)) :
    (Rule.bind first next).Interchangeable (Rule.bind second other) :=
  Action.Interchangeable.andThen alike alikeNext

theorem separated (alike : first.Interchangeable second) :
    (Rule.separated first).Interchangeable (Rule.separated second) :=
  alike.bind fun _ => interchangeable_refl _

theorem many (alike : first.Interchangeable second) :
    (Rule.many first).Interchangeable (Rule.many second) :=
  Action.Interchangeable.many alike first.run_keepsPlaces second.run_keepsPlaces

end Interchangeable

/-! ### Alternatives -/

/-- Whether two lists of alternatives end alike where they are tried in front of some bytes. -/
def SameTrials (expected : String) (bytes : List UInt8) (first second : List (Rule α)) : Prop :=
  Action.SameTrials expected bytes (first.map run) (second.map run)

variable {expected : String} {bytes : List UInt8} {first second : Rule α}
  {others otherOthers : List (Rule α)}

theorem Interchangeable.oneOf {alternatives otherAlternatives : List (Rule α)}
    (trials : ∀ bytes, SameTrials expected bytes alternatives otherAlternatives) :
    (Rule.oneOf expected alternatives).Interchangeable (Rule.oneOf expected otherAlternatives) := by
  unfold Interchangeable
  rw [run_oneOf, run_oneOf]
  exact Action.SameTrials.choice trials

theorem SameTrials.cons (alike : first.Interchangeable second)
    (later : second.read bytes = none → SameTrials expected bytes others otherOthers) :
    SameTrials expected bytes (first :: others) (second :: otherOthers) := by
  refine Action.SameTrials.cons alike first.run_keepsPlaces second.run_keepsPlaces ?_
  rintro state failure after rfl failed
  exact later (read_of_run_failed failed)

theorem SameTrials.cons_same
    (later : first.read bytes = none → SameTrials expected bytes others otherOthers) :
    SameTrials expected bytes (first :: others) (first :: otherOthers) :=
  .cons (interchangeable_refl first) later

/-- An alternative that is missing may be left out. -/
theorem SameTrials.skip (missing : first.read bytes = none)
    (later : SameTrials expected bytes others otherOthers) :
    SameTrials expected bytes (first :: others) otherOthers := by
  intro one other trying
  rcases trying with ⟨same, rfl, ⟨places, stack⟩, otherStack⟩
  rw [← same.remaining] at missing
  have agree := run_agrees first one
  rw [missing] at agree
  rw [List.map_cons, Action.firstOf]
  generalize first.run one = outcome at agree
  cases agree with
  | @failed failure after framed =>
      have stackAfter := framed.checkpoints.trans stack
      have place : after.restore.SamePlace other :=
        ⟨framed.source.trans same.source, after.mark_restore stackAfter,
          framed.depth.trans same.depth⟩
      exact later ⟨place, rfl, ⟨places, stackAfter⟩, otherStack⟩

end Rule

open Rule

namespace Grammar

/-- A value if the form for decimal integers is left out. -/
def valueWithoutInteger : Nat → Rule Value
  | 0 => refuseNesting
  | room + 1 =>
    nested (oneOf "a constant value" ((valueForms fun _ => valueWithoutInteger room).eraseIdx 3))

variable {bytes rest : List UInt8} {item other : Rule Value}

theorem interchangeable_listOf (alike : item.Interchangeable other) :
    (listOf fun _ => item).Interchangeable (listOf fun _ => other) := by
  refine (interchangeable_refl (mark Byte.openBracket)).bind fun _ => ?_
  exact alike.separated.many.bind fun _ => interchangeable_refl _

theorem interchangeable_entryOf (alike : item.Interchangeable other) :
    (entryOf item).Interchangeable (entryOf other) := by
  refine alike.bind fun _ => ?_
  refine (interchangeable_refl (mark Byte.colon)).bind fun _ => ?_
  exact alike.bind fun _ => interchangeable_refl _

theorem interchangeable_mapOf (alike : item.Interchangeable other) :
    (mapOf fun _ => item).Interchangeable (mapOf fun _ => other) := by
  refine (interchangeable_refl (mark Byte.openBrace)).bind fun _ => ?_
  exact (interchangeable_entryOf alike).separated.many.bind fun _ => interchangeable_refl _

/-! ### Integers among the forms of a value -/

/-- Where an integer is found, a number in plain notation is found with the same bytes. -/
theorem decimal_of_integer {number : Int64} {length : Nat}
    (found : Lexeme.integer bytes = .found number length) :
    Lexeme.decimal bytes = .found (.int number) length := by
  rcases Lexeme.exists_spellsDecimal_of_integer found with
    ⟨literal, tail, integer, rfl, rfl, spells, ends, fits⟩
  exact spells.decimal_append ends (by rw [fits]; rfl)

/-- Where no number in plain notation is read, no integer is. -/
theorem read_integer_eq_none
    (missing : (Rule.token Token.decimal).read bytes = none) :
    (Value.int <$> Rule.token Token.integer).read bytes = none := by
  apply read_map_of_none
  cases found : Lexeme.integer bytes with
  | missing kind expected understood =>
      exact Token.read_eq_none_iff.2 ⟨kind, expected, understood, found⟩
  | found number length =>
      have plain := decimal_of_integer found
      rcases Token.read_eq_none_iff.1 missing with ⟨kind, expected, understood, absent⟩
      cases absent.symm.trans plain

/-- An integer in either base takes the same bytes as a value. -/
theorem exists_picks_of_read_integer {number : Int64}
    (found : integer.read bytes = some (number, rest)) :
    ∃ length, integer.PicksToken bytes number length ∧
      ∀ room, (value (room + 1)).PicksToken bytes (.int number) length := by
  rcases read_oneOf_cons_eq_some_iff.1 found with found | ⟨missing, found⟩
  · rcases Token.read_eq_some_iff.1 found with ⟨length, found, -⟩
    have picks : (Rule.token Token.hexadecimal).PicksToken bytes number length :=
      picksToken_token found
    exact ⟨length, picks.oneOf_head, fun room => picks_hexadecimal found⟩
  · rcases exists_mem_of_read_oneOf found with ⟨rule, mem, found⟩
    rcases List.mem_singleton.1 mem with rfl
    rcases Token.read_eq_some_iff.1 found with ⟨length, found, -⟩
    have picks : (Rule.token Token.integer).PicksToken bytes number length :=
      picksToken_token found
    refine ⟨length, .oneOf_tail missing picks.oneOf_head, fun room => ?_⟩
    rcases Lexeme.exists_spellsDecimal_of_integer found with
      ⟨literal, tail, integer, rfl, rfl, spells, ends, fits⟩
    exact spells.picks_value ends (by rw [fits]; rfl)

/-- Without the form for decimal integers, every value is read as with it. -/
theorem interchangeable_value (room : Nat) :
    (value room).Interchangeable (valueWithoutInteger room) := by
  induction room with
  | zero => exact interchangeable_refl _
  | succ room ih =>
      refine .nested (.oneOf fun bytes => ?_)
      refine .cons_same fun _ => .cons_same fun _ => .cons_same fun noDecimal => ?_
      refine .skip (read_integer_eq_none noDecimal) ?_
      refine .cons_same fun _ => .cons_same fun _ => ?_
      refine .cons (interchangeable_listOf ih) fun _ => ?_
      refine .cons (interchangeable_mapOf ih) fun _ => ?_
      exact .cons_same fun _ => Action.sameTrials_nil

/--
The numbers of values extend the numbers of ids, and one form of them is never needed. In a fresh
state at any offset of any source, what is read as an integer is read as this integer by the rule for
values, too, which ends at the same position. Wherever the fourth form of a value, the one for
decimal integers, reads something, one of the three forms before it does the same. So a value is
read, or missed, as if this form were left out, here and inside of lists and maps.
-/
theorem value_extends_integer :
    (∀ (source : List UInt8) (offset : Nat) (number : Int64) (position : Position),
      Action.EndsAt integer.run (State.startAt source offset) number position →
        Action.EndsAt (value maxNesting).run (State.startAt source offset) (.int number)
          position) ∧
    (∀ item, (valueForms item)[3]? = some (Value.int <$> .token .integer) ∧
      ∀ state result after, (Value.int <$> Rule.token .integer).run state = .done result after →
        ∃ form ∈ (valueForms item).take 3, form.run state = .done result after) ∧
    ∀ room state, ((value room).run state).SameEnd ((valueWithoutInteger room).run state) := by
  refine ⟨?_, ?_, ?_⟩
  · rintro source offset number _ ⟨after, ran, rfl⟩
    rcases exists_picks_of_read_integer (read_of_run_done ran) with ⟨length, picks, picksValue⟩
    rcases picks _ rfl with ⟨_, again, ends⟩
    rcases picksValue 63 _ rfl with ⟨last, ranValue, endsValue⟩
    cases ran.symm.trans again
    exact ⟨last, ranValue, congrArg Mark.position (endsValue.trans ends.symm)⟩
  · intro item
    refine ⟨rfl, fun state result after ran => ?_⟩
    rcases run_bind_eq_done_iff.1 ran with ⟨number, middle, ran, same⟩
    cases same
    rcases run_token_eq_done_iff.1 ran with ⟨length, found, rfl⟩
    have decimal := decimal_of_integer found
    exact ⟨.token .decimal, by simp [valueForms],
      run_token_eq_done_iff.2 ⟨length, decimal, rfl⟩⟩
  · intro room state
    exact interchangeable_value room ⟨rfl, rfl, rfl⟩

/-- A sign and a zero in front of an id are no matter to either rule, nor to an earlier form. -/
theorem value_extends_integer_seven :
    let state := State.startAt (Utf8.encode "+07 :") 0
    Action.EndsAt (value maxNesting).run state (.int 7) ⟨4, 0, 0⟩ ∧
      ∃ form ∈ (valueForms fun _ => value 63).take 3, ∃ after,
        form.run state = .done (.int 7) after := by
  intro state
  have front : state = State.startAt [0x2B, 0x30, 0x37, 0x20, 0x3A] 0 := by decide +kernel
  have ends : Action.EndsAt integer.run state 7 ⟨4, 0, 0⟩ := by
    rw [front]
    exact ⟨_, rfl, rfl⟩
  have ran : ∃ after, (Value.int <$> Rule.token .integer).run state = .done (.int 7) after := by
    rw [front]
    exact ⟨_, rfl⟩
  rcases ran with ⟨after, ran⟩
  rcases value_extends_integer with ⟨ofInteger, forms, -⟩
  rcases (forms fun _ => value 63).2 state _ after ran with ⟨form, mem, ranForm⟩
  exact ⟨ofInteger _ 0 7 _ ends, form, mem, after, ranForm⟩

end Grammar

end ThriftIdl
