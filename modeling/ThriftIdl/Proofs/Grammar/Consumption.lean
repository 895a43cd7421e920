import ThriftIdl.Proofs.Grammar.Integers
import ThriftIdl.Proofs.LongestGap
import ThriftIdl.Proofs.Nesting.Coincidence

/-!
# What a token takes

A rule that reads one token takes the bytes of this token and the longest gap behind it. Which
alternative of a choice found the token makes no difference: an alternative that is missing leaves
no trace in the place.
-/

namespace ThriftIdl

variable {α β : Type}

/-- Whether a token and the longest gap behind it stand between two places. -/
def Mark.PassesToken (before : Mark) (token : List UInt8) (after : Mark) : Prop :=
  ∃ tail gap, before.remaining = token ++ tail ∧
    Mark.PassesGap ⟨before.position.advance token.length, tail⟩ gap after

/-- Whether an action takes a token and the longest gap behind it, and has a value. -/
def Action.ReadsToken (action : Action α) (state : State) (token : List UInt8) (value : α) : Prop :=
  ∃ after, action state = .done value after ∧
    state.cursor.mark.PassesToken token after.cursor.mark

/-- Whether an action fails. -/
def Action.Fails (action : Action α) (state : State) : Prop :=
  ∃ failure after, action state = .failed failure after

theorem Mark.passesToken_bump {mark : Mark} {token tail : List UInt8}
    (front : mark.remaining = token ++ tail) :
    mark.PassesToken token (mark.bump token.length).skipGap := by
  have bumped : mark.bump token.length = ⟨mark.position.advance token.length, tail⟩ := by
    simp [Mark.bump, front]
  rw [bumped]
  rcases Mark.exists_passesGap_skipGap ⟨mark.position.advance token.length, tail⟩ with ⟨gap, passes⟩
  exact ⟨tail, gap, front, passes⟩

namespace Rule

/-- Whether a rule has a value in front of some bytes and takes so many of them, with the gap. -/
def PicksToken (rule : Rule α) (bytes : List UInt8) (value : α) (length : Nat) : Prop :=
  ∀ state : State, state.cursor.remaining = bytes →
    ∃ after, rule.run state = .done value after ∧
      after.cursor.mark = (state.cursor.mark.bump length).skipGap

variable {rule first : Rule α} {others : List (Rule α)} {expected : String}
  {bytes tail : List UInt8} {value : α} {length : Nat} {state : State}

theorem run_token_eq_done_iff {terminal : Token α} {after : State} :
    (Rule.token terminal).run state = .done value after ↔
      ∃ length, terminal.recognize state.cursor.remaining = .found value length ∧
        after = state.mapCursor fun cursor => (cursor.bump length).skipGap := by
  simp only [run, Action.take]
  cases terminal.recognize state.cursor.remaining with
  | found other length =>
      constructor
      · rintro ⟨⟩
        exact ⟨length, rfl, rfl⟩
      · rintro ⟨_, ⟨⟩, rfl⟩
        rfl
  | missing kind expected understood =>
      refine iff_of_false (fun ran => ?_) ?_
      · cases ran
      · rintro ⟨_, ⟨⟩, -⟩

theorem picksToken_token {terminal : Token α}
    (found : terminal.recognize bytes = .found value length) :
    (Rule.token terminal).PicksToken bytes value length := by
  rintro state rfl
  exact ⟨_, run_token_eq_done_iff.2 ⟨length, found, rfl⟩, rfl⟩

namespace PicksToken

theorem map (picks : rule.PicksToken bytes value length) (function : α → β) :
    (function <$> rule).PicksToken bytes (function value) length := by
  intro state front
  rcases picks state front with ⟨after, ran, ends⟩
  exact ⟨after, run_bind_eq_done_iff.2 ⟨value, after, ran, rfl⟩, ends⟩

/-- One level deeper, the same token is read. -/
theorem nested (picks : rule.PicksToken bytes value length) :
    (Rule.nested rule).PicksToken bytes value length := by
  intro state front
  rcases picks state.enter front with ⟨after, ran, ends⟩
  refine ⟨after.leave, ?_, ends⟩
  simp only [run, Action.nested, ran]

theorem oneOf_head (picks : first.PicksToken bytes value length) :
    (oneOf expected (first :: others)).PicksToken bytes value length := by
  rintro state rfl
  rcases picks state rfl with ⟨inside, firstRan, ends⟩
  have found : (oneOf expected (first :: others)).read state.cursor.remaining =
      some (value, inside.cursor.remaining) := read_oneOf_of_some (read_of_run_done firstRan)
  rcases exists_run_of_read found with ⟨after, ran, -⟩
  exact ⟨after, ran, (samePlace_of_run_oneOf ran firstRan).2.mark.trans ends⟩

theorem oneOf_tail (missing : first.read bytes = none)
    (picks : (oneOf expected others).PicksToken bytes value length) :
    (oneOf expected (first :: others)).PicksToken bytes value length := by
  rintro state rfl
  rcases picks state rfl with ⟨inside, othersRan, ends⟩
  have found := read_of_run_done othersRan
  rw [← read_oneOf_of_none missing] at found
  rcases exists_run_of_read found with ⟨after, ran, -⟩
  rcases exists_run_oneOf_of_none missing ran with ⟨last, lastRan, place⟩
  rw [othersRan] at lastRan
  cases lastRan
  exact ⟨after, ran, place.mark.trans ends⟩

theorem readsToken {token : List UInt8} (picks : rule.PicksToken (token ++ tail) value token.length)
    (front : state.cursor.remaining = token ++ tail) : rule.run.ReadsToken state token value := by
  rcases picks state front with ⟨after, ran, ends⟩
  refine ⟨after, ran, ?_⟩
  rw [ends]
  exact Mark.passesToken_bump front

end PicksToken

theorem fails_of_read (missing : rule.read state.cursor.remaining = none) :
    rule.run.Fails state := by
  cases ran : rule.run state with
  | done value after =>
      have found := read_of_run_done ran
      rw [missing] at found
      cases found
  | failed failure after => exact ⟨failure, after, ran⟩

end Rule

/-! ### Numbers as values -/

open Rule

variable {bytes tail : List UInt8} {room : Nat}

/-- Where a hexadecimal literal is found, it is a value. -/
theorem Grammar.picks_hexadecimal {number : Int64} {length : Nat}
    (found : Lexeme.hexadecimal bytes = .found number length) :
    (Grammar.value (room + 1)).PicksToken bytes (.int number) length := by
  have picks : (Rule.token Token.hexadecimal).PicksToken bytes number length :=
    picksToken_token found
  exact (picks.map Value.int).oneOf_head.nested

/-- A decimal literal is a value, which is an integer if it has 64 bits and a double otherwise. -/
theorem SpellsDecimal.picks_value {integer : Int} {literal : List UInt8} {value : Value}
    (spells : SpellsDecimal integer literal) (ends : EndsNumber tail)
    (number : ((Lexeme.int64? literal).map Value.int).or
      ((Binary64.ofLiteral? literal).map Value.double) = some value) :
    (Grammar.value (room + 1)).PicksToken (literal ++ tail) value literal.length := by
  have notHexadecimal : (Rule.token Token.hexadecimal).read (literal ++ tail) = none :=
    Token.read_eq_none_iff.2 ⟨_, _, _, spells.hexadecimal_append ends⟩
  have notScientific : (Rule.token Token.scientific).read (literal ++ tail) = none :=
    Token.read_eq_none_iff.2 ⟨_, _, _, spells.scientific_append ends⟩
  have picks : (Rule.token Token.decimal).PicksToken (literal ++ tail) value literal.length :=
    picksToken_token (spells.decimal_append ends number)
  refine .nested (.oneOf_tail (read_map_of_none notHexadecimal) ?_)
  refine .oneOf_tail (read_map_of_none notScientific) ?_
  exact picks.oneOf_head

end ThriftIdl
