import ThriftIdl.Proofs.Grammar.Declarations
import ThriftIdl.Proofs.Reading.Attempt
import ThriftIdl.Proofs.Trace.Run

/-!
# The keyword in front

At most one kind of declaration has its keyword at a place. The rules of all other kinds miss theirs
right there, and the rule of this kind goes on behind it. Since no rule goes back to where it has not
been, all failures of this rule then lie behind the keyword.
-/

namespace ThriftIdl

/-! ### Going on -/

namespace Mark

theorem offset_le_bump (mark : Mark) (count : Nat) :
    mark.position.offset ≤ (mark.bump count).position.offset := Nat.le_add_right _ _

theorem offset_le_skipGap (mark : Mark) : mark.position.offset ≤ mark.skipGap.position.offset := by
  have extent := mark.extent_skipGap
  have shorter : mark.skipGap.remaining.length ≤ mark.remaining.length := by
    rw [skipGap, Gap.remaining_skip]
    exact Gap.rest_length_le mark.remaining
  unfold Mark.extent at extent
  omega

end Mark

/-- Whether no place and no failure of a state lies in front of an offset. -/
abbrev State.Beyond (offset : Nat) (state : State) : Prop :=
  state.Everywhere fun position => offset ≤ position.offset

namespace State

variable {state next : State} {offset : Nat}

theorem Beyond.moved (beyond : state.Beyond offset) {mark : Mark}
    (onward : state.cursor.mark.position.offset ≤ mark.position.offset) :
    (state.mapCursor fun cursor => { cursor with mark := mark }).Beyond offset :=
  ⟨Nat.le_trans beyond.current onward, beyond.checkpoints, beyond.furthest, beyond.tooDeep⟩

theorem Step.beyond (step : state.Step next) (beyond : state.Beyond offset) :
    next.Beyond offset := by
  cases step with
  | @found _ _ _ _ length _ =>
      exact beyond.moved ((Mark.offset_le_bump _ length).trans (Mark.offset_le_skipGap _))
  | @missing _ _ _ kind expected understood _ =>
      exact (beyond.moved (Mark.offset_le_bump _ understood)).fail kind expected
  | separator =>
      exact beyond.moved ((Mark.offset_le_bump _ 1).trans (Mark.offset_le_skipGap _))
  | save =>
      refine ⟨beyond.current, ?_, beyond.furthest, beyond.tooDeep⟩
      intro mark mem
      rcases List.mem_cons.1 mem with rfl | mem
      · exact beyond.current
      · exact beyond.checkpoints mark mem
  | restore => exact State.Everywhere.restore beyond
  | dropCheckpoint =>
      refine ⟨beyond.current, ?_, beyond.furthest, beyond.tooDeep⟩
      intro mark mem
      exact beyond.checkpoints mark (List.mem_of_mem_tail mem)
  | enter => exact ⟨beyond.current, beyond.checkpoints, beyond.furthest, beyond.tooDeep⟩
  | leave => exact ⟨beyond.current, beyond.checkpoints, beyond.furthest, beyond.tooDeep⟩
  | exhausted => exact State.Everywhere.fail beyond _ _
  | refused =>
      exact State.Everywhere.fail (State.Everywhere.keepRefusal beyond) .lexical .shallowerNesting

theorem Steps.beyond (steps : state.Steps next) (beyond : state.Beyond offset) :
    next.Beyond offset := by
  induction steps with
  | refl => exact beyond
  | tail _ step ih => exact step.beyond ih

end State

/-! ### Keywords -/

namespace Kind

variable {kind other : Kind} {bytes : List UInt8}

/-- How many bytes the keyword of a kind has. -/
def keywordLength (kind : Kind) : Nat := (Utf8.encode kind.keyword).length

/-- Whether bytes begin with the keyword of a kind, and no byte of an identifier follows it. -/
def StandsAt (bytes : List UInt8) (kind : Kind) : Prop :=
  Utf8.encode kind.keyword <+: bytes ∧ Stops Byte.isIdentifier (bytes.drop kind.keywordLength)

instance : DecidablePred (StandsAt bytes) := fun kind =>
  inferInstanceAs (Decidable (Utf8.encode kind.keyword <+: bytes ∧
    (bytes.drop kind.keywordLength).head?.any Byte.isIdentifier = false))

theorem recognize_keyword (kind : Kind) (bytes : List UInt8) :
    (Token.keyword kind.keyword).recognize bytes =
      if kind.StandsAt bytes then .found kind.keyword kind.keywordLength
      else .missing .lexical (.keyword kind.keyword) 0 := by
  simp only [Token.recognize, Lexeme.keyword, Bool.and_eq_true, List.isPrefixOf_iff_prefix,
    Bool.not_eq_true']
  rfl

/-- No two keywords stand at one place. -/
theorem StandsAt.unique (stands : kind.StandsAt bytes) (otherStands : other.StandsAt bytes) :
    kind = other := by
  have spells {kind : Kind} (stands : kind.StandsAt bytes) :
      ∃ rest, SpellsName kind.keyword bytes rest := by
    rcases stands with ⟨⟨tail, rfl⟩, stops⟩
    rw [keywordLength, List.drop_left] at stops
    exact ⟨_, Token.isName_of_isPlain (Grammar.plain_keyword kind), tail, rfl, stops, rfl⟩
  rcases spells stands with ⟨rest, name⟩
  rcases spells otherStands with ⟨otherRest, otherName⟩
  exact Grammar.keyword_injective (name.unique otherName).1

theorem keywordLength_pos (kind : Kind) : 0 < kind.keywordLength := by
  cases kind <;> decide

end Kind

namespace Grammar

variable {room : Nat} {kind : Kind} {state : State}

/-- Where the keyword of a kind is missing, nothing else is looked for. -/
theorem run_formOf_of_not_standsAt (room : Nat)
    (missing : ¬kind.StandsAt state.cursor.remaining) :
    (formOf room kind).run state = Action.fail .lexical (.keyword kind.keyword) state := by
  rcases exists_formOf_eq room kind with ⟨next, form⟩
  rw [form]
  simp only [Rule.run, Rule.keyword, Action.andThen, Action.take, kind.recognize_keyword,
    if_neg missing]
  rfl

/-- Where the keyword of a kind stands and nothing is remembered, all failures lie behind it. -/
theorem beyond_run_formOf (room : Nat) (stands : kind.StandsAt state.cursor.remaining)
    (between : Reading.Between state) :
    ((formOf room kind).run (Reading.prepare state)).state.Beyond
      (state.cursor.offset + kind.keywordLength) := by
  rcases exists_formOf_eq room kind with ⟨next, form⟩
  have remaining : (Reading.prepare state).cursor.remaining = state.cursor.remaining := rfl
  rw [form]
  simp only [Rule.run, Rule.keyword, Action.andThen, Action.take, remaining,
    kind.recognize_keyword, if_pos stands]
  refine ((next kind.keyword).stepwise_run _).beyond ⟨?_, ?_, ?_, ?_⟩
  · refine Nat.le_trans (Nat.le_of_eq ?_) (Mark.offset_le_skipGap _)
    have fits : kind.keywordLength ≤ state.cursor.remaining.length := stands.1.length_le
    change _ = state.cursor.offset + (state.cursor.remaining.take kind.keywordLength).length
    rw [List.length_take_of_le fits]
  · intro mark mem
    change mark ∈ state.cursor.checkpoints at mem
    simp [between.checkpoints] at mem
  · intro failure mem
    cases mem
  · intro failure mem
    cases mem

end Grammar

end ThriftIdl
