import ThriftIdl.Proofs.Grammar.Declarations
import ThriftIdl.Proofs.Grammar.Failing

/-!
# Where nesting is refused

A refusal lies as deep as there is room: `Rule.Refuses` follows the constructors of a rule to the
places where it may refuse a value or a type, and counts the levels that are open there. For a value
these places lie behind opening brackets and braces and any number of items that were read
(`ValueWithin`), and for a type behind the words and brackets of containers (`TypeWithin`).

A failure that says that nesting is too deep was recorded in such a place (`Rule.notes_run`). The
failure remains when the rule goes on, even if a repetition has taken it for its end.
-/

namespace ThriftIdl

variable {α β : Type}

namespace Rule

/-! ### Refusals -/

/--
Whether reading from some bytes may come to a refusal with that many levels open, in front of the
given bytes.
-/
def Refuses : {α : Type} → Rule α → Nat → List UInt8 → List UInt8 → Prop
  | _, .pure _, _, _, _ => False
  | _, .bind first next, levels, bytes, place =>
    first.Refuses levels bytes place ∨
      ∃ value middle, first.read bytes = some (value, middle) ∧
        (next value).Refuses levels middle place
  | _, .token _, _, _, _ => False
  | _, .separator, _, _, _ => False
  | _, .choice _ alternatives, levels, bytes, place =>
    ∃ index, (alternatives index).Refuses levels bytes place
  | _, .optional rule, levels, bytes, place => rule.Refuses levels bytes place
  | _, .many rule, levels, bytes, place =>
    ∃ items middle, Repeats (fun bytes item rest => rule.read bytes = some (item, rest)) bytes
      items middle ∧ rule.Refuses levels middle place
  | _, .nested rule, levels, bytes, place =>
    ∃ fewer, levels = fewer + 1 ∧ rule.Refuses fewer bytes place
  | _, .refuseNesting, levels, bytes, place => levels = 0 ∧ place = bytes

variable {levels : Nat} {bytes place : List UInt8}

@[simp]
theorem refuses_oneOf {expected : String} {alternatives : List (Rule α)} :
    (oneOf expected alternatives).Refuses levels bytes place ↔
      ∃ rule ∈ alternatives, rule.Refuses levels bytes place := by
  simp [oneOf, Refuses, List.exists_mem_iff_get]

@[simp]
theorem refuses_separated {rule : Rule α} :
    (separated rule).Refuses levels bytes place ↔ rule.Refuses levels bytes place := by
  simp [separated, Refuses]

theorem Repeats.suffix {step : List UInt8 → α → List UInt8 → Prop}
    (shrinks : ∀ bytes item rest, step bytes item rest → rest <:+ bytes) {rest : List UInt8}
    {items : List α} (repeats : Repeats step bytes items rest) : rest <:+ bytes := by
  induction repeats with
  | nil bytes => exact List.suffix_rfl
  | cons first _ ih => exact ih.trans (shrinks _ _ _ first)

theorem Refuses.suffix {rule : Rule α} (refuses : rule.Refuses levels bytes place) :
    place <:+ bytes := by
  induction rule generalizing levels bytes with
  | pure value => cases refuses
  | bind first next ihFirst ihNext =>
      rcases refuses with refuses | ⟨value, middle, found, refuses⟩
      · exact ihFirst refuses
      · exact (ihNext value refuses).trans (first.read_suffix found)
  | token terminal => cases refuses
  | separator => cases refuses
  | choice expected alternatives ih =>
      rcases refuses with ⟨index, refuses⟩
      exact ih index refuses
  | optional rule ih => exact ih refuses
  | many rule ih =>
      rcases refuses with ⟨items, middle, repeats, refuses⟩
      exact (ih refuses).trans (repeats.suffix fun _ _ _ found => rule.read_suffix found)
  | nested rule ih =>
      rcases refuses with ⟨fewer, -, refuses⟩
      exact ih refuses
  | refuseNesting =>
      rcases refuses with ⟨-, rfl⟩
      exact List.suffix_rfl

/--
Whether something holds of every refusal inside the levels that a rule opens, and of those that it
makes without opening any.
-/
def EveryRefusal (holds : Nat → List UInt8 → List UInt8 → Prop) : {α : Type} → Rule α → Prop
  | _, .pure _ => True
  | _, .bind first next => first.EveryRefusal holds ∧ ∀ value, (next value).EveryRefusal holds
  | _, .token _ => True
  | _, .separator => True
  | _, .choice _ alternatives => ∀ index, (alternatives index).EveryRefusal holds
  | _, .optional rule => rule.EveryRefusal holds
  | _, .many rule => rule.EveryRefusal holds
  | _, .nested rule =>
    ∀ levels bytes place, rule.Refuses levels bytes place → holds (levels + 1) bytes place
  | _, .refuseNesting => ∀ bytes, holds 0 bytes bytes

section EveryRefusal

variable {holds : Nat → List UInt8 → List UInt8 → Prop}

@[simp]
theorem everyRefusal_oneOf {expected : String} {alternatives : List (Rule α)} :
    (oneOf expected alternatives).EveryRefusal holds ↔
      ∀ rule ∈ alternatives, rule.EveryRefusal holds := by
  simp [oneOf, EveryRefusal, List.forall_mem_iff_get]

@[simp]
theorem everyRefusal_separated {rule : Rule α} :
    (separated rule).EveryRefusal holds ↔ rule.EveryRefusal holds := by
  simp [separated, EveryRefusal]

/-- What holds of every refusal holds of those that are come to further on in the bytes. -/
theorem EveryRefusal.of_refuses {rule : Rule α} (every : rule.EveryRefusal holds)
    (further : ∀ {levels bytes middle place}, middle <:+ bytes → holds levels middle place →
      holds levels bytes place)
    (refuses : rule.Refuses levels bytes place) : holds levels bytes place := by
  induction rule generalizing bytes with
  | pure value => cases refuses
  | bind first next ihFirst ihNext =>
      rcases refuses with refuses | ⟨value, middle, found, refuses⟩
      · exact ihFirst every.1 refuses
      · exact further (first.read_suffix found) (ihNext value (every.2 value) refuses)
  | token terminal => cases refuses
  | separator => cases refuses
  | choice expected alternatives ih =>
      rcases refuses with ⟨index, refuses⟩
      exact ih index (every index) refuses
  | optional rule ih => exact ih every refuses
  | many rule ih =>
      rcases refuses with ⟨items, middle, repeats, refuses⟩
      have suffix := repeats.suffix fun _ _ _ found => rule.read_suffix found
      exact further suffix (ih every refuses)
  | nested rule ih =>
      rcases refuses with ⟨fewer, rfl, refuses⟩
      exact every fewer bytes place refuses
  | refuseNesting =>
      rcases refuses with ⟨rfl, rfl⟩
      exact every place

end EveryRefusal

end Rule

/-! ### Failures that are recorded -/

/-- No token is missed because of nesting. -/
theorem Token.expected_ne_shallowerNesting {token : Token α} {bytes : List UInt8}
    {kind : FailureKind} {expected : Expected} {understood : Nat}
    (missing : token.recognize bytes = .missing kind expected understood) :
    expected ≠ .shallowerNesting := by
  rintro rfl
  cases token <;>
    simp only [recognize, Lexeme.word, Lexeme.keyword, Lexeme.mark, Lexeme.hexadecimal,
      Lexeme.scientific, Lexeme.decimal, Lexeme.integer, Lexeme.quoted, Lexeme.malformed]
      at missing <;>
    grind

/-- A rule fails because of nesting only where it refuses something. -/
theorem Rule.Fails.refuses {rule : Rule α} {bytes place : List UInt8} {kind : FailureKind}
    (fails : rule.Fails bytes kind .shallowerNesting place) :
    kind = .lexical ∧ ∃ levels, rule.Refuses levels bytes place := by
  induction rule generalizing bytes with
  | pure value => cases fails
  | bind first next ihFirst ihNext =>
      rcases fails with fails | ⟨value, middle, found, fails⟩
      · rcases ihFirst fails with ⟨lexical, levels, refuses⟩
        exact ⟨lexical, levels, .inl refuses⟩
      · rcases ihNext value fails with ⟨lexical, levels, refuses⟩
        exact ⟨lexical, levels, .inr ⟨value, middle, found, refuses⟩⟩
  | token terminal =>
      rcases fails with ⟨understood, missing, -⟩
      exact absurd rfl (Token.expected_ne_shallowerNesting missing)
  | separator => cases fails
  | choice label alternatives ih =>
      rcases fails with ⟨-, differ, -⟩ | ⟨index, fails⟩
      · cases differ
      · rcases ih index fails with ⟨lexical, levels, refuses⟩
        exact ⟨lexical, levels, index, refuses⟩
  | optional rule ih => exact ih fails
  | many rule ih =>
      rcases fails with ⟨items, middle, repeats, fails⟩
      rcases ih fails with ⟨lexical, levels, refuses⟩
      exact ⟨lexical, levels, items, middle, repeats, refuses⟩
  | nested rule ih =>
      rcases ih fails with ⟨lexical, levels, refuses⟩
      exact ⟨lexical, levels + 1, levels, rfl, refuses⟩
  | refuseNesting =>
      rcases fails with ⟨lexical, -, rfl⟩
      exact ⟨lexical, 0, rfl, rfl⟩

section Notes

variable {property : Failure → Prop} {state : State}

/-- Whether all failures have a property that have nothing to do with nesting. -/
def Plain (property : Failure → Prop) : Prop :=
  ∀ kind expected position, expected ≠ .shallowerNesting → property ⟨kind, expected, position⟩

/-- Whether all refusals have a property that a rule may come to from a state. -/
def Rule.Refused (property : Failure → Prop) (rule : Rule α) (state : State) : Prop :=
  ∀ levels (mark : Mark), mark.extent = state.cursor.mark.extent →
    rule.Refuses levels state.cursor.remaining mark.remaining →
      property ⟨.lexical, .shallowerNesting, mark.position⟩

/--
What a rule records are failures that have nothing to do with nesting, and refusals in the places
where it may refuse.
-/
theorem Rule.notes_run (plain : Plain property) (rule : Rule α) (notes : state.Notes property)
    (refused : rule.Refused property state) : (rule.run state).Notes property := by
  refine rule.notes_of_failing notes fun kind expected mark extent fails => ?_
  by_cases isRefusal : expected = .shallowerNesting
  · subst isRefusal
    rcases fails.refuses with ⟨rfl, levels, refuses⟩
    exact refused levels mark extent refuses
  · exact plain kind expected mark.position isRefusal

end Notes

end ThriftIdl
