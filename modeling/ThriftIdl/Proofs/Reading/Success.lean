import ThriftIdl.Proofs.Grammar.First
import ThriftIdl.Reading.Basic

/-!
# Sources that can be read

A source has a document exactly if its bytes behind the first gap are declarations, one after the
other, up to the end. The document is then the fold over these declarations.
-/

namespace ThriftIdl

open Rule

namespace Reading

/-- Reading ends without an error exactly if the remaining bytes are declarations and no more. -/
theorem ofState_succeeds_iff {rule : Rule Declaration} (wellFormed : rule.WellFormed)
    (notNullable : ¬rule.Nullable) {state : State} {declarations : List Declaration} :
    (ofState rule state).error = none ∧
        (ofState rule state).declarations.map Prod.fst = declarations ↔
      Repeats (fun bytes item rest => rule.read bytes = some (item, rest))
        state.cursor.remaining declarations [] := by
  have shrinks : ∀ {bytes rest : List UInt8} {item : Declaration},
      rule.read bytes = some (item, rest) → rest.length < bytes.length :=
    fun found => (consumes_of_read wellFormed notNullable found).shorter
  fun_induction ofState rule state generalizing declarations with
  | case1 state atEnd =>
      have nothing : state.cursor.remaining = [] := List.isEmpty_iff.1 atEnd
      rw [nothing]
      constructor
      · rintro ⟨-, rfl⟩
        exact .nil []
      · intro repeats
        cases repeats with
        | nil => exact ⟨rfl, rfl⟩
        | cons first others => exact absurd (shrinks first) (Nat.not_lt_zero _)
  | case2 state notAtEnd returned after ran =>
      have missing : rule.read (prepare state).cursor.remaining = none := read_of_run_failed ran
      change rule.read state.cursor.remaining = none at missing
      constructor
      · rintro ⟨noError, -⟩
        cases noError
      · intro repeats
        have someLeft : state.cursor.remaining ≠ [] := mt List.isEmpty_iff.2 notAtEnd
        generalize state.cursor.remaining = bytes at repeats missing someLeft
        cases repeats with
        | nil => exact absurd rfl someLeft
        | cons first others => rw [missing] at first; cases first
  | case3 state notAtEnd declaration after ran shorter later =>
      rename_i ih
      have found : rule.read (prepare state).cursor.remaining = _ := read_of_run_done ran
      change rule.read state.cursor.remaining = _ at found
      constructor
      · rintro ⟨noError, rfl⟩
        exact .cons found (ih.1 ⟨noError, rfl⟩)
      · intro repeats
        have someLeft : state.cursor.remaining ≠ [] := mt List.isEmpty_iff.2 notAtEnd
        generalize state.cursor.remaining = bytes at repeats found someLeft
        cases repeats with
        | nil => exact absurd rfl someLeft
        | cons first others =>
            rw [found] at first
            cases first
            have succeeds := ih.2 others
            exact ⟨succeeds.1, congrArg (declaration :: ·) succeeds.2⟩
  | case4 state notAtEnd declaration after ran notShorter =>
      exact absurd (shrinks (read_of_run_done ran)) notShorter

/-- Under any limit, a document is the fold over the declarations up to the end. -/
theorem document_ofStateWithin_eq_ok_iff {room : Nat} {state : State} {document : Document} :
    (ofStateWithin room state).document = .ok document ↔
      ∃ declarations, Repeats (fun bytes item rest =>
          (Grammar.declaration room).read bytes = some (item, rest))
          (Gap.rest state.cursor.remaining) declarations [] ∧
        document = Document.ofList declarations := by
  have place : (state.mapCursor Cursor.skipGap).cursor.remaining =
      Gap.rest state.cursor.remaining := Gap.remaining_skip .between _ _
  have succeeds := @ofState_succeeds_iff _ (Grammar.wellFormed_declaration _)
    (Grammar.not_nullable_declaration room) (state.mapCursor Cursor.skipGap)
  rw [place] at succeeds
  simp only [← succeeds]
  unfold ofStateWithin
  generalize ofState _ (state.mapCursor Cursor.skipGap) = reading
  unfold Reading.document
  cases reading.error with
  | some error => simp
  | none => simp [eq_comm]

end Reading

namespace Document

/-- Whether bytes are certain declarations, one after the other, and no more. -/
def Declares (bytes : List UInt8) (declarations : List Declaration) : Prop :=
  Repeats (fun bytes item rest =>
    (Grammar.declaration Grammar.maxNesting).read bytes = some (item, rest)) bytes declarations []

theorem wellFormed_manyDeclarations :
    (Rule.many (Grammar.declaration Grammar.maxNesting)).WellFormed :=
  ⟨Grammar.wellFormed_declaration _, Grammar.not_nullable_declaration _⟩

/-- Declarations up to the end are what a repetition of declarations reads. -/
theorem declares_iff_read {bytes : List UInt8} {declarations : List Declaration} :
    Declares bytes declarations ↔
      (Rule.many (Grammar.declaration Grammar.maxNesting)).read bytes =
        some (declarations, []) := by
  have atEnd : (Grammar.declaration Grammar.maxNesting).read [] = none :=
    Rule.read_eq_none_of_not_opens (Grammar.wellFormed_declaration _)
      (Grammar.not_nullable_declaration _) (by simp)
  rw [Rule.read_many_eq_some_iff wellFormed_manyDeclarations]
  exact (and_iff_left atEnd).symm

/-- A document is the fold over the declarations of its source. -/
theorem parse_eq_ok_iff {source : String} {document : Document} :
    parse source = .ok document ↔
      ∃ declarations, Declares (Gap.rest (Utf8.encode source)) declarations ∧
        document = ofList declarations :=
  Reading.document_ofStateWithin_eq_ok_iff

/-- Two sources with the same declarations have the same document, if any. -/
theorem toOption_parse_eq {first second : String}
    (same : ∀ declarations, Declares (Gap.rest (Utf8.encode first)) declarations ↔
      Declares (Gap.rest (Utf8.encode second)) declarations) :
    (parse first).toOption = (parse second).toOption := by
  apply Option.ext
  intro document
  have ok : ∀ source, (parse source).toOption = some document ↔ parse source = .ok document := by
    intro source
    cases parse source <;> simp [Except.toOption]
  simp only [ok, parse_eq_ok_iff, same]

end Document

end ThriftIdl
