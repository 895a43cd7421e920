import ThriftIdl.Proofs.Grammar.Matching

/-!
# Where a rule tries something

`Rule.Everywhere` follows the constructors of a rule to all places where it tries a token or looks for
a separator while it reads some bytes. Attempts that are given up count as well, but an alternative
is tried only if those before it are missing. Since the places are found by reading, a property that
can be decided at each of them can be decided at all of them.
-/

namespace ThriftIdl

variable {α : Type} {ofToken : ∀ {β : Type}, Token β → List UInt8 → Prop}
  {ofSeparator : List UInt8 → Prop}

namespace Rule

/--
Whether a property of tokens holds wherever a rule that reads some bytes tries a token, and a
property of bytes wherever it looks for a separator.
-/
def Everywhere (ofToken : ∀ {β : Type}, Token β → List UInt8 → Prop)
    (ofSeparator : List UInt8 → Prop) : {α : Type} → Rule α → List UInt8 → Prop
  | _, .pure _, _ => True
  | _, .bind first next, bytes =>
    first.Everywhere ofToken ofSeparator bytes ∧
      ∀ value rest, first.read bytes = some (value, rest) →
        (next value).Everywhere ofToken ofSeparator rest
  | _, .token terminal, bytes => ofToken terminal bytes
  | _, .separator, bytes => ofSeparator bytes
  | _, .choice _ alternatives, bytes =>
    ∀ index, (∀ earlier < index, (alternatives earlier).read bytes = none) →
      (alternatives index).Everywhere ofToken ofSeparator bytes
  | _, .optional rule, bytes => rule.Everywhere ofToken ofSeparator bytes
  | _, .many rule, bytes =>
    ∀ items rest, Repeats (fun bytes item rest => rule.read bytes = some (item, rest)) bytes
      items rest → rule.Everywhere ofToken ofSeparator rest
  | _, .nested rule, bytes => rule.Everywhere ofToken ofSeparator bytes
  | _, .refuseNesting, _ => True

/-- A rule tries nothing outside the bytes that it reads. -/
theorem everywhere_of_suffixes {rule : Rule α} {bytes : List UInt8}
    (tokens : ∀ {β : Type} (terminal : Token β) (place : List UInt8), place <:+ bytes →
      ofToken terminal place)
    (separators : ∀ place, place <:+ bytes → ofSeparator place) :
    rule.Everywhere ofToken ofSeparator bytes := by
  induction rule generalizing bytes with
  | pure value => trivial
  | bind first next ihFirst ihNext =>
      refine ⟨ihFirst tokens separators, fun value rest found => ?_⟩
      have suffix := first.read_suffix found
      exact ihNext value (fun terminal place within => tokens terminal place (within.trans suffix))
        fun place within => separators place (within.trans suffix)
  | token terminal => exact tokens terminal bytes List.suffix_rfl
  | separator => exact separators bytes List.suffix_rfl
  | choice expected alternatives ih => exact fun index _ => ih index tokens separators
  | optional rule ih => exact ih tokens separators
  | many rule ih =>
      intro items rest repeats
      have suffix : rest <:+ bytes := by
        clear tokens separators
        induction repeats with
        | nil bytes => exact List.suffix_rfl
        | cons found _ ihItems => exact ihItems.trans (rule.read_suffix found)
      exact ih (fun terminal place within => tokens terminal place (within.trans suffix))
        fun place within => separators place (within.trans suffix)
  | nested rule ih => exact ih tokens separators
  | refuseNesting => trivial

/-- A reading that stays where it is never gets away from there. -/
theorem Repeats.eq_of_stays {rule : Rule α} {bytes rest : List UInt8} {item : α} {items : List α}
    (stays : rule.read bytes = some (item, bytes))
    (repeats : Repeats (fun bytes item rest => rule.read bytes = some (item, rest)) bytes items
      rest) : rest = bytes := by
  induction repeats with
  | nil => rfl
  | cons found _ ih =>
      rw [stays] at found
      cases found
      exact ih stays

/-- A repetition tries an item here, and then it is the same repetition behind the item. -/
theorem everywhere_many_iff {rule : Rule α} {bytes : List UInt8} :
    (many rule).Everywhere ofToken ofSeparator bytes ↔
      rule.Everywhere ofToken ofSeparator bytes ∧
        ∀ item rest, rule.read bytes = some (item, rest) →
          (many rule).Everywhere ofToken ofSeparator rest := by
  constructor
  · intro everywhere
    refine ⟨everywhere [] bytes (.nil bytes), fun item rest found items last repeats => ?_⟩
    exact everywhere (item :: items) last (.cons found repeats)
  · rintro ⟨here, behind⟩ items last repeats
    cases repeats with
    | nil => exact here
    | cons found others => exact behind _ _ found _ _ others

/-- Decides a property of all places where a repetition tries an item. -/
def decideMany {rule : Rule α}
    (decideItem : ∀ bytes, Decidable (rule.Everywhere ofToken ofSeparator bytes))
    (bytes : List UInt8) : Decidable ((many rule).Everywhere ofToken ofSeparator bytes) :=
  match decideItem bytes with
  | isFalse fails => isFalse fun everywhere => fails (everywhere_many_iff.1 everywhere).1
  | isTrue here =>
    match attempt : rule.read bytes with
    | none => isTrue (everywhere_many_iff.2 ⟨here, by simp [attempt]⟩)
    | some (item, rest) =>
      if shorter : rest.length < bytes.length then
        have := decideMany decideItem rest
        decidable_of_iff ((many rule).Everywhere ofToken ofSeparator rest) (by
          rw [@everywhere_many_iff _ _ _ rule bytes, attempt]
          simp [here])
      else isTrue fun items last repeats => by
        have same : rest = bytes :=
          (rule.read_suffix attempt).eq_of_length_le (Nat.le_of_not_lt shorter)
        rw [repeats.eq_of_stays (same ▸ attempt)]
        exact here
termination_by bytes.length

/-- Decides a property of all places where a rule tries something. -/
def decideEverywhere
    (decideToken : ∀ {β : Type} (terminal : Token β) bytes, Decidable (ofToken terminal bytes))
    (decideSeparator : ∀ bytes, Decidable (ofSeparator bytes)) :
    {α : Type} → (rule : Rule α) → (bytes : List UInt8) →
      Decidable (rule.Everywhere ofToken ofSeparator bytes)
  | _, .pure _, _ => isTrue trivial
  | _, .bind first next, bytes =>
    match attempt : first.read bytes with
    | none =>
      have := decideEverywhere decideToken decideSeparator first bytes
      decidable_of_iff (first.Everywhere ofToken ofSeparator bytes) (by simp [Everywhere, attempt])
    | some (value, rest) =>
      have := decideEverywhere decideToken decideSeparator first bytes
      have := decideEverywhere decideToken decideSeparator (next value) rest
      decidable_of_iff (first.Everywhere ofToken ofSeparator bytes ∧
        (next value).Everywhere ofToken ofSeparator rest) (by simp [Everywhere, attempt])
  | _, .token terminal, bytes => decideToken terminal bytes
  | _, .separator, bytes => decideSeparator bytes
  | _, .choice _ alternatives, bytes =>
    have := fun index => decideEverywhere decideToken decideSeparator (alternatives index) bytes
    inferInstanceAs (Decidable (∀ index, (∀ earlier < index,
      (alternatives earlier).read bytes = none) →
        (alternatives index).Everywhere ofToken ofSeparator bytes))
  | _, .optional rule, bytes => decideEverywhere decideToken decideSeparator rule bytes
  | _, .many rule, bytes => decideMany (decideEverywhere decideToken decideSeparator rule) bytes
  | _, .nested rule, bytes => decideEverywhere decideToken decideSeparator rule bytes
  | _, .refuseNesting, _ => isTrue trivial

instance [∀ {β : Type} (terminal : Token β) bytes, Decidable (ofToken terminal bytes)]
    [DecidablePred ofSeparator] (rule : Rule α) (bytes : List UInt8) :
    Decidable (rule.Everywhere ofToken ofSeparator bytes) :=
  rule.decideEverywhere (fun _ _ => inferInstance) (fun _ => inferInstance) bytes

end Rule

end ThriftIdl
