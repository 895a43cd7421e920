import ThriftIdl.Proofs.Grammar.Everywhere

/-!
# Readings of related bytes

If tokens and separators cannot tell related bytes apart, then no rule can: it reads the same value
from both and leaves related bytes again, or it matches neither.

For one rule and the bytes that it reads this need not hold of all tokens and all related bytes, but
only where the rule tries a token or looks for a separator (`IndistinctWhere`).
-/

namespace ThriftIdl

variable {α : Type} {related : List UInt8 → List UInt8 → Prop}

/-- Whether two readings found equal values and left related bytes, or both found nothing. -/
inductive Alike (related : List UInt8 → List UInt8 → Prop) :
    Option (α × List UInt8) → Option (α × List UInt8) → Prop where
  | found (value : α) {rest otherRest : List UInt8} (left : related rest otherRest) :
      Alike related (some (value, rest)) (some (value, otherRest))
  | missing : Alike related none none

theorem Alike.exists_of_some {value : α} {rest : List UInt8} {other : Option (α × List UInt8)}
    (alike : Alike related (some (value, rest)) other) :
    ∃ otherRest, other = some (value, otherRest) ∧ related rest otherRest := by
  cases alike with
  | found _ left => exact ⟨_, rfl, left⟩

theorem Alike.imp {weaker : List UInt8 → List UInt8 → Prop} {one other : Option (α × List UInt8)}
    (alike : Alike related one other)
    (imp : ∀ {first second}, related first second → weaker first second) :
    Alike weaker one other := by
  cases alike with
  | found value left => exact .found value (imp left)
  | missing => exact .missing

theorem Alike.eq_none {other : Option (α × List UInt8)} (alike : Alike related none other) :
    other = none := by
  cases alike
  rfl

/-- A token that may not begin with the byte that comes first in both is missing in both. -/
theorem alike_of_not_opens {terminal : Token α} (plain : terminal.isPlain = true)
    {first second : List UInt8} (sameHead : second.head? = first.head?)
    (closed : ∀ byte ∈ first.head?, terminal.opens byte = false) :
    Alike related (terminal.read first) (terminal.read second) := by
  have missing : ∀ bytes : List UInt8, bytes.head? = first.head? → terminal.read bytes = none := by
    intro bytes sameHead
    refine @Rule.read_eq_none_of_not_opens _ (.token terminal) plain not_false bytes ?_
    intro byte atHead opens
    rw [sameHead] at atHead
    exact absurd (closed byte atHead) (ne_true_of_eq_false · opens)
  rw [missing first rfl, missing second sameHead]
  exact .missing

/-- Items that are read alike are repeated alike. -/
theorem Rule.Repeats.alike {read : List UInt8 → Option (α × List UInt8)}
    (agree : ∀ {first second : List UInt8}, related first second →
      Alike related (read first) (read second))
    {first rest : List UInt8} {items : List α}
    (repeats : Rule.Repeats (fun bytes item rest => read bytes = some (item, rest))
      first items rest)
    {second : List UInt8} (isRelated : related first second) :
    ∃ otherRest, related rest otherRest ∧
      Rule.Repeats (fun bytes item rest => read bytes = some (item, rest))
        second items otherRest := by
  induction repeats generalizing second with
  | nil bytes => exact ⟨second, isRelated, .nil second⟩
  | cons found _ ih =>
      have alike := agree isRelated
      rw [found] at alike
      rcases alike.exists_of_some with ⟨middle, foundThere, left⟩
      rcases ih left with ⟨otherRest, leftLast, others⟩
      exact ⟨otherRest, leftLast, .cons foundThere others⟩

/-- A choice goes alike if each alternative does that is tried, as those before it are missing. -/
theorem alike_choice {count : Nat} (expected : String) {alternatives : Fin count → Rule α}
    {first second : List UInt8}
    (alike : ∀ index, (∀ earlier < index, (alternatives earlier).read first = none) →
      Alike related ((alternatives index).read first) ((alternatives index).read second)) :
    Alike related ((Rule.choice expected alternatives).read first)
      ((Rule.choice expected alternatives).read second) := by
  cases one : (Rule.choice expected alternatives).read first with
  | none =>
      have missing := Rule.read_choice_eq_none_iff.1 one
      have missingThere : (Rule.choice expected alternatives).read second = none := by
        refine Rule.read_choice_eq_none_iff.2 fun index => ?_
        have alikeThere := alike index fun earlier _ => missing earlier
        rw [missing index] at alikeThere
        exact alikeThere.eq_none
      rw [missingThere]
      exact .missing
  | some result =>
      obtain ⟨value, rest⟩ := result
      obtain ⟨index, found, missing⟩ := Rule.read_choice_eq_some_iff.1 one
      have alikeThere := alike index missing
      rw [found] at alikeThere
      obtain ⟨otherRest, foundThere, left⟩ := alikeThere.exists_of_some
      have missingThere : ∀ earlier < index, (alternatives earlier).read second = none := by
        intro earlier before
        have alikeEarlier := alike earlier fun more further => missing more (further.trans before)
        rw [missing earlier before] at alikeEarlier
        exact alikeEarlier.eq_none
      have chosen : (Rule.choice expected alternatives).read second = some (value, otherRest) :=
        Rule.read_choice_eq_some_iff.2 ⟨index, foundThere, missingThere⟩
      rw [chosen]
      exact .found value left

/-- A repetition goes alike if its items do wherever the items before them lead. -/
theorem alike_many {item : Rule α} (wellFormed : (Rule.many item).WellFormed)
    (agree : ∀ {first second : List UInt8}, related first second →
      Alike related (item.read first) (item.read second))
    {first second : List UInt8} (isRelated : related first second) :
    Alike related ((Rule.many item).read first) ((Rule.many item).read second) := by
  obtain ⟨repeats, ends⟩ := (Rule.read_many_eq_some_iff wellFormed).1
    (show (Rule.many item).read first = some (_, _) from rfl)
  obtain ⟨otherRest, left, others⟩ := repeats.alike agree isRelated
  have endsThere := agree left
  rw [ends] at endsThere
  have found := (Rule.read_many_eq_some_iff wellFormed).2 ⟨others, endsThere.eq_none⟩
  rw [found]
  exact .found _ left

section

variable {ofToken : ∀ {β : Type}, Token β → List UInt8 → Prop} {ofSeparator : List UInt8 → Prop}

/-- A relation that is not seen by tokens and separators which are tried where a property holds. -/
structure IndistinctWhere (ofToken : ∀ {β : Type}, Token β → List UInt8 → Prop)
    (ofSeparator : List UInt8 → Prop) (related : List UInt8 → List UInt8 → Prop) : Prop where
  token : ∀ {α : Type} (terminal : Token α) {first second : List UInt8},
    terminal.isPlain = true → ofToken terminal first → related first second →
      Alike related (terminal.read first) (terminal.read second)
  separator : ∀ {first second : List UInt8}, ofSeparator first → related first second →
    Alike related (Rule.separator.read first) (Rule.separator.read second)

/-- A rule cannot tell bytes apart that its tokens and separators cannot, wherever it tries them. -/
theorem IndistinctWhere.read (indistinct : IndistinctWhere ofToken ofSeparator related)
    {rule : Rule α} (wellFormed : rule.WellFormed) {first second : List UInt8}
    (everywhere : rule.Everywhere ofToken ofSeparator first) (isRelated : related first second) :
    Alike related (rule.read first) (rule.read second) := by
  induction rule generalizing first second with
  | pure value => exact .found value isRelated
  | bind inner next ihInner ihNext =>
      have alike := ihInner wellFormed.1 everywhere.1 isRelated
      have behind := everywhere.2
      simp only [Rule.read]
      generalize inner.read first = one at alike behind ⊢
      generalize inner.read second = other at alike ⊢
      cases alike with
      | missing => exact .missing
      | found value left => exact ihNext value (wellFormed.2 value) (behind value _ rfl) left
  | token terminal => exact indistinct.token terminal wellFormed everywhere isRelated
  | separator => exact indistinct.separator everywhere isRelated
  | choice expected alternatives ih =>
      exact alike_choice expected fun index tried =>
        ih index (wellFormed index) (everywhere index tried) isRelated
  | optional inner ih =>
      have alike := ih wellFormed everywhere isRelated
      simp only [Rule.read]
      generalize inner.read first = one at alike ⊢
      generalize inner.read second = other at alike ⊢
      cases alike with
      | missing => exact .found none isRelated
      | found value left => exact .found (some value) left
  | many inner ih =>
      -- the items left to read are tried where a repetition is tried, so that is kept as well
      have agree : ∀ {first second : List UInt8},
          related first second ∧ (Rule.many inner).Everywhere ofToken ofSeparator first →
            Alike (fun first second =>
              related first second ∧ (Rule.many inner).Everywhere ofToken ofSeparator first)
              (inner.read first) (inner.read second) := by
        rintro first second ⟨isRelated, everywhere⟩
        have alike := ih wellFormed.1 (everywhere [] first (.nil first)) isRelated
        cases found : inner.read first with
        | none =>
            rw [found] at alike
            rw [alike.eq_none]
            exact .missing
        | some result =>
            rw [found] at alike
            obtain ⟨otherRest, foundThere, left⟩ := alike.exists_of_some
            rw [foundThere]
            exact .found result.1 ⟨left, fun items rest repeats =>
              everywhere (result.1 :: items) rest (.cons found repeats)⟩
      exact (alike_many wellFormed agree ⟨isRelated, everywhere⟩).imp And.left
  | nested inner ih => exact ih wellFormed everywhere isRelated
  | refuseNesting => exact .missing

end

/-- A relation between bytes that neither plain tokens nor separators can tell apart. -/
structure Indistinct (related : List UInt8 → List UInt8 → Prop) : Prop where
  token : ∀ {α : Type} (terminal : Token α) {first second : List UInt8},
    terminal.isPlain = true → related first second →
      Alike related (terminal.read first) (terminal.read second)
  separator : ∀ {first second : List UInt8}, related first second →
    Alike related (Rule.separator.read first) (Rule.separator.read second)

/-- No rule can tell bytes apart that tokens and separators cannot. -/
theorem Indistinct.read (indistinct : Indistinct related) {rule : Rule α}
    (wellFormed : rule.WellFormed) {first second : List UInt8}
    (isRelated : related first second) : Alike related (rule.read first) (rule.read second) := by
  have anywhere : IndistinctWhere (fun _ _ => True) (fun _ => True) related :=
    ⟨fun terminal _ _ plain _ => indistinct.token terminal plain, fun _ => indistinct.separator⟩
  exact anywhere.read wellFormed
    (Rule.everywhere_of_suffixes (fun _ _ _ => trivial) fun _ _ => trivial) isRelated

/-- A property of bytes that holds behind a token or a separator if it held in front of it. -/
structure Kept (property : List UInt8 → Prop) : Prop where
  token : ∀ {α : Type} (terminal : Token α) {bytes rest : List UInt8} {value : α},
    terminal.isPlain = true → property bytes → terminal.read bytes = some (value, rest) →
      property rest
  separator : ∀ {byte : UInt8} {tail : List UInt8}, Byte.isSeparator byte = true →
    property (byte :: tail) → property (Gap.rest tail)

/-- What tokens and separators keep, every rule keeps. -/
theorem Kept.read {property : List UInt8 → Prop} (kept : Kept property) {rule : Rule α}
    (wellFormed : rule.WellFormed) {bytes rest : List UInt8} {value : α} (holds : property bytes)
    (found : rule.read bytes = some (value, rest)) : property rest := by
  -- bytes with the property are told apart from nothing but themselves
  have indistinct : Indistinct fun first second => first = second ∧ property first := by
    refine ⟨?_, ?_⟩
    · rintro α terminal first _ plain ⟨rfl, holds⟩
      cases attempt : terminal.read first with
      | none => exact .missing
      | some result => exact .found result.1 ⟨rfl, kept.token terminal plain holds attempt⟩
    · rintro first _ ⟨rfl, holds⟩
      cases separator : first.head?.any Byte.isSeparator with
      | false =>
          rw [Rule.read_separator_of_stops separator]
          exact .found false ⟨rfl, holds⟩
      | true =>
          cases first with
          | nil => cases separator
          | cons byte tail =>
              have isSeparator : Byte.isSeparator byte = true := by simpa using separator
              rw [Rule.read_separator_cons isSeparator]
              exact .found true ⟨rfl, kept.separator isSeparator holds⟩
  have alike := indistinct.read wellFormed ⟨rfl, holds⟩
  rw [found] at alike
  obtain ⟨_, _, -, holdsThere⟩ := alike.exists_of_some
  exact holdsThere

end ThriftIdl
