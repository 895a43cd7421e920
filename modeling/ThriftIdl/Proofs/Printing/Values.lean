import ThriftIdl.Proofs.Grammar.Extension
import ThriftIdl.Proofs.Printing.Words

/-!
# Printed values

A value that was read somewhere and in which no double occurs can be printed, and what is printed is
read back as the same value with as many levels left. The one thing that must not follow it is more
of a name, at once or behind a dot. Items in a row are read back if each of them is, in front of the
next one and at the end.
-/

namespace ThriftIdl

open Rule

/-- Whether what follows can neither go on with a name nor, behind a gap, with a further segment. -/
structure EndsValue (tail : List UInt8) : Prop where
  noName : Stops Byte.isIdentifier tail
  noDot : Stops (· == Byte.dot) (Gap.rest tail)

/-- Whether what follows cannot go on with a separator either. -/
structure EndsItem (tail : List UInt8) : Prop where
  noName : Stops Byte.isIdentifier tail
  quiet : Quiet tail

variable {α : Type} {room : Nat} {bytes rest tail : List UInt8} {value : Value}
  {segments : List String}

theorem endsValue_cons {byte : UInt8} (barrier : Gap.isBarrier byte = true)
    (notName : Byte.isIdentifier byte = false) (tail : List UInt8) : EndsValue (byte :: tail) where
  noName := stops_cons.2 notName
  noDot := by
    rw [Gap.rest_barrier barrier, stops_cons, beq_eq_false_iff_ne]
    rintro rfl
    exact absurd notName (by decide)

theorem EndsItem.noSeparator (ends : EndsItem tail) :
    Stops Byte.isSeparator (Gap.rest tail) :=
  ends.quiet.mono fun byte separator => by simp [separator]

theorem EndsItem.endsValue (ends : EndsItem tail) : EndsValue tail :=
  ⟨ends.noName, ends.quiet.mono fun byte dot => by simp [dot]⟩

theorem endsItem_cons {byte : UInt8} (barrier : Gap.isBarrier byte = true)
    (notName : Byte.isIdentifier byte = false) (notSeparator : Byte.isSeparator byte = false)
    (tail : List UInt8) : EndsItem (byte :: tail) where
  noName := stops_cons.2 notName
  quiet := by
    have noDot := (endsValue_cons barrier notName tail).noDot
    rw [Gap.rest_barrier barrier, stops_cons] at noDot
    rw [Quiet, Gap.rest_barrier barrier, stops_cons, notSeparator, noDot]
    rfl

/-! ### Items in a row -/

section Items

variable {spells : α → List UInt8 → List UInt8 → Prop} {print : α → Option String}
  {step : List UInt8 → α → List UInt8 → Prop} {follows : List UInt8 → Prop} {items : List α}

/-- If each item can be printed, then all of them can. -/
theorem exists_mapM {related : α → String → Prop}
    (each : ∀ item ∈ items, ∃ text, print item = some text ∧ related item text) :
    ∃ texts, items.mapM print = some texts ∧ List.Forall₂ related items texts := by
  induction items with
  | nil => exact ⟨[], rfl, .nil⟩
  | cons first others ih =>
      rcases each first (by simp) with ⟨text, printed, ofText⟩
      obtain ⟨texts, printedOthers, ofTexts⟩ := ih fun item mem => each item (by simp [mem])
      refine ⟨text :: texts, ?_, .cons ofText ofTexts⟩
      rw [List.mapM_cons, printed, printedOthers]
      rfl

/-- Items are read back if each of them is, with a delimiter behind it and without one. -/
theorem prints_intercalate {delimiter : String} {texts : List String}
    (each : List.Forall₂ (fun item text => Prints (step · item ·) Anything (text ++ delimiter) ∧
      Prints (step · item ·) follows text) items texts) :
    Prints (Repeats step · items ·) follows (delimiter.intercalate texts) := by
  induction each with
  | nil => exact fun tail _ => .nil _
  | @cons first text others texts ofFirst ofOthers ih =>
      intro tail ends
      cases ofOthers with
      | nil =>
          rw [String.intercalate_singleton]
          exact .cons (ofFirst.2 tail ends) (.nil _)
      | cons _ _ =>
          rw [String.intercalate_cons_cons, Utf8.encode_append, List.append_assoc]
          exact .cons (ofFirst.1 _ trivial) (ih tail ends)

/-- Parts with commas between them are read back. -/
theorem exists_prints_separated
    (each : ∀ item ∈ items, ∃ text, print item = some text ∧ Prints (spells item) EndsValue text) :
    ∃ texts, items.mapM print = some texts ∧
      Prints (Repeats (Separated spells) · items ·) EndsItem (", ".intercalate texts) := by
  rcases exists_mapM each with ⟨texts, printed, related⟩
  refine ⟨texts, printed, prints_intercalate (related.imp fun item text prints => ⟨?_, ?_⟩)⟩
  · intro tail _
    rw [Utf8.encode_append, List.append_assoc]
    exact ⟨_, prints (Byte.comma :: Byte.space :: tail) (endsValue_cons rfl rfl _),
      spellsSeparator_comma tail⟩
  · exact fun tail ends => ⟨_, prints tail ends.endsValue, .absent ends.noSeparator⟩

end Items

/-! ### References and dotted names -/

/-- Segments with separate dots in front of them are read back. -/
theorem repeats_segments (names : ∀ segment ∈ segments, IsName segment) (ends : EndsValue tail) :
    Stops Byte.isIdentifier
        (segments.flatMap (fun segment => Utf8.encode " . " ++ Utf8.encode segment) ++ tail) ∧
      Repeats SpellsSegment
        (Gap.rest (segments.flatMap (fun segment => Utf8.encode " . " ++ Utf8.encode segment) ++
          tail)) segments (Gap.rest tail) := by
  induction segments with
  | nil => exact ⟨ends.noName, .nil _⟩
  | cons first others ih =>
      obtain ⟨stops, repeats⟩ := ih fun segment mem => names segment (by simp [mem])
      have word := (names first (by simp)).prints _ stops
      refine ⟨stops_cons.2 rfl, .cons ⟨_, ?_, word⟩ repeats⟩
      rw [List.flatMap_cons, List.append_assoc, List.append_assoc]
      change SpellsMark Byte.dot (Gap.rest (Byte.space :: Byte.dot :: Byte.space :: _)) _
      rw [Gap.rest_space_cons]
      exact spellsMark_space rfl _

/-- A printed reference is read back. -/
theorem SpellsReference.prints (spells : SpellsReference segments bytes rest) :
    Prints (SpellsReference segments) EndsValue (" . ".intercalate segments) := by
  have names := isName_of_spellsReference spells
  obtain ⟨first, others, rfl⟩ : ∃ first others, segments = first :: others := by
    cases spells with
    | intro => exact ⟨_, _, rfl⟩
  intro tail ends
  rw [encode_intercalate_cons, List.append_assoc]
  rcases repeats_segments (List.forall_mem_cons.1 names).2 ends with ⟨stops, repeats⟩
  exact .intro ((names first (by simp)).prints _ stops) repeats
    (read_mark_bind_eq_none ends.noDot)

/-- Whether a reference is a number is decided by its first segment. -/
theorem SpellsReference.read_number_eq_none (spells : SpellsReference segments bytes rest)
    (notNumber : Grammar.number.read bytes = none) (ends : EndsValue tail) :
    Grammar.number.read (Gap.rest (Utf8.encode (" . ".intercalate segments) ++ tail)) = none := by
  have names := isName_of_spellsReference spells
  cases spells with
  | @intro first others _ _ _ word _ _ =>
      rcases word with ⟨isName, after, rfl, stopsAfter, -⟩
      rcases repeats_segments (List.forall_mem_cons.1 names).2 ends with ⟨stops, -⟩
      rw [encode_intercalate_cons, List.append_assoc,
        IsWord.rest_append isName fun _ => Byte.isScope_of_isIdentifier]
      -- no number goes beyond a name, so neither the old text behind it nor the new one matters
      exact (Grammar.lexical_number.read_append_eq_none_iff isName.notEmpty stops).2
        ((Grammar.lexical_number.read_append_eq_none_iff isName.notEmpty stopsAfter).1 notNumber)

/-- A dotted name is a name, and as such it is read back. -/
theorem SpellsDottedName.prints {name : String} (spells : SpellsDottedName name bytes rest) :
    Prints (SpellsDottedName name) EndsValue name := by
  have isName := spells.isName
  intro tail ends
  exact ⟨[_], .intro (isName.prints tail ends.noName) (.nil _) (read_mark_bind_eq_none ends.noDot),
    String.intercalate_singleton.symm⟩

/-! ### Values -/

/-- A number that is not a double is an integer. -/
theorem exists_int_of_read_number (found : Grammar.number.read bytes = some (value, rest))
    (noDouble : value.hasDouble = false) : ∃ number, value = .int number := by
  rcases eq_int_or_eq_double_of_read_number found with int | ⟨double, rfl⟩
  · exact int
  · cases noDouble

/-- A printed integer is read back where a number may stand. -/
theorem Print.prints_number (number : Int64) :
    Prints (fun bytes rest => Grammar.number.read bytes = some (.int number, rest)) EndsValue
      (Print.integer number) := by
  intro tail ends
  have denotes := denotes_integer number
  rw [denotes.rest_append]
  exact denotes.read_number ends.noName

/-- An entry is read back if its key and its value are. -/
theorem exists_prints_entry {item : Value → List UInt8 → List UInt8 → Prop} {entry : Value × Value}
    (ofKey : ∃ text, Print.value? entry.1 = some text ∧ Prints (item entry.1) EndsValue text)
    (ofValue : ∃ text, Print.value? entry.2 = some text ∧ Prints (item entry.2) EndsValue text) :
    ∃ text, Print.entry? entry = some text ∧ Prints (SpellsEntry item entry) EndsValue text := by
  rcases ofKey with ⟨keyText, printedKey, printsKey⟩
  rcases ofValue with ⟨valueText, printedValue, printsValue⟩
  refine ⟨keyText ++ ": " ++ valueText, by simp [Print.entry?, printedKey, printedValue], ?_⟩
  intro tail ends
  rw [Utf8.encode_append, Utf8.encode_append, List.append_assoc, List.append_assoc]
  exact ⟨_, _, printsKey (Byte.colon :: Byte.space :: (Utf8.encode valueText ++ tail))
    (endsValue_cons rfl rfl _), spellsMark_space rfl _, printsValue tail ends⟩

/-- A value that was read can be printed, and then it is read back. -/
theorem SpellsValue.exists_prints (spells : SpellsValue room value bytes rest)
    (noDouble : value.hasDouble = false) :
    ∃ text, Print.value? value = some text ∧ Prints (SpellsValue room value) EndsValue text := by
  -- the items of a list or a map have one level less, so the induction is on the levels
  induction room generalizing value bytes rest with
  | zero => exact spells.elim
  | succ room ih =>
      cases spells with
      | number found =>
          rcases exists_int_of_read_number found noDouble with ⟨number, rfl⟩
          exact ⟨_, rfl, fun tail ends => .number (Print.prints_number number tail ends)⟩
      | string found =>
          rcases isEnclosed_untilQuote.prints_token rfl found with ⟨text, printed, prints⟩
          exact ⟨text, printed, fun tail _ => .string (prints tail trivial)⟩
      | trueWord word =>
          exact ⟨_, rfl, fun tail ends => .trueWord (IsName.prints word.1 tail ends.noName)⟩
      | falseWord word =>
          exact ⟨_, rfl, fun tail ends => .falseWord (IsName.prints word.1 tail ends.noName)⟩
      | list _ spellsItems _ =>
          rename_i items inside last
          rw [Value.hasDouble, Value.anyHasDouble_eq_any, List.any_eq_false] at noDouble
          obtain ⟨texts, printed, prints⟩ := exists_prints_separated fun item mem => by
            rcases spellsItems.exists_step mem with ⟨_, _, _, spells, _⟩
            exact ih spells (by simpa using noDouble item mem)
          refine ⟨_, by rw [Print.value?, Print.values?_eq_mapM, printed]; rfl, fun tail _ => ?_⟩
          rw [Utf8.encode_append, Utf8.encode_append, List.append_assoc, List.append_assoc]
          exact .list (spellsMark_rest rfl _)
            (prints (Byte.closeBracket :: tail) (endsItem_cons rfl rfl rfl _))
            (spellsMark_rest rfl tail)
      | map _ spellsEntries _ =>
          rename_i entries inside last
          rw [Value.hasDouble, Value.anyEntryHasDouble_eq_any, List.any_eq_false] at noDouble
          obtain ⟨texts, printed, prints⟩ := exists_prints_separated fun entry mem => by
            rcases spellsEntries.exists_step mem with ⟨_, _, _, ⟨_, _, ofKey, _, ofValue⟩, _⟩
            have noDoubles := noDouble entry mem
            rw [Bool.not_eq_true, Bool.or_eq_false_iff] at noDoubles
            exact exists_prints_entry (ih ofKey noDoubles.1) (ih ofValue noDoubles.2)
          refine ⟨_, by rw [Print.value?, Print.entries?_eq_mapM, printed]; rfl, fun tail _ => ?_⟩
          rw [Utf8.encode_append, Utf8.encode_append, List.append_assoc, List.append_assoc]
          exact .map (spellsMark_rest rfl _)
            (prints (Byte.closeBrace :: tail) (endsItem_cons rfl rfl rfl _))
            (spellsMark_rest rfl tail)
      | reference spells notNumber notTrue notFalse =>
          exact ⟨_, rfl, fun tail ends => .reference (spells.prints tail ends)
            (spells.read_number_eq_none notNumber ends) notTrue notFalse⟩

end ThriftIdl
