import ThriftIdl.Json.Render
import ThriftIdl.Proofs.Printing.Numeral

/-!
# Compact JSON can be read back

No two values have the same compact text, real numbers left aside: what a value is can be told from
its first character, strings and containers say themselves where they end, and an integer ends with
its last digit. So even of a longer text it is clear which value it begins with.
-/

namespace ThriftIdl

namespace Json

/-! ### Strings -/

/-- The number that four hexadecimal digits stand for. -/
def hexValue (digits : List Char) : Nat :=
  Numeral.value 16 (digits.map Byte.ofChar)

/-- The character at the beginning of the inside of a string, and what follows it. -/
def unescape : List Char → Option (Char × List Char)
  | '\\' :: 'u' :: first :: second :: third :: fourth :: rest =>
    some (Char.ofNat (hexValue [first, second, third, fourth]), rest)
  | '\\' :: 'b' :: rest => some ('\x08', rest)
  | '\\' :: 't' :: rest => some ('\x09', rest)
  | '\\' :: 'n' :: rest => some ('\x0a', rest)
  | '\\' :: 'f' :: rest => some ('\x0c', rest)
  | '\\' :: 'r' :: rest => some ('\x0d', rest)
  | '\\' :: character :: rest => some (character, rest)
  | '\x22' :: _ => none
  | character :: rest => some (character, rest)
  | [] => none

theorem paddedHex_control : ∀ number < 0x20,
    (Numeral.paddedHex 4 number).toList.length = 4 ∧
      hexValue (Numeral.paddedHex 4 number).toList = number := by
  decide +kernel

/-- An escaped character is read back. -/
theorem unescape_escape (character : Char) (rest : List Char) :
    unescape ((escape character).toList ++ rest) = some (character, rest) := by
  unfold escape
  split_ifs with isQuote backslash backspace tab lineFeed formFeed carriageReturn control
  · subst isQuote; rfl
  · subst backslash; rfl
  · subst backspace; rfl
  · subst tab; rfl
  · subst lineFeed; rfl
  · subst formFeed; rfl
  · subst carriageReturn; rfl
  · obtain ⟨length, value⟩ := paddedHex_control character.toNat control
    obtain ⟨first, second, third, fourth, digits⟩ := List.length_eq_four.1 length
    have opening : "\\u".toList = ['\\', 'u'] := by decide
    rw [String.toList_append, opening, digits]
    rw [digits] at value
    simp only [List.cons_append, List.nil_append, unescape, value, Char.ofNat_toNat]
  · rw [String.toList_singleton, List.singleton_append]
    simp [unescape, backslash]

/-- The inside of a string ends with the first quote that is not escaped. -/
theorem escape_append_inj {first second rest otherRest : List Char}
    (same : first.flatMap (fun character => (escape character).toList) ++ '\x22' :: rest =
      second.flatMap (fun character => (escape character).toList) ++ '\x22' :: otherRest) :
    first = second ∧ rest = otherRest := by
  induction first generalizing second with
  | nil =>
      cases second with
      | nil => exact ⟨rfl, (List.cons.inj same).2⟩
      | cons character others =>
          have read := congrArg unescape same
          rw [List.flatMap_cons, List.append_assoc, unescape_escape] at read
          cases read
  | cons character others ih =>
      cases second with
      | nil =>
          have read := congrArg unescape same
          rw [List.flatMap_cons, List.append_assoc, unescape_escape] at read
          cases read
      | cons otherCharacter later =>
          have read := congrArg unescape same
          simp only [List.flatMap_cons, List.append_assoc, unescape_escape, Option.some_inj,
            Prod.mk.injEq] at read
          rcases read with ⟨rfl, sameRest⟩
          rcases ih sameRest with ⟨rfl, restsAgree⟩
          exact ⟨rfl, restsAgree⟩

theorem toList_quote (text : String) :
    (quote text).toList =
      '\x22' :: (text.toList.flatMap (fun character => (escape character).toList) ++ ['\x22']) := by
  have mark : "\"".toList = ['\x22'] := by decide
  simp only [quote, String.toList_append, String.toList_join, List.flatMap_map, mark,
    List.cons_append, List.nil_append]

theorem quote_append_inj {first second : String} {rest otherRest : List Char}
    (same : (quote first).toList ++ rest = (quote second).toList ++ otherRest) :
    first = second ∧ rest = otherRest := by
  simp only [toList_quote, List.cons_append, List.append_assoc, List.nil_append] at same
  rcases escape_append_inj (List.cons.inj same).2 with ⟨sameCharacters, sameRest⟩
  exact ⟨String.toList_inj.1 sameCharacters, sameRest⟩

/-! ### Integers -/

/-- Whether characters go on with no digit. -/
def EndsNumber (rest : List Char) : Prop := ∀ character ∈ rest.head?, character.isDigit = false

theorem isDigit_of_mem_digits {number : Nat} {character : Char}
    (mem : character ∈ Numeral.digits number) : character.isDigit = true := by
  have isDigit : ∀ digit < 10, (Char.ofNat (48 + digit)).isDigit = true := by decide
  fun_induction Numeral.digits number with
  | case1 number small => exact List.mem_singleton.1 mem ▸ isDigit number small
  | case2 number notSmall ih =>
      rcases List.mem_append.1 mem with earlier | last
      · exact ih earlier
      · exact List.mem_singleton.1 last ▸ isDigit _ (Nat.mod_lt number (by decide))

theorem digits_injective : Function.Injective Numeral.digits := by
  intro first second same
  have valueOfFirst := (Numeral.isNumeral_digits first).value
  rw [same, (Numeral.isNumeral_digits second).value] at valueOfFirst
  exact valueOfFirst.symm

theorem takeWhile_digits_append (number : Nat) {rest : List Char} (ends : EndsNumber rest) :
    (Numeral.digits number ++ rest).takeWhile Char.isDigit = Numeral.digits number := by
  rw [List.takeWhile_append_of_pos fun character mem => isDigit_of_mem_digits mem]
  cases rest with
  | nil => simp
  | cons character others =>
      rw [List.takeWhile_cons_of_neg (by simp [ends character rfl]), List.append_nil]

theorem digits_append_inj {first second : Nat} {rest otherRest : List Char}
    (ends : EndsNumber rest) (otherEnds : EndsNumber otherRest)
    (same : Numeral.digits first ++ rest = Numeral.digits second ++ otherRest) :
    first = second ∧ rest = otherRest := by
  have sameDigits := congrArg (List.takeWhile Char.isDigit) same
  rw [takeWhile_digits_append first ends, takeWhile_digits_append second otherEnds] at sameDigits
  rw [sameDigits] at same
  exact ⟨digits_injective sameDigits, List.append_cancel_left same⟩

theorem toList_ofInt (number : Int) :
    (Numeral.ofInt number).toList =
      if number < 0 then '-' :: Numeral.digits number.natAbs else Numeral.digits number.natAbs := by
  unfold Numeral.ofInt
  split_ifs
  · have sign : "-".toList = ['-'] := by decide
    rw [String.toList_append, sign, Numeral.ofNat, List.singleton_append, String.toList_ofList]
  · rw [Numeral.ofNat, String.toList_ofList]

theorem exists_digits_eq_cons (number : Nat) :
    ∃ digit others, Numeral.digits number = digit :: others ∧ digit.isDigit = true := by
  cases digits : Numeral.digits number with
  | nil =>
      have notEmpty := (Numeral.isNumeral_digits number).notEmpty
      rw [digits] at notEmpty
      exact absurd rfl notEmpty
  | cons digit others =>
      have mem : digit ∈ Numeral.digits number := digits ▸ List.mem_cons_self
      exact ⟨digit, others, rfl, isDigit_of_mem_digits mem⟩

theorem ofInt_append_inj {first second : Int} {rest otherRest : List Char}
    (ends : EndsNumber rest) (otherEnds : EndsNumber otherRest)
    (same : (Numeral.ofInt first).toList ++ rest = (Numeral.ofInt second).toList ++ otherRest) :
    first = second ∧ rest = otherRest := by
  have noSign : ∀ number : Nat, ∀ rest other : List Char,
      Numeral.digits number ++ rest ≠ '-' :: other := by
    intro number rest other same
    obtain ⟨digit, others, digits, isDigit⟩ := exists_digits_eq_cons number
    rw [digits, List.cons_append] at same
    rw [(List.cons.inj same).1] at isDigit
    cases isDigit
  rw [toList_ofInt, toList_ofInt] at same
  split_ifs at same with negative otherNegative otherNegative
  · rcases digits_append_inj ends otherEnds (List.cons.inj same).2 with ⟨sameSize, sameRest⟩
    exact ⟨by omega, sameRest⟩
  · exact absurd same.symm (noSign _ _ _)
  · exact absurd same (noSign _ _ _)
  · rcases digits_append_inj ends otherEnds same with ⟨sameSize, sameRest⟩
    exact ⟨by omega, sameRest⟩

/-! ### Containers -/

/-- Items with a comma in front of each. -/
def commaFirst {α : Type} (write : α → List Char) (items : List α) : List Char :=
  items.flatMap fun item => ',' :: write item

theorem toList_enclose (opening closing : Char) {α : Type} (write : α → String) (items : List α) :
    (enclose (String.singleton opening) (String.singleton closing) (items.map write)).toList =
      opening :: ((commaFirst (fun item => (write item).toList) items).tail ++ [closing]) := by
  have comma : ",".toList = [','] := by decide
  have inside : (",".intercalate (items.map write)).toList =
      (commaFirst (fun item => (write item).toList) items).tail := by
    induction items with
    | nil => simp [commaFirst]
    | cons first others ih =>
        cases others with
        | nil => simp [commaFirst]
        | cons second later =>
            rw [List.map_cons, List.map_cons, String.intercalate_cons_cons, String.toList_append,
              String.toList_append, ← List.map_cons, ih, comma]
            simp [commaFirst]
  rw [enclose, String.toList_append, String.toList_append, inside, String.toList_singleton,
    String.toList_singleton, List.singleton_append, List.cons_append]

section Enclosed

variable {α : Type} {write : α → List Char} {closing : Char} {items otherItems : List α}
  {rest otherRest : List Char}

/-- Whether two texts that go on with no digit are told apart, and where they end. -/
def ToldApart (write : α → List Char) (first second : α) : Prop :=
  ∀ {rest otherRest : List Char}, EndsNumber rest → EndsNumber otherRest →
    write first ++ rest = write second ++ otherRest → first = second ∧ rest = otherRest

theorem endsNumber_commaFirst (notDigit : closing.isDigit = false) (items : List α)
    (rest : List Char) : EndsNumber (commaFirst write items ++ closing :: rest) := by
  intro character atHead
  cases items with
  | nil =>
      cases atHead
      exact notDigit
  | cons item others =>
      cases atHead
      rfl

/-- Items with commas in front are told apart if each of them is. -/
theorem commaFirst_append_inj (notComma : closing ≠ ',') (notDigit : closing.isDigit = false)
    (each : ∀ first ∈ items, ∀ second ∈ otherItems, ToldApart write first second)
    (same : commaFirst write items ++ closing :: rest =
      commaFirst write otherItems ++ closing :: otherRest) :
    items = otherItems ∧ rest = otherRest := by
  induction items generalizing otherItems with
  | nil =>
      cases otherItems with
      | nil => exact ⟨rfl, (List.cons.inj same).2⟩
      | cons item others => exact absurd (List.cons.inj same).1 notComma
  | cons item others ih =>
      cases otherItems with
      | nil => exact absurd (List.cons.inj same).1.symm notComma
      | cons otherItem later =>
          simp only [commaFirst, List.flatMap_cons, List.cons_append, List.append_assoc,
            List.cons.injEq, true_and] at same
          rcases each item (by simp) otherItem (by simp) (endsNumber_commaFirst notDigit _ _)
            (endsNumber_commaFirst notDigit _ _) same with ⟨rfl, sameLater⟩
          have eachLater : ∀ first ∈ others, ∀ second ∈ later, ToldApart write first second :=
            fun first mem second otherMem => each first (by simp [mem]) second (by simp [otherMem])
          rcases ih eachLater sameLater with ⟨rfl, sameRest⟩
          exact ⟨rfl, sameRest⟩

/-- Whether a text begins with a character other than the given one. -/
def StartsBesides (closing : Char) (text : List Char) : Prop :=
  ∃ character others, text = character :: others ∧ character ≠ closing

/-- Items between brackets are told apart if each of them is. -/
theorem enclosed_append_inj (notComma : closing ≠ ',') (notDigit : closing.isDigit = false)
    (each : ∀ first ∈ items, ∀ second ∈ otherItems, ToldApart write first second)
    (starts : ∀ item ∈ items, StartsBesides closing (write item))
    (otherStarts : ∀ item ∈ otherItems, StartsBesides closing (write item))
    (same : (commaFirst write items).tail ++ closing :: rest =
      (commaFirst write otherItems).tail ++ closing :: otherRest) :
    items = otherItems ∧ rest = otherRest := by
  cases items with
  | nil =>
      cases otherItems with
      | nil => exact ⟨rfl, (List.cons.inj same).2⟩
      | cons item others =>
          rcases otherStarts item (by simp) with ⟨character, later, text, notClosing⟩
          simp only [commaFirst, List.flatMap_cons, List.flatMap_nil, text, List.cons_append,
            List.tail_cons, List.tail_nil, List.nil_append, List.cons.injEq] at same
          exact absurd same.1.symm notClosing
  | cons item others =>
      cases otherItems with
      | nil =>
          rcases starts item (by simp) with ⟨character, later, text, notClosing⟩
          simp only [commaFirst, List.flatMap_cons, List.flatMap_nil, text, List.cons_append,
            List.tail_cons, List.tail_nil, List.nil_append, List.cons.injEq] at same
          exact absurd same.1 notClosing
      | cons otherItem later =>
          exact commaFirst_append_inj notComma notDigit each (congrArg (',' :: ·) same)

end Enclosed

/-! ### Values -/

/-- A value without a real number. -/
inductive Exact : Json → Prop where
  | null : Exact .null
  | bool (truth : Bool) : Exact (.bool truth)
  | int (number : Int) : Exact (.int number)
  | string (text : String) : Exact (.string text)
  | array {items : List Json} (each : ∀ item ∈ items, Exact item) : Exact (.array items)
  | object {members : List (String × Json)} (each : ∀ member ∈ members, Exact member.2) :
      Exact (.object members)

/-- The sorts of values; the two truth values are sorts of their own. -/
inductive Shape where
  | null
  | truth (truth : Bool)
  | number
  | text
  | array
  | object

/-- Of which sort a value is. -/
def shape : Json → Shape
  | .null => .null
  | .bool truth => .truth truth
  | .int _ | .real _ => .number
  | .string _ => .text
  | .array _ => .array
  | .object _ => .object

/-- Of which sort the values are whose texts begin with a character. -/
def shapeOf (character : Char) : Option Shape :=
  if character.isDigit then some .number
  else
    match character with
    | '-' => some .number
    | 'n' => some .null
    | 't' => some (.truth true)
    | 'f' => some (.truth false)
    | '\x22' => some .text
    | '[' => some .array
    | '\x7b' => some .object
    | _ => none

theorem compactItems_eq (items : List Json) : compactItems items = items.map compact := by
  induction items with
  | nil => rfl
  | cons item others ih => rw [compactItems, ih, List.map_cons]

/-- A member of an object. -/
def compactMember (member : String × Json) : String := quote member.1 ++ ":" ++ compact member.2

theorem compactMembers_eq (members : List (String × Json)) :
    compactMembers members = members.map compactMember := by
  induction members with
  | nil => rfl
  | cons member others ih => rw [compactMembers, ih, List.map_cons, compactMember]

theorem toList_compact_array (items : List Json) :
    (compact (.array items)).toList =
      '[' :: ((commaFirst (fun item => (compact item).toList) items).tail ++ [']']) := by
  rw [compact, compactItems_eq]
  exact toList_enclose '[' ']' compact items

theorem toList_compact_object (members : List (String × Json)) :
    (compact (.object members)).toList =
      '\x7b' :: ((commaFirst (fun member => (compactMember member).toList) members).tail
        ++ ['\x7d']) := by
  rw [compact, compactMembers_eq]
  exact toList_enclose '\x7b' '\x7d' compactMember members

/-- Of which sort a value is can be told from the first character of its text. -/
theorem Exact.exists_shapeOf {json : Json} (exact : Exact json) :
    ∃ character others, (compact json).toList = character :: others ∧
      shapeOf character = some json.shape := by
  cases exact with
  | null => exact ⟨'n', ['u', 'l', 'l'], by decide, rfl⟩
  | bool truth =>
      cases truth with
      | true => exact ⟨'t', ['r', 'u', 'e'], by decide, rfl⟩
      | false => exact ⟨'f', ['a', 'l', 's', 'e'], by decide, rfl⟩
  | int number =>
      rcases exists_digits_eq_cons number.natAbs with ⟨digit, others, digits, isDigit⟩
      rw [compact, toList_ofInt, digits]
      split_ifs
      · exact ⟨_, _, rfl, rfl⟩
      · exact ⟨_, _, rfl, if_pos isDigit⟩
  | string text =>
      rw [compact, toList_quote]
      exact ⟨_, _, rfl, rfl⟩
  | array =>
      rw [toList_compact_array]
      exact ⟨_, _, rfl, rfl⟩
  | object =>
      rw [toList_compact_object]
      exact ⟨_, _, rfl, rfl⟩

theorem Exact.startsBesides {json : Json} (exact : Exact json) :
    StartsBesides ']' (compact json).toList := by
  rcases exact.exists_shapeOf with ⟨character, others, text, shape⟩
  refine ⟨character, others, text, ?_⟩
  rintro rfl
  cases shape

theorem Exact.shape_eq {first second : Json} (exact : Exact first) (otherExact : Exact second)
    {rest otherRest : List Char}
    (same : (compact first).toList ++ rest = (compact second).toList ++ otherRest) :
    first.shape = second.shape := by
  rcases exact.exists_shapeOf with ⟨character, others, text, shape⟩
  rcases otherExact.exists_shapeOf with ⟨other, later, otherText, otherShape⟩
  rw [text, otherText, List.cons_append, List.cons_append] at same
  rw [(List.cons.inj same).1, otherShape] at shape
  exact (Option.some.inj shape).symm

theorem compactMember_startsBesides (member : String × Json) :
    StartsBesides '\x7d' (compactMember member).toList := by
  rw [compactMember, String.toList_append, String.toList_append, toList_quote]
  exact ⟨_, _, rfl, by decide⟩

/-- Members are told apart by their names and values. -/
theorem toldApart_member {first second : String × Json}
    (values : ToldApart (fun json => (compact json).toList) first.2 second.2) :
    ToldApart (fun member => (compactMember member).toList) first second := by
  intro rest otherRest ends otherEnds same
  simp only [compactMember, String.toList_append, List.append_assoc] at same
  rcases quote_append_inj same with ⟨sameName, sameLater⟩
  rcases values ends otherEnds (List.append_cancel_left sameLater) with ⟨sameValue, sameRest⟩
  exact ⟨Prod.ext sameName sameValue, sameRest⟩

/-- Values without real numbers are told apart by their compact texts. -/
theorem Exact.toldApart {first second : Json} (exact : Exact first) (otherExact : Exact second) :
    ToldApart (fun json => (compact json).toList) first second := by
  induction exact generalizing second with
  | null =>
      intro rest otherRest _ _ same
      have sameShape := Exact.shape_eq .null otherExact same
      cases otherExact with
      | null => exact ⟨rfl, List.append_cancel_left same⟩
      | _ => cases sameShape
  | bool truth =>
      intro rest otherRest _ _ same
      have sameShape := Exact.shape_eq (.bool truth) otherExact same
      cases otherExact with
      | bool otherTruth =>
          cases sameShape
          exact ⟨rfl, List.append_cancel_left same⟩
      | _ => cases sameShape
  | int number =>
      intro rest otherRest ends otherEnds same
      have sameShape := Exact.shape_eq (.int number) otherExact same
      cases otherExact with
      | int other =>
          rcases ofInt_append_inj ends otherEnds same with ⟨rfl, sameRest⟩
          exact ⟨rfl, sameRest⟩
      | _ => cases sameShape
  | string text =>
      intro rest otherRest _ _ same
      have sameShape := Exact.shape_eq (.string text) otherExact same
      cases otherExact with
      | string otherText =>
          rcases quote_append_inj same with ⟨rfl, sameRest⟩
          exact ⟨rfl, sameRest⟩
      | _ => cases sameShape
  | array each ih =>
      intro rest otherRest _ _ same
      have sameShape := Exact.shape_eq (.array each) otherExact same
      cases otherExact with
      | array otherEach =>
          simp only [toList_compact_array, List.cons_append, List.append_assoc, List.nil_append,
            List.cons.injEq, true_and] at same
          have told := enclosed_append_inj (by decide) (by decide)
            (fun item mem other otherMem => ih item mem (otherEach other otherMem))
            (fun item mem => (each item mem).startsBesides)
            (fun item mem => (otherEach item mem).startsBesides) same
          exact ⟨congrArg Json.array told.1, told.2⟩
      | _ => cases sameShape
  | object each ih =>
      intro rest otherRest _ _ same
      have sameShape := Exact.shape_eq (.object each) otherExact same
      cases otherExact with
      | object otherEach =>
          simp only [toList_compact_object, List.cons_append, List.append_assoc, List.nil_append,
            List.cons.injEq, true_and] at same
          have told := enclosed_append_inj (by decide) (by decide)
            (fun member mem other otherMem =>
              toldApart_member (ih member mem (otherEach other otherMem)))
            (fun member _ => compactMember_startsBesides member)
            (fun member _ => compactMember_startsBesides member) same
          exact ⟨congrArg Json.object told.1, told.2⟩
      | _ => cases sameShape

/-- Different values without real numbers have different compact texts. -/
theorem Exact.compact_inj {first second : Json} (exact : Exact first) (otherExact : Exact second)
    (same : first.compact = second.compact) : first = second := by
  have ends : EndsNumber [] := nofun
  exact (exact.toldApart otherExact ends ends (congrArg (fun text => text.toList ++ []) same)).1

end Json

end ThriftIdl
