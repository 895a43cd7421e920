import ThriftIdl.Proofs.Json.Compact
import ThriftIdl.Tool.ToJson

/-!
# The two layouts of JSON

Pretty text is compact text with blanks in it. Where a blank stands makes a difference, since a
string may have blanks of its own, and quotes that do not end it. `squeeze` therefore reads a text
from the start and keeps track of whether it is inside a string; it drops the spaces and the line
feeds that stand outside.

`Condenses` says of two texts that squeezing the one gives the other, whatever follows. It is kept
when texts are put together, so it holds of the two layouts of a value if it holds of their parts.
-/

namespace ThriftIdl

namespace Json

/-- Where in a text a reader is. -/
inductive Place where
  | outside
  | inside
  /-- Inside a string, right behind a backslash. -/
  | shielded
  deriving DecidableEq, Repr

/-- Where a reader is behind a character. -/
def Place.next : Place → Char → Place
  | .outside, character => if character = '\x22' then .inside else .outside
  | .inside, character =>
    if character = '\x22' then .outside else if character = '\\' then .shielded else .inside
  | .shielded, _ => .inside

/-- A space or a line feed. -/
def isFiller (character : Char) : Bool := character == ' ' || character == '\n'

/-- A text without the spaces and the line feeds that stand outside of its strings. -/
def squeezeFrom (place : Place) : List Char → List Char
  | [] => []
  | character :: rest =>
    if place = .outside ∧ isFiller character = true then squeezeFrom place rest
    else character :: squeezeFrom (place.next character) rest

/-- A text without the spaces and the line feeds that stand outside of its strings. -/
def squeeze (text : String) : String := String.ofList (squeezeFrom .outside text.toList)

/--
Whether a text comes to another one without control characters when it is squeezed. Both begin and
end outside of strings.
-/
structure Condenses (text condensed : String) : Prop where
  squeezeFrom : ∀ rest, squeezeFrom .outside (text.toList ++ rest) =
    condensed.toList ++ squeezeFrom .outside rest
  printable : ∀ character ∈ condensed.toList, 0x20 ≤ character.toNat

/-- A character that is no quote, no blank and no control character. -/
def isPlain (character : Char) : Bool := 0x20 < character.toNat && character != '\x22'

def Plain (text : String) : Prop := text.toList.all isPlain = true

instance (text : String) : Decidable (Plain text) :=
  inferInstanceAs (Decidable (text.toList.all isPlain = true))

variable {first second text condensed : String}

/-! ### Putting texts together -/

theorem Condenses.append {firstCompact secondCompact : String}
    (front : Condenses first firstCompact) (back : Condenses second secondCompact) :
    Condenses (first ++ second) (firstCompact ++ secondCompact) := by
  refine ⟨fun rest => ?_, fun character mem => ?_⟩
  · rw [String.toList_append, String.toList_append, List.append_assoc, List.append_assoc,
      front.squeezeFrom, back.squeezeFrom]
  · rw [String.toList_append] at mem
    rcases List.mem_append.1 mem with mem | mem
    · exact front.printable character mem
    · exact back.printable character mem

theorem Plain.append (front : Plain first) (back : Plain second) : Plain (first ++ second) := by
  rw [Plain, String.toList_append, List.all_append, front, back]
  rfl

theorem Plain.spec (plain : Plain text) :
    ∀ character ∈ text.toList, 0x20 < character.toNat ∧ character ≠ '\x22' := by
  simpa [Plain, isPlain] using plain

/-- A text without quotes and blanks stays as it is. -/
theorem Plain.condenses (plain : Plain text) : Condenses text text := by
  have plain := plain.spec
  refine ⟨fun rest => ?_, fun character mem => (plain character mem).1.le⟩
  generalize text.toList = characters at plain ⊢
  induction characters with
  | nil => rfl
  | cons character others ih =>
      rcases List.forall_mem_cons.1 plain with ⟨⟨visible, notQuote⟩, others⟩
      have notFiller : isFiller character = false := by
        unfold isFiller
        rw [Bool.or_eq_false_iff, beq_eq_false_iff_ne, beq_eq_false_iff_ne]
        constructor <;> (rintro rfl; revert visible; decide)
      have stays : Place.next .outside character = .outside := if_neg notQuote
      rw [List.cons_append, Json.squeezeFrom, if_neg (by simp [notFiller]), stays, ih others]
      rfl

theorem condenses_filler (filler : text.toList.all isFiller = true) : Condenses text "" := by
  refine ⟨fun rest => ?_, by simp⟩
  generalize text.toList = characters at filler ⊢
  induction characters with
  | nil => rfl
  | cons character others ih =>
      rw [List.all_cons, Bool.and_eq_true] at filler
      rw [List.cons_append, Json.squeezeFrom, if_pos ⟨rfl, filler.1⟩, ih filler.2]

theorem condenses_newLine (level : Nat) : Condenses (newLine level) "" := by
  have lineFeed : Condenses "\n" "" := condenses_filler (by decide)
  have spaces : Condenses (String.ofList (List.replicate (2 * level) ' ')) "" :=
    condenses_filler (by simp [isFiller])
  exact lineFeed.append spaces

/-! ### Strings -/

/-- Whether a reader stays inside a string on some characters, and none of them is a control
character. -/
structure StaysInside (characters : List Char) : Prop where
  squeezeFrom : ∀ rest, squeezeFrom .inside (characters ++ rest) =
    characters ++ squeezeFrom .inside rest
  printable : ∀ character ∈ characters, 0x20 ≤ character.toNat

namespace StaysInside

variable {characters others : List Char}

theorem append (front : StaysInside characters) (back : StaysInside others) :
    StaysInside (characters ++ others) := by
  refine ⟨fun rest => ?_, fun character mem => ?_⟩
  · rw [List.append_assoc, front.squeezeFrom, back.squeezeFrom, List.append_assoc]
  · exact (List.mem_append.1 mem).elim (front.printable character) (back.printable character)

theorem of_forall (printable : ∀ character ∈ characters, 0x20 ≤ character.toNat)
    (ordinary : ∀ character ∈ characters, character ≠ '\x22' ∧ character ≠ '\\') :
    StaysInside characters := by
  refine ⟨fun rest => ?_, printable⟩
  clear printable
  induction characters with
  | nil => rfl
  | cons character others ih =>
      rcases List.forall_mem_cons.1 ordinary with ⟨⟨notQuote, notBackslash⟩, others⟩
      have stays : Place.next .inside character = .inside := by
        rw [Place.next, if_neg notQuote, if_neg notBackslash]
      rw [List.cons_append, Json.squeezeFrom, if_neg (by simp), stays, ih others]
      rfl

/-- A backslash shields the character behind it. -/
theorem shielded {character : Char} (printable : 0x20 ≤ character.toNat) :
    StaysInside ['\\', character] :=
  ⟨fun _ => rfl, by simpa using printable⟩

end StaysInside

theorem paddedHex_control_ordinary : ∀ number < 0x20,
    (Numeral.paddedHex 4 number).toList.all (fun digit =>
      decide (0x20 ≤ digit.toNat ∧ digit ≠ '\x22' ∧ digit ≠ '\\')) = true := by
  decide +kernel

theorem staysInside_escape (character : Char) : StaysInside (escape character).toList := by
  unfold escape
  split_ifs with isQuote backslash backspace tab lineFeed formFeed carriageReturn control
  · exact .shielded (by decide)
  · exact .shielded (by decide)
  · exact .shielded (by decide)
  · exact .shielded (by decide)
  · exact .shielded (by decide)
  · exact .shielded (by decide)
  · exact .shielded (by decide)
  · rw [String.toList_append]
    have digits := paddedHex_control_ordinary character.toNat control
    simp only [List.all_eq_true, decide_eq_true_eq] at digits
    have opening : StaysInside ['\\', 'u'] := .shielded (by decide)
    exact opening.append
      (.of_forall (fun digit mem => (digits digit mem).1) fun digit mem => (digits digit mem).2)
  · rw [String.toList_singleton]
    exact .of_forall (by simpa using control) (by simpa using ⟨isQuote, backslash⟩)

theorem condenses_quote (text : String) : Condenses (quote text) (quote text) := by
  have inside : StaysInside (text.toList.flatMap fun character => (escape character).toList) := by
    induction text.toList with
    | nil => exact .of_forall (by simp) (by simp)
    | cons character others ih => exact (staysInside_escape character).append ih
  refine ⟨fun rest => ?_, fun character mem => ?_⟩
  · have closing : ∀ rest, squeezeFrom .inside ('\x22' :: rest) =
        '\x22' :: squeezeFrom .outside rest := fun _ => rfl
    have opening : ∀ rest, squeezeFrom .outside ('\x22' :: rest) =
        '\x22' :: squeezeFrom .inside rest := fun _ => rfl
    rw [toList_quote, List.cons_append, opening, List.append_assoc, inside.squeezeFrom,
      List.singleton_append, closing]
    simp
  · rw [toList_quote] at mem
    simp only [List.mem_cons, List.mem_append, List.not_mem_nil, or_false] at mem
    rcases mem with rfl | mem | rfl
    · decide
    · exact inside.printable character mem
    · decide

/-! ### Numbers -/

def AreDigits (characters : List Char) : Prop :=
  ∀ character ∈ characters, character.isDigit = true

theorem AreDigits.plain {characters : List Char} (digits : AreDigits characters) :
    Plain (String.ofList characters) := by
  rw [Plain, String.toList_ofList, List.all_eq_true]
  intro character mem
  have isDigit := digits character mem
  have atLeast : 48 ≤ character.toNat := (Char.isDigit_iff_toNat.1 isDigit).1
  have notQuote : character ≠ '\x22' := by
    rintro rfl
    cases isDigit
  simp only [isPlain, bne_iff_ne.2 notQuote, Bool.and_true, decide_eq_true_eq]
  omega

theorem areDigits_replicate (count : Nat) : AreDigits (List.replicate count '0') := by
  intro character mem
  rw [(List.mem_replicate.1 mem).2]
  rfl

theorem areDigits_digits (number : Nat) : AreDigits (Numeral.digits number) :=
  fun _ mem => isDigit_of_mem_digits mem

theorem plain_ofNat (number : Nat) : Plain (Numeral.ofNat number) := (areDigits_digits number).plain

theorem plain_ofInt (number : Int) : Plain (Numeral.ofInt number) := by
  unfold Numeral.ofInt
  split_ifs
  · exact Plain.append (by decide) (plain_ofNat _)
  · exact plain_ofNat _

theorem plain_pointed {digits : List Char} (areDigits : AreDigits digits) :
    Plain (pointed digits) := by
  have single : ∀ digit ∈ digits, Plain (String.singleton digit) := by
    intro digit mem
    rw [String.singleton_eq_ofList]
    exact AreDigits.plain (by simpa [AreDigits] using areDigits digit mem)
  cases digits with
  | nil => decide
  | cons digit others =>
      have ofOthers : Plain (String.ofList others) :=
        AreDigits.plain fun other mem => areDigits other (by simp [mem])
      cases others with
      | nil => exact single digit (by simp)
      | cons second others =>
          have point : Plain "." := by decide
          exact ((single digit (by simp)).append point).append ofOthers

theorem plain_positional {digits : List Char} (areDigits : AreDigits digits) (exponent : Int) :
    Plain (positional digits exponent) := by
  have front : ∀ count, Plain (String.ofList (digits.take count)) := fun count =>
    AreDigits.plain fun digit mem => areDigits digit (List.mem_of_mem_take mem)
  have back : ∀ count, Plain (String.ofList (digits.drop count)) := fun count =>
    AreDigits.plain fun digit mem => areDigits digit (List.mem_of_mem_drop mem)
  have zeros : ∀ count, Plain (String.ofList (List.replicate count '0')) := fun count =>
    (areDigits_replicate count).plain
  have point : Plain "." := by decide
  have wholeNumber : Plain ".0" := by decide
  have fraction : Plain "0." := by decide
  unfold positional
  dsimp only
  split_ifs
  · rw [String.ofList_append]
    exact (areDigits.plain.append (zeros _)).append wholeNumber
  · exact ((front _).append point).append (back _)
  · rw [String.ofList_append]
    exact fraction.append ((zeros _).append areDigits.plain)

theorem plain_decimal (number : Decimal) (large : Bool) : Plain (decimal number large) := by
  have areDigits := areDigits_digits number.digits
  have plus : Plain "e+" := by decide
  have letter : Plain "e" := by decide
  unfold decimal
  dsimp only
  split_ifs
  · exact ((plain_pointed areDigits).append plus).append (plain_ofInt _)
  · exact ((plain_pointed areDigits).append letter).append (plain_ofInt _)
  · exact plain_positional areDigits _

theorem plain_numeral (number : Binary64) : Plain (numeral number) := by
  have sign : Plain (if number.negative then "-" else "") := by
    cases number.negative <;> decide
  unfold numeral
  dsimp only
  by_cases notFinite : (!number.isFinite) = true
  · rw [if_pos notFinite]
    decide
  · by_cases isZero : number.significand = 0
    · rw [if_neg notFinite, if_pos isZero]
      split_ifs <;> decide
    · rw [if_neg notFinite, if_neg isZero]
      exact sign.append (plain_decimal _ _)

/-! ### Containers -/

theorem Condenses.append_filler {filler : String} (front : Condenses first condensed)
    (vanishes : Condenses filler "") : Condenses (first ++ filler) condensed := by
  have both := front.append vanishes
  rwa [String.append_empty] at both

theorem condenses_intercalate {separator : String} (condenses : Condenses separator ",")
    {items compacts : List String} (each : List.Forall₂ Condenses items compacts) :
    Condenses (separator.intercalate items) (",".intercalate compacts) := by
  induction each with
  | nil => exact condenses_filler (by simp)
  | @cons item itemCompact items compacts ofItem ofItems ih =>
      cases ofItems with
      | nil => simpa using ofItem
      | cons ofSecond ofOthers =>
          rw [String.intercalate_cons_cons, String.intercalate_cons_cons]
          exact (ofItem.append condenses).append ih

/-- Items on lines of their own come to items with commas only. -/
theorem condenses_encloseLines {opening closing : String} (opens : Plain opening)
    (closes : Plain closing) (level : Nat) {items compacts : List String}
    (each : List.Forall₂ Condenses items compacts) :
    Condenses (encloseLines level opening closing items) (enclose opening closing compacts) := by
  have comma : Plain "," := by decide
  have separator : Condenses ("," ++ newLine (level + 1)) "," :=
    comma.condenses.append_filler (condenses_newLine _)
  unfold encloseLines enclose
  cases each with
  | nil => simpa using opens.condenses.append closes.condenses
  | cons ofFirst ofOthers =>
      have inside := condenses_intercalate separator (.cons ofFirst ofOthers)
      have opened := opens.condenses.append_filler (condenses_newLine (level + 1))
      exact ((opened.append inside).append_filler (condenses_newLine level)).append
        closes.condenses

theorem condenses_member (name : String) (value : Condenses text condensed) :
    Condenses (quote name ++ ": " ++ text) (quote name ++ ":" ++ condensed) := by
  have mark : Plain ":" := by decide
  have space : Condenses " " "" := condenses_filler (by decide)
  have colon : Condenses ": " ":" := mark.condenses.append_filler space
  exact ((condenses_quote name).append colon).append value

mutual

/-- Squeezed, the pretty text of a value at any level is its compact text. -/
theorem condenses_prettyAt : (json : Json) → (level : Nat) →
    Condenses (prettyAt level json) (compact json)
  | .null, _ =>
    have plain : Plain "null" := by decide
    plain.condenses
  | .bool true, _ =>
    have plain : Plain "true" := by decide
    plain.condenses
  | .bool false, _ =>
    have plain : Plain "false" := by decide
    plain.condenses
  | .int number, _ => (plain_ofInt number).condenses
  | .real number, _ => (plain_numeral number).condenses
  | .string text, _ => condenses_quote text
  | .array items, level =>
    have opens : Plain "[" := by decide
    have closes : Plain "]" := by decide
    condenses_encloseLines opens closes level (condenses_prettyItems items (level + 1))
  | .object members, level =>
    have opens : Plain "\x7b" := by decide
    have closes : Plain "\x7d" := by decide
    condenses_encloseLines opens closes level (condenses_prettyMembers members (level + 1))

theorem condenses_prettyItems : (items : List Json) → (level : Nat) →
    List.Forall₂ Condenses (prettyItems level items) (compactItems items)
  | [], _ => .nil
  | item :: rest, level =>
    .cons (condenses_prettyAt item level) (condenses_prettyItems rest level)

theorem condenses_prettyMembers : (members : List (String × Json)) → (level : Nat) →
    List.Forall₂ Condenses (prettyMembers level members) (compactMembers members)
  | [], _ => .nil
  | (name, value) :: rest, level =>
    .cons (condenses_member name (condenses_prettyAt value level))
      (condenses_prettyMembers rest level)

end

/-- Without its blanks the pretty text of a value is the compact one. -/
theorem squeeze_pretty (json : Json) : squeeze json.pretty = json.compact := by
  have condenses := (condenses_prettyAt json 0).squeezeFrom []
  rw [List.append_nil] at condenses
  rw [squeeze, pretty, condenses]
  simp [Json.squeezeFrom]

/-- The space in the string stays, although a quote stands in front of it. -/
example : squeeze "[\n  \"a\\\" b\"\n]" = "[\"a\\\" b\"]" := by
  decide +kernel

end Json

namespace ToJson

/--
For any file the two layouts go together: either both conversions fail with one message, or the
pretty text without the spaces and the line feeds outside of its strings is the compact text, in
which there is no control character.
-/
theorem convert_layouts (keep : Bool) (file source : String) :
    (∃ message, (⟨true, keep, file⟩ : ToJson).convert source = .error message ∧
      (⟨false, keep, file⟩ : ToJson).convert source = .error message) ∨
    ∃ compact pretty, (⟨true, keep, file⟩ : ToJson).convert source = .ok compact ∧
      (⟨false, keep, file⟩ : ToJson).convert source = .ok pretty ∧
      Json.squeeze pretty = compact ∧ ∀ byte ∈ Utf8.encode compact, 0x20 ≤ byte := by
  have sameReading : (⟨true, keep, file⟩ : ToJson).reading source =
      (⟨false, keep, file⟩ : ToJson).reading source := rfl
  unfold convert
  rw [sameReading]
  cases ((⟨false, keep, file⟩ : ToJson).reading source).document with
  | error error => exact .inl ⟨_, rfl, rfl⟩
  | ok document =>
      refine .inr ⟨_, _, rfl, rfl, Json.squeeze_pretty document.toJson, ?_⟩
      intro byte mem
      rcases List.mem_flatMap.1 mem with ⟨character, memText, mem⟩
      have printable := (Json.condenses_prettyAt document.toJson 0).printable character memText
      exact Utf8.le_of_mem_utf8EncodeChar printable mem

end ToJson

end ThriftIdl
