import ThriftIdl.Proofs.Grammar.First

/-!
# Rules of one token

Choices between tokens, such as the forms of a number, never look beyond the first byte that cannot
go on with a name. Whatever stands behind that byte, they read the same or they refuse.
-/

namespace ThriftIdl

variable {α β : Type}

/-- What a rule does with bytes that no name goes on behind. -/
inductive LexesAs (rule : Rule α) (front : List UInt8) : Prop where
  /-- It reads a token that begins there. -/
  | found (value : α) (length : Nat) (positive : 0 < length) (fits : length ≤ front.length)
      (read : ∀ tail, Stops Byte.isIdentifier tail →
        rule.read (front ++ tail) = some (value, Gap.rest (front.drop length ++ tail)))
  /-- It refuses. -/
  | missing (read : ∀ tail, Stops Byte.isIdentifier tail → rule.read (front ++ tail) = none)

/-- Whether a rule reads one token and does not depend on what comes behind it. -/
def Rule.Lexical (rule : Rule α) : Prop := ∀ front, front ≠ [] → LexesAs rule front

theorem lexical_token {terminal : Token α} (plain : terminal.isPlain = true)
    (unquoted : terminal.isQuoted = false)
    (name : ∀ byte, terminal.continues byte = true → Byte.isIdentifier byte = true) :
    (Rule.token terminal).Lexical := by
  intro front notEmpty
  have same : ∀ {tail : List UInt8}, Stops Byte.isIdentifier tail →
      terminal.recognize (front ++ tail) = terminal.recognize front := fun stops =>
    Token.recognize_append plain unquoted notEmpty (stops.mono name)
  cases recognized : terminal.recognize front with
  | found value length =>
      have spans := Token.recognize_spans plain recognized
      refine .found value length spans.positive spans.fits fun tail stops => ?_
      refine Token.read_eq_some_iff.2 ⟨length, (same stops).trans recognized, ?_⟩
      rw [List.drop_append_of_le_length spans.fits]
  | missing kind expected understood =>
      exact .missing fun tail stops => Token.read_eq_none_iff.2
        ⟨kind, expected, understood, (same stops).trans recognized⟩

namespace Rule.Lexical

variable {rule : Rule α} {expected : String} {alternatives : List (Rule α)}

theorem bind_pure (lexical : rule.Lexical) (function : α → β) :
    (Rule.bind rule fun value => .pure (function value)).Lexical := by
  intro front notEmpty
  cases lexical front notEmpty with
  | found value length positive fits read =>
      exact .found (function value) length positive fits fun tail stops =>
        read_bind_of_some (read tail stops)
  | missing read => exact .missing fun tail stops => read_bind_of_none (read tail stops)

theorem oneOf (lexical : ∀ rule ∈ alternatives, rule.Lexical) :
    (Rule.oneOf expected alternatives).Lexical := by
  intro front notEmpty
  induction alternatives with
  | nil => exact .missing fun _ _ => rfl
  | cons first others ih =>
      cases lexical first (by simp) front notEmpty with
      | found value length positive fits read =>
          exact .found value length positive fits fun tail stops =>
            read_oneOf_of_some (read tail stops)
      | missing readFirst =>
          cases ih fun rule mem => lexical rule (by simp [mem]) with
          | found value length positive fits read =>
              exact .found value length positive fits fun tail stops =>
                (read_oneOf_of_none (readFirst tail stops)).trans (read tail stops)
          | missing read =>
              exact .missing fun tail stops =>
                (read_oneOf_of_none (readFirst tail stops)).trans (read tail stops)

/-- Whether a token is there does not depend on what comes behind. -/
theorem read_append_eq_none_iff (lexical : rule.Lexical) {front tail : List UInt8}
    (notEmpty : front ≠ []) (stops : Stops Byte.isIdentifier tail) :
    rule.read (front ++ tail) = none ↔ rule.read front = none := by
  have atEnd := stops_nil Byte.isIdentifier
  cases lexical front notEmpty with
  | found value length positive fits read =>
      have whole := read [] atEnd
      rw [List.append_nil] at whole
      simp [read tail stops, whole]
  | missing read =>
      have whole := read [] atEnd
      rw [List.append_nil] at whole
      simp [read tail stops, whole]

end Rule.Lexical

namespace Grammar

open Rule

/-- The forms of a number, in the order in which they are tried. -/
def numberForms : List (Rule Value) :=
  [ .int <$> .token .hexadecimal,
    .double <$> .token .scientific,
    .token .decimal,
    .int <$> .token .integer ]

/-- A number. -/
def number : Rule Value := oneOf "a number" numberForms

theorem lexical_number : number.Lexical := by
  apply Lexical.oneOf
  simp only [numberForms, map_eq, List.forall_mem_cons]
  exact ⟨(lexical_token rfl rfl fun _ => id).bind_pure _,
    (lexical_token rfl rfl fun _ => id).bind_pure _, lexical_token rfl rfl fun _ => id,
    (lexical_token rfl rfl fun _ => id).bind_pure _, by simp⟩

theorem lexical_integer : integer.Lexical := by
  apply Lexical.oneOf
  simp only [List.forall_mem_cons]
  exact ⟨lexical_token rfl rfl fun _ => id, lexical_token rfl rfl fun _ => id, by simp⟩

@[simp]
theorem wellFormed_number : number.WellFormed := by
  simp +decide [number, numberForms]

@[simp]
theorem not_nullable_number : ¬number.Nullable := by
  simp [number, numberForms]

/-- Whether a number may begin with a byte. -/
def opensNumber (byte : UInt8) : Bool :=
  Byte.isSign byte || Byte.isNumeral byte || Byte.isExponentMark byte

theorem opensNumber_of_opens {byte : UInt8} (opens : number.Opens byte) :
    opensNumber byte = true := by
  simp [number, numberForms, Token.opens] at opens
  grind [opensNumber, Byte.isSign, Byte.isNumeral, Byte.isDigit]

/-- A number is absent where a byte comes first that no number begins with. -/
theorem read_number_eq_none {bytes : List UInt8} (stops : Stops opensNumber bytes) :
    number.read bytes = none :=
  read_eq_none_of_stops wellFormed_number not_nullable_number (fun _ => opensNumber_of_opens) stops

end Grammar

end ThriftIdl
