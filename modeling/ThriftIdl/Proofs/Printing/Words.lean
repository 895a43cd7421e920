import ThriftIdl.Proofs.Grammar.Types
import ThriftIdl.Proofs.Printing.Numeral

/-!
# Printed words, marks, types and texts

What is printed is read back if what follows cannot continue it. The smallest parts are read back
because they begin with no gap and because the bytes behind them end them; a type is read back part
by part. Between quotes a text is read back because the quotes were chosen to enclose it.
-/

namespace ThriftIdl

/--
Whether a text spells something wherever it stands, as long as the bytes behind it are of a certain
kind. A gap behind the text is passed over with it.
-/
def Prints (spells : List UInt8 → List UInt8 → Prop) (follows : List UInt8 → Prop)
    (text : String) : Prop :=
  ∀ tail, follows tail → spells (Gap.rest (Utf8.encode text ++ tail)) (Gap.rest tail)

/-- Nothing needs to be known of what follows. -/
def Anything (_tail : List UInt8) : Prop := True

namespace Gap

theorem rest_space_cons (tail : List UInt8) : rest (Byte.space :: tail) = rest tail :=
  rest_space rfl tail

theorem rest_lineFeed_cons (tail : List UInt8) : rest (Byte.lineFeed :: tail) = rest tail :=
  rest_space rfl tail

end Gap

/-- The gap behind a text may be printed with it. -/
theorem Prints.append_space {spells : List UInt8 → List UInt8 → Prop} {text : String}
    (prints : Prints spells Anything text) : Prints spells Anything (text ++ " ") := by
  intro tail _
  rw [Utf8.encode_append, List.append_assoc, ← Gap.rest_space_cons tail]
  exact prints (Byte.space :: tail) trivial

variable {accepts : UInt8 → Bool} {text : String} {tail : List UInt8}

/-! ### Words and marks -/

/-- No gap begins with a word. -/
theorem IsWord.rest_append (isWord : IsWord accepts text)
    (inScope : ∀ byte, accepts byte = true → Byte.isScope byte = true) (tail : List UInt8) :
    Gap.rest (Utf8.encode text ++ tail) = Utf8.encode text ++ tail := by
  rcases List.exists_cons_of_ne_nil isWord.notEmpty with ⟨byte, others, encoded⟩
  have letter : accepts byte = true := isWord.accepted byte (by simp [encoded])
  rw [encoded]
  exact Gap.rest_barrier (Byte.isBarrier_of_isScope (inScope byte letter)) _

theorem IsWord.prints (isWord : IsWord accepts text)
    (inScope : ∀ byte, accepts byte = true → Byte.isScope byte = true) :
    Prints (SpellsWord accepts text) (Stops accepts) text := fun tail stops =>
  ⟨isWord, tail, isWord.rest_append inScope tail, stops, rfl⟩

theorem IsName.prints (isName : IsName text) :
    Prints (SpellsName text) (Stops Byte.isIdentifier) text :=
  IsWord.prints isName fun _ => Byte.isScope_of_isIdentifier

/-- A name with a space behind it. -/
theorem IsName.prints_space (isName : IsName text) (tail : List UInt8) :
    SpellsName text (Gap.rest (Utf8.encode text ++ Byte.space :: tail)) (Gap.rest tail) := by
  rw [← Gap.rest_space_cons tail]
  exact isName.prints _ (stops_cons.2 rfl)

theorem spellsMark_rest {byte : UInt8} (barrier : Gap.isBarrier byte = true)
    (tail : List UInt8) : SpellsMark byte (Gap.rest (byte :: tail)) (Gap.rest tail) :=
  ⟨tail, Gap.rest_barrier barrier tail, rfl⟩

/-- A mark with a space behind it. -/
theorem spellsMark_space {byte : UInt8} (barrier : Gap.isBarrier byte = true)
    (tail : List UInt8) :
    SpellsMark byte (Gap.rest (byte :: Byte.space :: tail)) (Gap.rest tail) := by
  rw [← Gap.rest_space_cons tail]
  exact spellsMark_rest barrier _

theorem spellsSeparator_rest {byte : UInt8} (separator : Byte.isSeparator byte = true)
    (tail : List UInt8) : SpellsSeparator (Gap.rest (byte :: tail)) (Gap.rest tail) := by
  have barrier : Gap.isBarrier byte = true := by
    rcases Bool.or_eq_true_iff.1 separator with comma | semicolon
    · rw [beq_iff_eq.1 comma]; rfl
    · rw [beq_iff_eq.1 semicolon]; rfl
  rw [Gap.rest_barrier barrier]
  exact .present separator

/-- A comma with a space behind it. -/
theorem spellsSeparator_comma (tail : List UInt8) :
    SpellsSeparator (Gap.rest (Byte.comma :: Byte.space :: tail)) (Gap.rest tail) := by
  rw [← Gap.rest_space_cons tail]
  exact spellsSeparator_rest rfl _

/-! ### Types -/

/-- A printed type is read back. -/
theorem FieldType.WellNamed.prints {type : FieldType} (wellNamed : type.WellNamed) :
    Prints (SpellsType type) (Stops Byte.isIdentifier) (Print.type type) := by
  induction type with
  | named name => exact fun tail stops => .named (IsName.prints wellNamed tail stops)
  | map key value ihKey ihValue =>
      intro tail _
      have printed : Utf8.encode (Print.type (.map key value)) ++ tail =
          Utf8.encode "map" ++ Byte.openAngle :: (Utf8.encode (Print.type key) ++
            Byte.comma :: Byte.space :: (Utf8.encode (Print.type value) ++
              Byte.closeAngle :: tail)) := by
        simp only [Print.type, Utf8.encode_append, List.append_assoc]
        rfl
      have ofKey := ihKey wellNamed.1 (Byte.comma :: Byte.space ::
        (Utf8.encode (Print.type value) ++ Byte.closeAngle :: tail)) (stops_cons.2 rfl)
      have ofValue := ihValue wellNamed.2 (Byte.closeAngle :: tail) (stops_cons.2 rfl)
      have word : IsName "map" := Token.isName_of_isPlain (by decide)
      rw [printed]
      exact .map (word.prints _ (stops_cons.2 rfl)) (spellsMark_rest rfl _) ofKey
        (spellsSeparator_comma _) ofValue (spellsMark_rest rfl _)
  | list element ih =>
      intro tail _
      have printed : Utf8.encode (Print.type (.list element)) ++ tail =
          Utf8.encode "list" ++ Byte.openAngle :: (Utf8.encode (Print.type element) ++
            Byte.closeAngle :: tail) := by
        simp only [Print.type, Utf8.encode_append, List.append_assoc]
        rfl
      have word : IsName "list" := Token.isName_of_isPlain (by decide)
      rw [printed]
      exact .list (word.prints _ (stops_cons.2 rfl)) (spellsMark_rest rfl _)
        (ih wellNamed _ (stops_cons.2 rfl)) (spellsMark_rest rfl _)
  | set element ih =>
      intro tail _
      have printed : Utf8.encode (Print.type (.set element)) ++ tail =
          Utf8.encode "set" ++ Byte.openAngle :: (Utf8.encode (Print.type element) ++
            Byte.closeAngle :: tail) := by
        simp only [Print.type, Utf8.encode_append, List.append_assoc]
        rfl
      have word : IsName "set" := Token.isName_of_isPlain (by decide)
      rw [printed]
      exact .set (word.prints _ (stops_cons.2 rfl)) (spellsMark_rest rfl _)
        (ih wellNamed _ (stops_cons.2 rfl)) (spellsMark_rest rfl _)

/-- A printed type with a space behind it. -/
theorem FieldType.WellNamed.prints_space {type : FieldType} (wellNamed : type.WellNamed)
    (tail : List UInt8) :
    SpellsType type (Gap.rest (Utf8.encode (Print.type type) ++ Byte.space :: tail))
      (Gap.rest tail) := by
  rw [← Gap.rest_space_cons tail]
  exact wellNamed.prints _ (stops_cons.2 rfl)

/-! ### Quoted texts -/

/-- Whether a way to look for a closing quote depends on nothing behind that quote. -/
structure IsEnclosed (body : UInt8 → List UInt8 → Option (List UInt8)) : Prop where
  empty : ∀ quote, body quote [quote] = some []
  content : ∀ {quote : UInt8} {bytes content : List UInt8}, body quote bytes = some content →
    ∀ more, body quote (content ++ quote :: more) = some content

theorem isEnclosed_untilQuote : IsEnclosed Lexeme.untilQuote where
  empty _ := Lexeme.untilQuote_append List.not_mem_nil List.not_mem_nil []
  content := Lexeme.untilQuote_content

theorem isEnclosed_untilFirstQuote : IsEnclosed Lexeme.untilFirstQuote where
  empty _ := Lexeme.untilFirstQuote_append List.not_mem_nil []
  content := Lexeme.untilFirstQuote_content

namespace IsEnclosed

variable {body : UInt8 → List UInt8 → Option (List UInt8)} {opening closing : String}

/-- A text that was found between quotes is closed by the same quote again. -/
theorem body_text (enclosed : IsEnclosed body) {quote : UInt8} {bytes content : List UInt8}
    (found : body quote bytes = some content) :
    body quote (Utf8.encode (Utf8.text content) ++ [quote]) =
      some (Utf8.encode (Utf8.text content)) := by
  rcases Utf8.encode_text_or content with same | empty
  · rw [same]
    exact enclosed.content found []
  · -- faulty bytes have the empty text, which any quote encloses
    rw [empty]
    exact enclosed.empty quote

/-- A text that was found between quotes can be printed. -/
theorem exists_quoted (enclosed : IsEnclosed body) {bytes : List UInt8} {length : Nat}
    (found : Lexeme.quoted body opening closing bytes = .found text length) :
    ∃ printed, Print.quoted? body text = some printed := by
  rcases Lexeme.quoted_eq_found_iff.1 found with ⟨quote, rest, content, -, isQuote, inside, rfl, -⟩
  have between : ∃ printed, Print.between? body quote (Utf8.text content) = some printed :=
    ⟨_, if_pos (enclosed.body_text inside)⟩
  rw [← Option.isSome_iff_exists, Print.quoted?, Option.isSome_or, Bool.or_eq_true,
    Option.isSome_iff_exists, Option.isSome_iff_exists]
  rcases Bool.or_eq_true_iff.1 isQuote with double | single
  · exact .inl (beq_iff_eq.1 double ▸ between)
  · exact .inr (beq_iff_eq.1 single ▸ between)

/-- A text is printed between two quotes, and the second one is the first that closes it. -/
theorem exists_quote {printed : String} (print : Print.quoted? body text = some printed) :
    ∃ quote, Byte.isQuote quote = true ∧
      body quote (Utf8.encode text ++ [quote]) = some (Utf8.encode text) ∧
        Utf8.encode printed = quote :: (Utf8.encode text ++ [quote]) := by
  have between : ∀ quote, Utf8.encode (String.singleton (Byte.toChar quote)) = [quote] →
      Byte.isQuote quote = true → Print.between? body quote text = some printed →
        ∃ quote, Byte.isQuote quote = true ∧
          body quote (Utf8.encode text ++ [quote]) = some (Utf8.encode text) ∧
            Utf8.encode printed = quote :: (Utf8.encode text ++ [quote]) := by
    intro quote encoded isQuote print
    unfold Print.between? at print
    split_ifs at print with closes
    cases print
    refine ⟨quote, isQuote, closes, ?_⟩
    rw [Utf8.encode_append, Utf8.encode_append, encoded]
    rfl
  rcases Option.or_eq_some_iff.1 print with double | ⟨-, single⟩
  · exact between _ rfl rfl double
  · exact between _ rfl rfl single

/-- A printed text is found again. -/
theorem quoted_append (enclosed : IsEnclosed body) {printed : String}
    (print : Print.quoted? body text = some printed) (tail : List UInt8) :
    Lexeme.quoted body opening closing (Utf8.encode printed ++ tail) =
      .found text (Utf8.encode printed).length := by
  rcases exists_quote print with ⟨quote, isQuote, closes, encoded⟩
  refine Lexeme.quoted_eq_found_iff.2 ⟨quote, _, Utf8.encode text, ?_, isQuote,
    enclosed.content closes tail, (Utf8.text_encode text).symm, ?_⟩
  · simp [encoded]
  · simp [encoded]

/-- A token between quotes is read back from what is printed for it. -/
theorem prints_token (enclosed : IsEnclosed body) {terminal : Token String}
    (recognize : terminal.recognize = Lexeme.quoted body opening closing) {bytes rest : List UInt8}
    (found : terminal.read bytes = some (text, rest)) :
    ∃ printed, Print.quoted? body text = some printed ∧
      Prints (fun bytes rest => terminal.read bytes = some (text, rest)) Anything printed := by
  rcases Token.read_eq_some_iff.1 found with ⟨length, found, -⟩
  rw [recognize] at found
  rcases enclosed.exists_quoted found with ⟨printed, print⟩
  refine ⟨printed, print, ?_⟩
  intro tail _
  rcases exists_quote print with ⟨quote, isQuote, -, encoded⟩
  have settled : Gap.rest (Utf8.encode printed ++ tail) = Utf8.encode printed ++ tail := by
    rw [encoded]
    exact Gap.rest_barrier (Byte.isBarrier_of_isQuote isQuote) _
  rw [settled]
  refine Token.read_eq_some_iff.2 ⟨(Utf8.encode printed).length, ?_, by rw [List.drop_left]⟩
  rw [recognize]
  exact enclosed.quoted_append print tail

end IsEnclosed

end ThriftIdl
