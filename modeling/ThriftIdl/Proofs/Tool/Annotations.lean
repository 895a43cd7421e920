import ThriftIdl.Proofs.Grammar.Related
import ThriftIdl.Proofs.Grammar.Words
import ThriftIdl.Proofs.Reading.Success
import ThriftIdl.Proofs.Tool.Removal
import ThriftIdl.Tool.ToJson
import ThriftIdl.Tool.Validate

/-!
# Sources with annotations in comments

Removing annotations knows nothing of tokens. What it removes from a quoted text is missing from the
value, and what it removes from between a star and a slash ends a comment. But where all that is
removed stands in comments which stay comments, a source means what it meant (`Commented`), and it
does not matter whether the annotations are kept.

The bytes with and without the annotations are read in step: no token that the grammar tries has an
annotation in it, and the gaps behind the tokens end at the same places.
-/

namespace ThriftIdl

namespace Annotations

open Gap

/--
Whether no occurrence of a pattern begins in what a token understands of some bytes, and the pattern
can be removed from the gap behind the token.
-/
def SparesToken (pattern : List UInt8) {α : Type} (terminal : Token α)
    (bytes : List UInt8) : Prop :=
  match terminal.recognize bytes with
  | .found _ length => Untouched pattern length bytes ∧ Removable pattern (bytes.drop length)
  | .missing _ _ understood => Untouched pattern understood bytes

/-- Whether a pattern can be removed from the gap behind a separator, if there is a separator. -/
def SparesSeparator (pattern bytes : List UInt8) : Prop :=
  bytes.head?.any Byte.isSeparator = true → Removable pattern (bytes.drop 1)

instance (pattern : List UInt8) {α : Type} (terminal : Token α) (bytes : List UInt8) :
    Decidable (SparesToken pattern terminal bytes) :=
  match recognized : terminal.recognize bytes with
  | .found _ length =>
    decidable_of_iff (Untouched pattern length bytes ∧ Removable pattern (bytes.drop length))
      (by simp [SparesToken, recognized])
  | .missing _ _ understood =>
    decidable_of_iff (Untouched pattern understood bytes) (by simp [SparesToken, recognized])

instance (pattern : List UInt8) : DecidablePred (SparesSeparator pattern) := fun bytes =>
  inferInstanceAs (Decidable
    (bytes.head?.any Byte.isSeparator = true → Removable pattern (bytes.drop 1)))

/--
Whether a pattern occurs only in comments of a source, and these stay comments without it: wherever
the grammar tries a token, and in every gap that it passes over.
-/
structure OnlyInComments (pattern source : List UInt8) : Prop where
  opening : Removable pattern source
  attempts : (Rule.many (Grammar.declaration Grammar.maxNesting)).Everywhere (SparesToken pattern)
    (SparesSeparator pattern) (rest source)

instance (pattern source : List UInt8) : Decidable (OnlyInComments pattern source) :=
  decidable_of_iff (Removable pattern source ∧ (Rule.many (Grammar.declaration
      Grammar.maxNesting)).Everywhere (SparesToken pattern) (SparesSeparator pattern) (rest source))
    ⟨fun both => ⟨both.1, both.2⟩, fun inComments => ⟨inComments.opening, inComments.attempts⟩⟩

/-- Whether each of some patterns occurs only in comments when those before it have been removed. -/
def InTurn : List (List UInt8) → List UInt8 → Prop
  | [], _ => True
  | pattern :: others, source =>
    OnlyInComments pattern source ∧ InTurn others (remove pattern source)

instance decideInTurn : (patterns : List (List UInt8)) → (source : List UInt8) →
    Decidable (InTurn patterns source)
  | [], _ => isTrue trivial
  | pattern :: others, source =>
    have := decideInTurn others (remove pattern source)
    inferInstanceAs (Decidable
      (OnlyInComments pattern source ∧ InTurn others (remove pattern source)))

/-- Whether all annotations that are removed from a source stand in comments that stay comments. -/
def Commented (source : String) : Prop := InTurn (spellings.map Utf8.encode) (Utf8.encode source)

instance (source : String) : Decidable (Commented source) :=
  inferInstanceAs (Decidable (InTurn _ _))

/-- Bytes that begin with a token or at the end, and the same bytes without a pattern. -/
structure Cleared (pattern first second : List UInt8) : Prop where
  clear : ClearOf pattern first
  removed : second = remove pattern first

variable {pattern first second : List UInt8} {α : Type}

theorem Cleared.head?_eq (cleared : Cleared pattern first second) : second.head? = first.head? := by
  rw [cleared.removed]
  cases first with
  | nil => rw [remove_nil]
  | cons byte tail =>
      rw [remove_cons cleared.clear.absent]
      rfl

theorem Cleared.eq_take_append (cleared : Cleared pattern first second) {length : Nat}
    (fits : length ≤ first.length) (untouched : Untouched pattern length first) :
    second = first.take length ++ remove pattern (first.drop length) := by
  have untouchedFront : Untouched pattern (first.take length).length
      (first.take length ++ first.drop length) := by
    rwa [List.length_take_of_le fits, List.take_append_drop]
  rw [← remove_append untouchedFront, List.take_append_drop, cleared.removed]

/-- Behind a token that both readings have found, the gap ends at the same place. -/
theorem Cleared.alike_found (parenthesized : Parenthesized pattern)
    (cleared : Cleared pattern first second) {terminal : Token α} {value : α} {length : Nat}
    (fits : length ≤ first.length) (untouched : Untouched pattern length first)
    (removable : Removable pattern (first.drop length))
    (found : terminal.recognize first = .found value length)
    (foundThere : terminal.recognize second = .found value length) :
    Alike (Cleared pattern) (terminal.read first) (terminal.read second) := by
  have behind : second.drop length = remove pattern (first.drop length) := by
    rw [cleared.eq_take_append fits untouched, List.drop_left' (List.length_take_of_le fits)]
  rw [Token.read_eq_some_iff.2 ⟨length, found, rfl⟩,
    Token.read_eq_some_iff.2 ⟨length, foundThere, rfl⟩, behind, removable.rest_remove parenthesized]
  exact .found value ⟨removable.clear, rfl⟩

/--
The name or number that may stand at the start is the same in both, and neither goes on behind it.
-/
theorem Cleared.exists_run (cleared : Cleared pattern first second) {byte : UInt8}
    {tail : List UInt8} (split : first = byte :: tail) (barrier : isBarrier byte = true) :
    ∃ front back, front ≠ [] ∧ first = front ++ back ∧ second = front ++ remove pattern back ∧
      Stops Byte.isScope back ∧ Stops Byte.isScope (remove pattern back) := by
  have inFront : ∀ letter ∈ byte :: tail.takeWhile Byte.isScope, isBarrier letter = true := by
    intro letter mem
    rcases List.mem_cons.1 mem with rfl | inTail
    · exact barrier
    · exact Byte.isBarrier_of_isScope (List.mem_takeWhile_imp inTail)
  have whole : first = (byte :: tail.takeWhile Byte.isScope) ++ tail.dropWhile Byte.isScope := by
    rw [split, List.cons_append, List.takeWhile_append_dropWhile]
  refine ⟨byte :: tail.takeWhile Byte.isScope, tail.dropWhile Byte.isScope, by simp, whole, ?_,
    stops_dropWhile _ _, ?_⟩
  · rw [cleared.removed, whole]
    refine remove_append fun skipped before => ?_
    have skippedFront : ∀ letter ∈ (byte :: tail.takeWhile Byte.isScope).take skipped,
        isBarrier letter = true := fun letter mem => inFront letter (List.mem_of_mem_take mem)
    refine cleared.clear _ _ ?_ (.inl skippedFront)
    rw [List.drop_append_of_le_length before.le, ← List.append_assoc, List.take_append_drop, whole]
  · have absent := cleared.clear _ _ whole (.inl inFront)
    have stops := stops_dropWhile Byte.isScope tail
    generalize tail.dropWhile Byte.isScope = back at absent stops
    cases back with
    | nil => rwa [remove_nil]
    | cons next after => rwa [remove_cons absent]

theorem Cleared.alike_of_unquoted (parenthesized : Parenthesized pattern)
    (cleared : Cleared pattern first second) {terminal : Token α} (plain : terminal.isPlain = true)
    (unquoted : terminal.isQuoted = false) (spares : SparesToken pattern terminal first)
    {byte : UInt8} {tail : List UInt8} (split : first = byte :: tail)
    (barrier : isBarrier byte = true) :
    Alike (Cleared pattern) (terminal.read first) (terminal.read second) := by
  obtain ⟨front, back, notEmpty, whole, wholeThere, stops, stopsThere⟩ :=
    cleared.exists_run split barrier
  have same : terminal.recognize second = terminal.recognize first := by
    rw [whole, wholeThere, Token.recognize_append_of_stops plain unquoted notEmpty stops,
      Token.recognize_append_of_stops plain unquoted notEmpty stopsThere]
  unfold SparesToken at spares
  cases found : terminal.recognize first with
  | found value length =>
      simp only [found] at spares
      exact cleared.alike_found parenthesized (Token.recognize_spans plain found).fits spares.1
        spares.2 found (same.trans found)
  | missing kind expected understood =>
      rw [Token.read_eq_none_iff.2 ⟨_, _, _, found⟩,
        Token.read_eq_none_iff.2 ⟨_, _, _, same.trans found⟩]
      exact .missing

theorem Cleared.alike_of_quoted (parenthesized : Parenthesized pattern)
    (cleared : Cleared pattern first second) {terminal : Token α} (plain : terminal.isPlain = true)
    (quoted : terminal.isQuoted = true) (spares : SparesToken pattern terminal first)
    (isQuote : first.head?.any Byte.isQuote = true) :
    Alike (Cleared pattern) (terminal.read first) (terminal.read second) := by
  unfold SparesToken at spares
  cases found : terminal.recognize first with
  | found value length =>
      simp only [found] at spares
      have fits := (Token.recognize_spans plain found).fits
      have foundThere : terminal.recognize second = .found value length := by
        rw [cleared.eq_take_append fits spares.1]
        exact Token.recognize_take_append quoted found _
      exact cleared.alike_found parenthesized fits spares.1 spares.2 found foundThere
  | missing kind expected understood =>
      simp only [found] at spares
      rw [Token.understood_of_isQuote quoted isQuote found] at spares
      have same : second = first := by
        rw [cleared.eq_take_append le_rfl spares, List.take_length, List.drop_length, remove_nil,
          List.append_nil]
      rw [same, Token.read_eq_none_iff.2 ⟨_, _, _, found⟩]
      exact .missing

theorem Cleared.alike_token (parenthesized : Parenthesized pattern)
    (cleared : Cleared pattern first second) {terminal : Token α} (plain : terminal.isPlain = true)
    (spares : SparesToken pattern terminal first) :
    Alike (Cleared pattern) (terminal.read first) (terminal.read second) := by
  -- the first byte is the same in both, and it tells whether the token may stand there at all
  cases opens : first.head?.any terminal.opens with
  | false =>
      refine alike_of_not_opens plain cleared.head?_eq fun byte atHead => ?_
      rw [Option.mem_def.1 atHead] at opens
      exact opens
  | true =>
      cases quoted : terminal.isQuoted with
      | true =>
          refine cleared.alike_of_quoted parenthesized plain quoted spares ?_
          cases terminal <;> first | exact opens | cases quoted
      | false =>
          cases first with
          | nil => cases opens
          | cons byte tail =>
              have opensThere : terminal.opens byte = true := by simpa using opens
              exact cleared.alike_of_unquoted parenthesized plain quoted spares rfl
                (Token.isBarrier_of_opens plain opensThere)

theorem Cleared.alike_separator (parenthesized : Parenthesized pattern)
    (cleared : Cleared pattern first second) (spares : SparesSeparator pattern first) :
    Alike (Cleared pattern) (Rule.separator.read first) (Rule.separator.read second) := by
  cases separator : first.head?.any Byte.isSeparator with
  | false =>
      have separatorThere := cleared.head?_eq ▸ separator
      rw [Rule.read_separator_of_stops separator, Rule.read_separator_of_stops separatorThere]
      exact .found false cleared
  | true =>
      cases first with
      | nil => cases separator
      | cons byte tail =>
          have removable : Removable pattern tail := spares separator
          have isSeparator : Byte.isSeparator byte = true := by simpa using separator
          rw [cleared.removed, remove_cons cleared.clear.absent,
            Rule.read_separator_cons isSeparator, Rule.read_separator_cons isSeparator,
            removable.rest_remove parenthesized]
          exact .found true ⟨removable.clear, rfl⟩

/-- No rule can tell whether a pattern has been removed from the comments of what it reads. -/
theorem indistinct_cleared (parenthesized : Parenthesized pattern) :
    IndistinctWhere (SparesToken pattern) (SparesSeparator pattern) (Cleared pattern) where
  token _ _ _ plain spares cleared := cleared.alike_token parenthesized plain spares
  separator spares cleared := cleared.alike_separator parenthesized spares

theorem OnlyInComments.declares_iff (parenthesized : Parenthesized pattern) {source : List UInt8}
    (inComments : OnlyInComments pattern source) {declarations : List Declaration} :
    Document.Declares (rest (remove pattern source)) declarations ↔
      Document.Declares (rest source) declarations := by
  have start : Cleared pattern (rest source) (rest (remove pattern source)) :=
    ⟨inComments.opening.clear, inComments.opening.rest_remove parenthesized⟩
  have alike := (indistinct_cleared parenthesized).read Document.wellFormed_manyDeclarations
    inComments.attempts start
  rw [Document.declares_iff_read, Document.declares_iff_read]
  generalize (Rule.many _).read (rest source) = one at alike ⊢
  generalize (Rule.many _).read (rest (remove pattern source)) = other at alike ⊢
  cases alike with
  | missing => rfl
  | @found items left otherLeft cleared =>
      have endsTogether : otherLeft = [] ↔ left = [] := by
        rw [← List.head?_eq_none_iff, cleared.head?_eq, List.head?_eq_none_iff]
      simp [endsTogether]

/-! ### Both spellings -/

theorem encode_foldl_remove {patterns : List String}
    (shapes : ∀ pattern ∈ patterns, Parenthesized (Utf8.encode pattern))
    (ascii : ∀ pattern ∈ patterns, ∀ byte ∈ Utf8.encode pattern, byte < 0x80) (text : List Char) :
    Utf8.encode (String.ofList
        (patterns.foldl (fun text pattern => remove pattern.toList text) text)) =
      (patterns.map Utf8.encode).foldl (fun bytes pattern => remove pattern bytes)
        (Utf8.encode (String.ofList text)) := by
  induction patterns generalizing text with
  | nil => rfl
  | cons pattern others ih =>
      have mine := encode_remove (shapes pattern (by simp)).ne_nil (ascii pattern (by simp)) text
      rw [List.foldl_cons, List.map_cons, List.foldl_cons, ← mine]
      exact ih (fun other mem => shapes other (by simp [mem]))
        (fun other mem => ascii other (by simp [mem])) _

theorem InTurn.declares_iff {patterns : List (List UInt8)}
    (shapes : ∀ pattern ∈ patterns, Parenthesized pattern) {source : List UInt8}
    (inTurn : InTurn patterns source) {declarations : List Declaration} :
    Document.Declares (rest (patterns.foldl (fun bytes pattern => remove pattern bytes) source))
        declarations ↔
      Document.Declares (rest source) declarations := by
  induction patterns generalizing source with
  | nil => rfl
  | cons pattern others ih =>
      rw [List.foldl_cons, ih (fun other mem => shapes other (by simp [mem])) inTurn.2]
      exact inTurn.1.declares_iff (shapes pattern (by simp))

theorem parenthesized_spelling : ∀ pattern ∈ spellings, Parenthesized (Utf8.encode pattern) := by
  intro pattern mem
  simp only [spellings, List.mem_cons, List.not_mem_nil, or_false] at mem
  rcases mem with rfl | rfl <;> exact ⟨by decide +kernel, by decide +kernel, by decide +kernel⟩

theorem ascii_spelling : ∀ pattern ∈ spellings, ∀ byte ∈ Utf8.encode pattern, byte < 0x80 := by
  decide +kernel

/-- The program strips characters, and what is read are bytes. -/
theorem encode_strip (source : String) :
    Utf8.encode (strip source) =
      (spellings.map Utf8.encode).foldl (fun bytes pattern => remove pattern bytes)
        (Utf8.encode source) := by
  have stripped := encode_foldl_remove parenthesized_spelling ascii_spelling source.toList
  rwa [String.ofList_toList] at stripped

/-- A source means what it meant, and what could not be read still cannot be read. -/
theorem Commented.toOption_parse_strip {source : String} (commented : Commented source) :
    (Document.parse (strip source)).toOption = (Document.parse source).toOption := by
  refine Document.toOption_parse_eq fun declarations => ?_
  rw [encode_strip]
  refine InTurn.declares_iff ?_ commented
  intro pattern mem
  obtain ⟨spelling, isSpelling, rfl⟩ := List.mem_map.1 mem
  exact parenthesized_spelling spelling isSpelling

theorem Commented.parse_strip {source : String} (commented : Commented source)
    {document : Document} (parsed : Document.parse source = .ok document) :
    Document.parse (strip source) = .ok document := by
  have same := commented.toOption_parse_strip
  rw [parsed] at same
  cases parsedThen : Document.parse (strip source) with
  | ok other =>
      rw [parsedThen] at same
      exact congrArg Except.ok (Option.some.inj same)
  | error _ =>
      rw [parsedThen] at same
      cases same

theorem Commented.parse_prepare {source : String} (commented : Commented source)
    {document : Document} (parsed : Document.parse source = .ok document) (keep : Bool) :
    Document.parse (prepare keep source) = .ok document := by
  cases keep with
  | true => exact parsed
  | false => exact commented.parse_strip parsed

/-- The outcome for a file is its number of declarations, whether annotations are kept or not. -/
theorem Commented.checkFile_eq {source : String} (commented : Commented source)
    {document : Document} (parsed : Document.parse source = .ok document) (request : Validate)
    {file : SelectedFile}
    (isText : (FileNode.file file.content).text file.canonicalPath = .ok source) :
    (request.checkFile file).1 = .ok document.size := by
  have read : (request.reading source).document = .ok document :=
    commented.parse_prepare parsed request.keepAnnotations
  simp only [Validate.checkFile, isText, read]

/--
Where all annotations that are removed stand in comments that stay comments, a source that can be
read has the same document without them, and it is converted and validated alike whether they are
kept or not.
-/
theorem strip_commented {source : String} {document : Document}
    (parsed : Document.parse source = .ok document) (commented : Commented source) :
    Document.parse (strip source) = .ok document ∧
      (∀ compact file, (⟨compact, false, file⟩ : ToJson).convert source =
        (⟨compact, true, file⟩ : ToJson).convert source) ∧
      ∀ extensions paths path content, (FileNode.file content).text path = .ok source →
        ((⟨extensions, false, paths⟩ : Validate).checkFile ⟨path, content⟩).1 =
          ((⟨extensions, true, paths⟩ : Validate).checkFile ⟨path, content⟩).1 := by
  refine ⟨commented.parse_strip parsed, fun compact file => ?_, ?_⟩
  · have read : ∀ keep, ((⟨compact, keep, file⟩ : ToJson).reading source).document = .ok document :=
      commented.parse_prepare parsed
    simp only [ToJson.convert, read, ToJson.render]
  · intro extensions paths path content isText
    rw [commented.checkFile_eq parsed _ isText, commented.checkFile_eq parsed _ isText]

/-- Both spellings in comments, in the middle of a typedef and behind it. -/
theorem strip_commented_typedef :
    Document.parse "typedef i64 // (js.type = \"Long\")\nT /* (js.type = 'Long') */" =
        .ok (Document.ofList [⟨.typedef, "T", FieldType.named "i64"⟩]) ∧
      Commented "typedef i64 // (js.type = \"Long\")\nT /* (js.type = 'Long') */" ∧
      Document.parse (strip "typedef i64 // (js.type = \"Long\")\nT /* (js.type = 'Long') */") =
        .ok (Document.ofList [⟨.typedef, "T", FieldType.named "i64"⟩]) := by
  have parsed : Document.parse "typedef i64 // (js.type = \"Long\")\nT /* (js.type = 'Long') */" =
      .ok (Document.ofList [⟨.typedef, "T", FieldType.named "i64"⟩]) := by
    decide +kernel
  have commented : Commented "typedef i64 // (js.type = \"Long\")\nT /* (js.type = 'Long') */" := by
    decide +kernel
  exact ⟨parsed, commented, (strip_commented parsed commented).1⟩

/-- An annotation in a quoted text is removed as well, and the constant has another value. -/
theorem strip_not_quoted :
    Document.parse "const string a = '(js.type = \"Long\")'" =
        .ok (Document.ofList
          [⟨.constant, "a", ⟨FieldType.named "string", .string "(js.type = \"Long\")"⟩⟩]) ∧
      Document.parse (strip "const string a = '(js.type = \"Long\")'") ≠
        .ok (Document.ofList
          [⟨.constant, "a", ⟨FieldType.named "string", .string "(js.type = \"Long\")"⟩⟩]) ∧
      (⟨true, false, "a.thrift"⟩ : ToJson).convert "const string a = '(js.type = \"Long\")'" ≠
        (⟨true, true, "a.thrift"⟩ : ToJson).convert "const string a = '(js.type = \"Long\")'" :=
  ⟨by decide +kernel, by decide +kernel, by decide +kernel⟩

/-- A comment may also end early, and then the source cannot be read any more. -/
example : (Document.parse "/* *(js.type = 'Long')/ */").toOption = some .empty ∧
    (Document.parse (strip "/* *(js.type = 'Long')/ */")).toOption = none ∧
      ¬Commented "/* *(js.type = 'Long')/ */" :=
  ⟨by decide +kernel, by decide +kernel, by decide +kernel⟩

end Annotations

namespace Validate

/-- A report is about the files that were selected and about the outcomes for them. -/
theorem run_congr {request other : Validate} {disk : Disk}
    (sameSearch : request.search disk = other.search disk)
    (sameOutcomes : ∀ file ∈ (other.search disk).selected,
      (request.checkFile file).1 = (other.checkFile file).1) :
    (request.run disk).succeeded = (other.run disk).succeeded ∧
      (request.run disk).text = (other.run disk).text := by
  have outcomes : ((other.search disk).selected.map request.checkFile).map Prod.fst =
      ((other.search disk).selected.map other.checkFile).map Prod.fst := by
    simpa using sameOutcomes
  unfold run report
  simp only [sameSearch, outcomes]
  split <;> exact ⟨rfl, rfl⟩

/--
If in every file that is selected the annotations stand in comments that stay comments, a validation
reports the same whether annotations are kept or not.
-/
theorem run_commented (extensions paths : List String) (disk : Disk)
    (commented : ∀ file ∈ ((⟨extensions, true, paths⟩ : Validate).search disk).selected,
      ∃ source document, (FileNode.file file.content).text file.canonicalPath = .ok source ∧
        Document.parse source = .ok document ∧ Annotations.Commented source) :
    ((⟨extensions, false, paths⟩ : Validate).run disk).succeeded =
        ((⟨extensions, true, paths⟩ : Validate).run disk).succeeded ∧
      ((⟨extensions, false, paths⟩ : Validate).run disk).text =
        ((⟨extensions, true, paths⟩ : Validate).run disk).text := by
  refine run_congr rfl fun file mem => ?_
  obtain ⟨source, document, isText, parsed, isCommented⟩ := commented file mem
  rw [isCommented.checkFile_eq parsed _ isText, isCommented.checkFile_eq parsed _ isText]

end Validate

end ThriftIdl
