import ThriftIdl.Proofs.Grammar.Related
import ThriftIdl.Proofs.Reading.Success

/-!
# Layouts

A source is laid out as chunks of text with gaps around them. What stands in a gap does not matter:
two layouts of the same chunks have the same document, or none, if the same gaps are empty in both.

Two readers of such layouts pass over the chunks in step. Wherever one of them is inside a chunk the
other one is at the same place of the same chunk (`Aligned`), and a token never reaches over a gap,
so both see the same token.
-/

namespace ThriftIdl

namespace Layout

/-- Whether a byte is neither a quote nor part of a gap or of the opening of a comment. -/
def isPlain (byte : UInt8) : Bool := Gap.isBarrier byte && !Byte.isQuote byte

/-- A piece of text that no gap divides: plain bytes, or a literal without protected bytes. -/
inductive IsChunk : List UInt8 → Prop where
  | plain {bytes : List UInt8} (notEmpty : bytes ≠ [])
      (allPlain : ∀ byte ∈ bytes, isPlain byte = true) : IsChunk bytes
  | literal {quote : UInt8} {body : List UInt8} (isQuote : Byte.isQuote quote = true)
      (noQuote : quote ∉ body) (noBackslash : Byte.backslash ∉ body) :
      IsChunk (quote :: (body ++ [quote]))

/-- Two gaps that may stand for each other. -/
structure SameGap (gap other : List UInt8) : Prop where
  filler : Gap.Filler gap
  otherFiller : Gap.Filler other
  emptyTogether : gap = [] ↔ other = []

/-- A gap, and chunks with a gap behind each of them. -/
def layout : (gaps chunks : List String) → String
  | gap :: gaps, chunk :: chunks => gap ++ chunk ++ layout gaps chunks
  | gap :: _, [] => gap
  | [], _ => ""

/-- Bytes at the same place of the same chunks with interchangeable gaps behind them. -/
inductive Aligned : List UInt8 → List UInt8 → Prop where
  | atEnd : Aligned [] []
  | plain {byte : UInt8} {gap other first second : List UInt8} (plain : isPlain byte = true)
      (sameGap : SameGap gap other) (aligned : Aligned first second) :
      Aligned (byte :: (gap ++ first)) (byte :: (other ++ second))
  | literal {quote : UInt8} {body gap other first second : List UInt8}
      (isQuote : Byte.isQuote quote = true) (noQuote : quote ∉ body)
      (noBackslash : Byte.backslash ∉ body) (sameGap : SameGap gap other)
      (aligned : Aligned first second) :
      Aligned (quote :: (body ++ quote :: (gap ++ first)))
        (quote :: (body ++ quote :: (other ++ second)))

/-- Aligned bytes with interchangeable gaps in front of them. -/
def Loose (first second : List UInt8) : Prop :=
  ∃ gap other afterGap afterOther, SameGap gap other ∧ Aligned afterGap afterOther ∧
    first = gap ++ afterGap ∧ second = other ++ afterOther

variable {gap other first second : List UInt8}

theorem SameGap.symm (sameGap : SameGap gap other) : SameGap other gap :=
  ⟨sameGap.otherFiller, sameGap.filler, sameGap.emptyTogether.symm⟩

theorem sameGap_nil : SameGap [] [] := ⟨.nil, .nil, Iff.rfl⟩

theorem Aligned.symm (aligned : Aligned first second) : Aligned second first := by
  induction aligned with
  | atEnd => exact .atEnd
  | plain plain sameGap _ ih => exact .plain plain sameGap.symm ih
  | literal isQuote noQuote noBackslash sameGap _ ih =>
      exact .literal isQuote noQuote noBackslash sameGap.symm ih

theorem Aligned.settled (aligned : Aligned first second) : Gap.Settled first := by
  cases aligned with
  | atEnd => trivial
  | plain plain _ _ =>
      rw [isPlain, Bool.and_eq_true] at plain
      exact Gap.settled_of_barrier plain.1 _
  | literal isQuote _ _ _ _ => exact Gap.settled_of_barrier (Byte.isBarrier_of_isQuote isQuote) _

/-- Behind their gaps the bytes are aligned. -/
theorem Loose.rest (loose : Loose first second) :
    Aligned (Gap.rest first) (Gap.rest second) := by
  rcases loose with ⟨gap, other, afterGap, afterOther, sameGap, aligned, rfl, rfl⟩
  rwa [Gap.rest_append_of_filler sameGap.filler, Gap.rest_append_of_filler sameGap.otherFiller,
    Gap.rest_of_settled aligned.settled, Gap.rest_of_settled aligned.symm.settled]

/-- The plain bytes in front of the next gap, literal or end are the same in aligned bytes. -/
structure SameRun (first second front back otherBack : List UInt8) : Prop where
  split : first = front ++ back
  otherSplit : second = front ++ otherBack
  notEmpty : front ≠ []
  stops : Stops Byte.isScope back
  otherStops : Stops Byte.isScope otherBack
  loose : ∀ count, 0 < count → count ≤ front.length →
    Loose (first.drop count) (second.drop count)

/-- A byte in front of a nonempty gap, a literal or the end is a run of its own. -/
theorem sameRun_single {byte : UInt8} (loose : Loose first second)
    (stops : Stops Byte.isScope first) (otherStops : Stops Byte.isScope second) :
    SameRun (byte :: first) (byte :: second) [byte] first second := by
  refine ⟨rfl, rfl, by simp, stops, otherStops, fun count positive fits => ?_⟩
  obtain rfl : count = 1 := Nat.le_antisymm fits positive
  exact loose

theorem SameRun.cons {byte : UInt8} {front back otherBack : List UInt8}
    (loose : Loose first second) (run : SameRun first second front back otherBack) :
    SameRun (byte :: first) (byte :: second) (byte :: front) back otherBack := by
  refine ⟨congrArg (byte :: ·) run.split, congrArg (byte :: ·) run.otherSplit, by simp, run.stops,
    run.otherStops, fun count positive fits => ?_⟩
  cases count with
  | zero => exact absurd positive (Nat.lt_irrefl 0)
  | succ count =>
      cases count with
      | zero => exact loose
      | succ count => exact run.loose (count + 1) (by omega) (Nat.le_of_succ_le_succ fits)

/-- Where a run of plain bytes ends without a gap, no name goes on. -/
theorem Aligned.stops (aligned : Aligned first second)
    (notPlain : first.head?.any isPlain = false) : Stops Byte.isScope first := by
  cases aligned with
  | atEnd => exact stops_nil _
  | plain plain _ _ => simp [plain] at notPlain
  | literal isQuote _ _ _ _ => exact stops_cons.2 (Byte.isScope_of_isQuote isQuote)

theorem Aligned.head?_eq (aligned : Aligned first second) : first.head? = second.head? := by
  cases aligned <;> rfl

theorem Aligned.exists_sameRun (aligned : Aligned first second)
    (plain : first.head?.any isPlain = true) :
    ∃ front back otherBack, SameRun first second front back otherBack := by
  induction aligned with
  | atEnd => cases plain
  | @plain byte gap other first second _ sameGap aligned ih =>
      have loose : Loose (gap ++ first) (other ++ second) :=
        ⟨gap, other, first, second, sameGap, aligned, rfl, rfl⟩
      by_cases empty : gap = []
      · obtain rfl := empty
        obtain rfl := sameGap.emptyTogether.1 rfl
        cases goesOn : first.head?.any isPlain with
        | true =>
            obtain ⟨front, back, otherBack, run⟩ := ih goesOn
            exact ⟨byte :: front, back, otherBack, run.cons loose⟩
        | false =>
            have otherGoesOn := aligned.head?_eq ▸ goesOn
            exact ⟨[byte], _, _, sameRun_single loose (aligned.stops goesOn)
              (aligned.symm.stops otherGoesOn)⟩
      · have otherNotEmpty : other ≠ [] := mt sameGap.emptyTogether.2 empty
        exact ⟨[byte], _, _, sameRun_single loose (stops_of_filler sameGap.filler empty _)
          (stops_of_filler sameGap.otherFiller otherNotEmpty _)⟩
  | literal isQuote _ _ _ _ _ =>
      simp [isPlain, isQuote] at plain

variable {α : Type}

/-- A token that is not quoted stands in the run of plain bytes, which is the same in both. -/
theorem Aligned.alike_of_unquoted (aligned : Aligned first second) {terminal : Token α}
    (plain : terminal.isPlain = true) (unquoted : terminal.isQuoted = false)
    (startsPlain : first.head?.any isPlain = true) :
    Alike Aligned (terminal.read first) (terminal.read second) := by
  obtain ⟨front, back, otherBack, run⟩ := aligned.exists_sameRun startsPlain
  have recognized : terminal.recognize first = terminal.recognize front := by
    rw [run.split, Token.recognize_append_of_stops plain unquoted run.notEmpty run.stops]
  have otherRecognized : terminal.recognize second = terminal.recognize front := by
    rw [run.otherSplit, Token.recognize_append_of_stops plain unquoted run.notEmpty run.otherStops]
  unfold Token.read
  rw [recognized, otherRecognized]
  cases found : terminal.recognize front with
  | found value length =>
      have spans := Token.recognize_spans plain found
      exact .found value (run.loose length spans.positive spans.fits).rest
  | missing kind expected understood => exact .missing

/-- A literal is read as a whole by each of the quoted tokens. -/
theorem exists_read_literal {terminal : Token α} (quoted : terminal.isQuoted = true)
    {quote : UInt8} {body : List UInt8} (isQuote : Byte.isQuote quote = true)
    (noQuote : quote ∉ body) (noBackslash : Byte.backslash ∉ body) :
    ∃ value, ∀ tail, terminal.read (quote :: (body ++ quote :: tail)) =
      some (value, Gap.rest tail) := by
  have behind : ∀ tail : List UInt8,
      (quote :: (body ++ quote :: tail)).drop (body.length + 2) = tail := by
    intro tail
    simp [List.drop_append]
  cases terminal with
  | string =>
      refine ⟨Utf8.text body, fun tail => Token.read_eq_some_iff.2 ⟨body.length + 2, ?_, ?_⟩⟩
      · exact Lexeme.quoted_eq_found_iff.2 ⟨quote, _, body, rfl, isQuote,
          Lexeme.untilQuote_append noQuote noBackslash tail, rfl, rfl⟩
      · rw [behind]
  | path =>
      refine ⟨Utf8.text body, fun tail => Token.read_eq_some_iff.2 ⟨body.length + 2, ?_, ?_⟩⟩
      · exact Lexeme.quoted_eq_found_iff.2 ⟨quote, _, body, rfl, isQuote,
          Lexeme.untilFirstQuote_append noQuote tail, rfl, rfl⟩
      · rw [behind]
  | _ => cases quoted

theorem Aligned.alike_token (aligned : Aligned first second) {terminal : Token α}
    (plain : terminal.isPlain = true) :
    Alike Aligned (terminal.read first) (terminal.read second) := by
  cases aligned with
  | atEnd => exact alike_of_not_opens plain rfl (by simp)
  | @plain byte gap other first second isPlainByte sameGap aligned =>
      have whole := Aligned.plain isPlainByte sameGap aligned
      cases quoted : terminal.isQuoted with
      | false => exact whole.alike_of_unquoted plain quoted (by simpa using isPlainByte)
      | true =>
          refine alike_of_not_opens plain whole.head?_eq.symm fun head atHead => ?_
          obtain rfl : byte = head := by simpa using atHead
          rw [isPlain, Bool.and_eq_true, Bool.not_eq_true'] at isPlainByte
          cases terminal with
          | string | path => exact isPlainByte.2
          | _ => cases quoted
  | @literal quote body gap other first second isQuote noQuote noBackslash sameGap aligned =>
      cases quoted : terminal.isQuoted with
      | false =>
          have whole := Aligned.literal isQuote noQuote noBackslash sameGap aligned
          refine alike_of_not_opens plain whole.head?_eq.symm fun head atHead => ?_
          obtain rfl : quote = head := by simpa using atHead
          exact Token.opens_eq_false_of_isQuote plain quoted isQuote
      | true =>
          have loose : Loose (gap ++ first) (other ++ second) :=
            ⟨gap, other, first, second, sameGap, aligned, rfl, rfl⟩
          obtain ⟨value, found⟩ := exists_read_literal quoted isQuote noQuote noBackslash
          rw [found, found]
          exact .found value loose.rest

theorem Aligned.alike_separator (aligned : Aligned first second) :
    Alike Aligned (Rule.separator.read first) (Rule.separator.read second) := by
  cases separator : first.head?.any Byte.isSeparator with
  | false =>
      have otherSeparator := aligned.head?_eq ▸ separator
      rw [Rule.read_separator_of_stops separator, Rule.read_separator_of_stops otherSeparator]
      exact .found false aligned
  | true =>
      cases aligned with
      | atEnd => cases separator
      | @plain byte gap other first second _ sameGap aligned =>
          have loose : Loose (gap ++ first) (other ++ second) :=
            ⟨gap, other, first, second, sameGap, aligned, rfl, rfl⟩
          have isSeparator : Byte.isSeparator byte = true := by simpa using separator
          rw [Rule.read_separator_cons isSeparator, Rule.read_separator_cons isSeparator]
          exact .found true loose.rest
      | literal isQuote _ _ _ _ => grind [Byte.isQuote, Byte.isSeparator]

/-- No rule can tell the layouts of the same chunks apart. -/
theorem indistinct_aligned : Indistinct Aligned where
  token _ _ _ plain aligned := aligned.alike_token plain
  separator aligned := aligned.alike_separator

theorem Aligned.declares (aligned : Aligned first second) {declarations : List Declaration}
    (declares : Document.Declares first declarations) :
    Document.Declares second declarations := by
  obtain ⟨rest, left, repeats⟩ := Rule.Repeats.alike
    (indistinct_aligned.read (Grammar.wellFormed_declaration _)) declares aligned
  cases left
  exact repeats

/-- Chunks are passed over in step. -/
theorem IsChunk.aligned {chunk : List UInt8} (isChunk : IsChunk chunk)
    (sameGap : SameGap gap other) (aligned : Aligned first second) :
    Aligned (chunk ++ (gap ++ first)) (chunk ++ (other ++ second)) := by
  cases isChunk with
  | plain notEmpty allPlain =>
      induction chunk with
      | nil => exact absurd rfl notEmpty
      | cons byte rest ih =>
          have plain : isPlain byte = true := allPlain byte (by simp)
          by_cases last : rest = []
          · subst last
            exact @Aligned.plain _ gap other _ _ plain sameGap aligned
          · have inner := ih last fun later mem => allPlain later (by simp [mem])
            exact @Aligned.plain _ [] [] _ _ plain sameGap_nil inner
  | literal isQuote noQuote noBackslash =>
      simpa using Aligned.literal isQuote noQuote noBackslash sameGap aligned

/-- Layouts of the same chunks are aligned behind their first gaps. -/
theorem loose_layout {chunks gaps others : List String}
    (areChunks : ∀ chunk ∈ chunks, IsChunk (Utf8.encode chunk))
    (enough : gaps.length = chunks.length + 1)
    (sameGaps : List.Forall₂
      (fun gap other => SameGap (Utf8.encode gap) (Utf8.encode other)) gaps others) :
    Loose (Utf8.encode (layout gaps chunks)) (Utf8.encode (layout others chunks)) := by
  induction chunks generalizing gaps others with
  | nil =>
      cases sameGaps with
      | nil => cases enough
      | @cons gap other _ _ sameGap sameGaps =>
          exact ⟨_, _, [], [], sameGap, .atEnd, (List.append_nil _).symm,
            (List.append_nil _).symm⟩
  | cons chunk chunks ih =>
      cases sameGaps with
      | nil => cases enough
      | @cons gap other gaps others sameGap sameGaps =>
          obtain ⟨_, _, _, _, sameNext, aligned, split, otherSplit⟩ :=
            ih (fun later mem => areChunks later (by simp [mem]))
              (Nat.succ.inj enough) sameGaps
          have whole := (areChunks chunk (by simp)).aligned sameNext aligned
          refine ⟨_, _, _, _, sameGap, whole, ?_, ?_⟩
          · simp only [layout, Utf8.encode_append, split, List.append_assoc]
          · simp only [layout, Utf8.encode_append, otherSplit, List.append_assoc]

/-- Gaps are interchangeable: only whether a gap is empty can matter for what a source means. -/
theorem parse_layout {chunks gaps others : List String}
    (areChunks : ∀ chunk ∈ chunks, IsChunk (Utf8.encode chunk))
    (enough : gaps.length = chunks.length + 1)
    (sameGaps : List.Forall₂
      (fun gap other => SameGap (Utf8.encode gap) (Utf8.encode other)) gaps others) :
    (Document.parse (layout gaps chunks)).toOption =
      (Document.parse (layout others chunks)).toOption := by
  have aligned := (loose_layout areChunks enough sameGaps).rest
  exact Document.toOption_parse_eq fun _ => ⟨aligned.declares, aligned.symm.declares⟩

/-- A type definition with blanks between its words, and one with comments there. -/
theorem parse_layout_typedef :
    (Document.parse (layout ["", " ", "\t", ""] ["typedef", "i32", "T;"])).toOption =
      (Document.parse (layout ["", "/* a */", "# b\n", ""] ["typedef", "i32", "T;"])).toOption := by
  have blockComment : Gap.Filler (Utf8.encode "/* a */") :=
    @Gap.Filler.block (Utf8.encode " a ") [] (by decide +kernel) .nil
  have lineComment : Gap.Filler (Utf8.encode "# b\n") :=
    @Gap.Filler.line [Byte.hash] (Utf8.encode " b") [] Byte.lineFeed (.inl rfl)
      (by decide +kernel) rfl .nil
  have blank : Gap.Filler (Utf8.encode " ") := .space rfl .nil
  have tab : Gap.Filler (Utf8.encode "\t") := .space rfl .nil
  refine parse_layout (fun chunk mem => ?_) rfl ?_
  · simp only [List.mem_cons, List.not_mem_nil, or_false] at mem
    rcases mem with rfl | rfl | rfl <;> exact .plain (by decide +kernel) (by decide +kernel)
  · exact .cons sameGap_nil (.cons ⟨blank, blockComment, by decide +kernel⟩
      (.cons ⟨tab, lineComment, by decide +kernel⟩ (.cons sameGap_nil .nil)))

end Layout

end ThriftIdl
