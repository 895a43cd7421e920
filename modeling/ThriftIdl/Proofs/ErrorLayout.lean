import ThriftIdl.Proofs.Grammar.Complaints
import ThriftIdl.Proofs.Printing.Numeral
import ThriftIdl.Proofs.Reading.Attempt

/-!
# The layout of errors

An error is shown on one line, or on five lines together with the source. Either layout is kept
exactly if the message has no line ending in it. The message shows the character at the failure as
it is, and this is a line ending in one case only: a number that breaks off, or is out of range, at
the end of its line.
-/

namespace ThriftIdl

/-- Whether a failure is a complaint about its place in a source. -/
def Failure.Complains (source : List UInt8) (failure : Failure) : Prop :=
  Complaint failure.kind failure.expected (source.drop failure.position.offset)

namespace ParseError

theorem inline_ofNat (number : Nat) : Inline (Numeral.ofNat number) :=
  inline_of_bytes fun byte mem => by
    have digit := (Numeral.isNumeral_ofNat number).areDigits byte mem
    grind [Byte.isDigit, Byte.isLineEnd]

theorem inline_contextLine (error : ParseError) : Inline error.contextLine := by
  have kept : ∀ character ∈ error.contextLine.toList,
      (character != '\n' && character != '\r') = true := by
    intro character mem
    rw [contextLine, String.toList_ofList] at mem
    have accepted := List.mem_takeWhile_imp mem
    exact accepted
  exact ⟨fun mem => absurd (kept _ mem) (by decide), fun mem => absurd (kept _ mem) (by decide)⟩

theorem inline_oneLine_iff (error : ParseError) :
    Inline error.oneLine ↔ Inline error.message := by
  have name : Inline inputName := by decide
  have colon : Inline ":" := by decide
  have label : Inline ": error: " := by decide
  simp only [oneLine, inline_append, name, colon, label, inline_ofNat, true_and]

/-- The five lines of an error. -/
theorem detailed_eq (error : ParseError) :
    error.detailed none =
      "error: " ++ error.message ++ "\n" ++
        ("  --> " ++ inputName ++ ":" ++ Numeral.ofNat error.line ++ "\n" ++
          ("   |" ++ "\n" ++ ("   | " ++ error.contextLine ++ "\n" ++ ("   | ^" ++ "\n")))) := by
  have barLine : "   |\n" = "   |" ++ "\n" := by decide
  have caretLine : "   | ^\n" = "   | ^" ++ "\n" := by decide
  apply String.toList_inj.1
  unfold detailed
  rewrite [Option.getD_none, barLine, caretLine]
  simp only [String.toList_append, List.append_assoc]

theorem madeOfLines_detailed_iff (error : ParseError) :
    MadeOfLines 5 (error.detailed none) ↔ Inline error.message := by
  have numbered : Inline ("  --> " ++ inputName ++ ":" ++ Numeral.ofNat error.line) := by
    have arrow : Inline "  --> " := by decide
    have name : Inline inputName := by decide
    have colon : Inline ":" := by decide
    simp only [inline_append, arrow, name, colon, inline_ofNat, and_self]
  have shown : Inline ("   | " ++ error.contextLine) := by
    have bar : Inline "   | " := by decide
    simp only [inline_append, bar, inline_contextLine, and_self]
  have bar : Inline "   |" := by decide
  have label : Inline "error: " := by decide
  have lastLine : MadeOfLines 1 ("   | ^" ++ "\n") := madeOfLines_one_iff.2 (by decide)
  have lines := (madeOfLines_succ_iff ((madeOfLines_succ_iff
    ((madeOfLines_succ_iff lastLine).2 shown)).2 bar)).2 numbered
  rewrite [detailed_eq, madeOfLines_succ_iff lines, inline_append]
  exact and_iff_right label

/-- Whether an error is about a number that breaks off, or is out of range, where its line ends. -/
def CutShort (error : ParseError) : Prop :=
  error.kind = .lexical ∧ ∃ what ∈ Lexeme.numberFaults, ∃ ending ∈ ['\n', '\r'],
    error.message = "expected " ++ what ++ ", found `" ++ String.singleton ending ++ "`"

theorem not_inline_of_cutShort {error : ParseError} (cutShort : error.CutShort) :
    ¬Inline error.message := by
  rcases cutShort with ⟨-, what, -, ending, isEnding, message⟩
  intro inline
  simp only [message, inline_append] at inline
  have alone := inline.1.2
  simp only [List.mem_cons, List.not_mem_nil, or_false] at isEnding
  rcases isEnding with rfl | rfl
  · exact absurd alone (by decide)
  · exact absurd alone (by decide)

theorem found_eq (characters : List Char) :
    found (characters.take contextLength) =
      (characters.head?.map fun character =>
        "`" ++ String.singleton character ++ "`").getD "end of input" := by
  cases characters <;> rfl

theorem inline_singleton_iff {character : Char} :
    Inline (String.singleton character) ↔ character ≠ '\n' ∧ character ≠ '\r' := by
  simp [Inline, eq_comm]

/-- What was found is shown inline, unless a line ends there. -/
theorem inline_found {bytes : List UInt8} (inLine : Stops Byte.isLineEnd bytes) :
    Inline (found ((Utf8.decodeLossy bytes).take contextLength)) := by
  rw [found_eq]
  cases shown : (Utf8.decodeLossy bytes).head? with
  | none => exact (by decide : Inline "end of input")
  | some character =>
      have noLineEnd : ∀ byte, byte < 0x80 → Byte.isLineEnd byte = true →
          character ≠ Byte.toChar byte := by
        rintro byte ascii lineEnd rfl
        have atHead := (Utf8.head?_decodeLossy_eq_iff ascii bytes).1 shown
        rw [Stops, atHead, Option.any_some, lineEnd] at inLine
        cases inLine
      have alone : Inline (String.singleton character) :=
        inline_singleton_iff.2 ⟨noLineEnd Byte.lineFeed (by decide) rfl,
          noLineEnd Byte.carriageReturn (by decide) rfl⟩
      have tick : Inline "`" := by decide
      simp only [Option.map_some, Option.getD_some, inline_append, tick, alone, and_self]

/-- Where a line ends, its ending is what was found. -/
theorem exists_found_lineEnd {bytes : List UInt8}
    (lineEnd : bytes.head?.any Byte.isLineEnd = true) :
    ∃ ending ∈ ['\n', '\r'], found ((Utf8.decodeLossy bytes).take contextLength) =
      "`" ++ String.singleton ending ++ "`" := by
  cases atHead : bytes.head? with
  | none => rw [atHead] at lineEnd; cases lineEnd
  | some byte =>
      rw [atHead, Option.any_some, Byte.isLineEnd, Bool.or_eq_true, beq_iff_eq, beq_iff_eq]
        at lineEnd
      have ascii : byte < 0x80 := by rcases lineEnd with rfl | rfl <;> decide
      have shown := (Utf8.head?_decodeLossy_eq_iff ascii bytes).2 atHead
      refine ⟨Byte.toChar byte, ?_, by rw [found_eq, shown]; rfl⟩
      rcases lineEnd with rfl | rfl <;> decide

/-- The message of a failure is inline, unless a number is cut short. -/
theorem inline_or_cutShort {source : List UInt8} {failure : Failure}
    (complaint : failure.Complains source) :
    Inline (ofFailure source failure).message ∨ (ofFailure source failure).CutShort := by
  cases lineEnd : (source.drop failure.position.offset).head?.any Byte.isLineEnd with
  | false =>
      refine .inl ?_
      have expected := complaint.inline
      have asked : Inline "expected " := by decide
      have surprised : Inline "unexpected token, expected " := by decide
      have tooDeep : Inline "maximum nesting depth exceeded" := by decide
      have instead : Inline ", found " := by decide
      have said : Inline failure.message := by
        unfold Failure.message
        split <;> simp only [inline_append, asked, surprised, tooDeep, expected, and_self]
      simp only [ofFailure, inline_append, said, instead, inline_found lineEnd, and_self]
  | true =>
      refine .inr ?_
      rcases exists_found_lineEnd lineEnd with ⟨ending, isEnding, shown⟩
      rcases complaint.inLine with inLine | ⟨lexical, what, isFault, expected⟩
      · rw [Stops, lineEnd] at inLine
        cases inLine
      · refine ⟨lexical, what, isFault, ending, isEnding, ?_⟩
        have instead : ", found `" = ", found " ++ "`" := by decide
        apply String.toList_inj.1
        simp only [ofFailure, shown, Failure.message, expected, lexical, Expected.text, instead,
          String.toList_append, List.append_assoc]

end ParseError

namespace Reading

variable {rule : Rule Declaration} {source : List UInt8} {state : State} {attempt : Attempt}

/-- Whether a state is at a place of a source where no gap is left. -/
structure AtToken (source : List UInt8) (state : State) : Prop where
  sameSource : state.cursor.source = source
  suffix : state.cursor.remaining <:+ source
  extent : state.cursor.mark.extent = source.length
  settled : Gap.Settled state.cursor.remaining

theorem AtToken.of_run_done (wellFormed : rule.WellFormed) {before after : State}
    {declaration : Declaration} (atToken : AtToken source before)
    (ran : rule.run (prepare before) = .done declaration after) : AtToken source after := by
  have framed := Rule.framed_of_run_done ran
  have found := Rule.read_of_run_done ran
  exact ⟨framed.source.trans atToken.sameSource, (rule.read_suffix found).trans atToken.suffix,
    framed.extent.trans atToken.extent, Gap.kept_settled.read wellFormed atToken.settled found⟩

/-- The reported failure is a complaint about the place where it lies. -/
theorem complaint_of_failedAttempt (wellFormed : rule.WellFormed) (labels : rule.Labels Inline)
    (atToken : AtToken source state) (failed : failedAttempt rule state = some attempt) :
    attempt.error = ParseError.ofFailure source attempt.reported ∧
      attempt.reported.Complains source := by
  have before : AtToken source attempt.before :=
    before_of_failedAttempt (fun atToken ran => atToken.of_run_done wellFormed ran) atToken failed
  have sameSource : attempt.after.cursor.source = source :=
    (Rule.framed_of_run_failed (run_of_failedAttempt failed)).source.trans before.sameSource
  constructor
  · rw [Attempt.error, sameSource]
  · apply reported_of_failing failed
    intro kind expected mark extent fails
    have place := Mark.remaining_eq_drop (fails.suffix.trans before.suffix)
      (extent.trans before.extent)
    have complaint := fails.complaint wellFormed labels before.settled
    rwa [place] at complaint

end Reading

namespace Document

theorem atToken_opening (source : String) (offset : Nat) :
    Reading.AtToken (Utf8.encode source)
      ((State.startAt (Utf8.encode source) offset).mapCursor Cursor.skipGap) := by
  have place : ((State.startAt (Utf8.encode source) offset).mapCursor
      Cursor.skipGap).cursor.remaining = Gap.rest ((Utf8.encode source).drop offset) :=
    Gap.remaining_skip .between _ _
  refine ⟨rfl, ?_, ?_, ?_⟩
  · rw [place]
    exact (Gap.rest_suffix _).trans (List.drop_suffix offset _)
  · refine (Mark.extent_skipGap _).trans ?_
    simp only [Mark.extent, State.startAt, Cursor.startAt, List.length_drop]
    omega
  · rw [place]
    exact Gap.settled_rest _

/--
The summary of an error is one line and the whole of it is five, unless the error is about a number
that breaks off, or is out of range, where its line ends. The line ending is then in both of them.
-/
theorem error_layout {source : String} {offset : Nat} {error : ParseError}
    (failed : parseFrom source offset = .error error) :
    (Inline error.oneLine ↔ ¬error.CutShort) ∧
      (MadeOfLines 5 (error.detailed none) ↔ ¬error.CutShort) := by
  rcases parseFrom_eq_error_iff.1 failed with ⟨attempt, isFailed, rfl⟩
  rcases Reading.complaint_of_failedAttempt (Grammar.wellFormed_declaration _)
    (Grammar.labels_declaration _) (atToken_opening source offset) isFailed with
    ⟨isError, complaint⟩
  have layout : Inline attempt.error.message ↔ ¬attempt.error.CutShort := by
    constructor
    · exact fun inline cutShort => ParseError.not_inline_of_cutShort cutShort inline
    · intro notCutShort
      rw [isError] at notCutShort ⊢
      exact (ParseError.inline_or_cutShort complaint).resolve_right notCutShort
  exact ⟨(ParseError.inline_oneLine_iff _).trans layout,
    (ParseError.madeOfLines_detailed_iff _).trans layout⟩

/-- A hexadecimal literal without digits keeps the layout if a blank follows. -/
theorem error_layout_blank :
    ∃ error, parseFrom "enum E \x7b A = 0x \x7d" 0 = .error error ∧
      (Inline error.oneLine ↔ ¬error.CutShort) ∧
      (MadeOfLines 5 (error.detailed none) ↔ ¬error.CutShort) ∧ ¬error.CutShort := by
  have failed : parseFrom "enum E \x7b A = 0x \x7d" 0 =
      .error ⟨"expected hexadecimal digits, found ` `", " \x7d", 1, .lexical⟩ := by
    decide +kernel
  have inline : Inline "expected hexadecimal digits, found ` `" := by decide
  have layout := error_layout failed
  exact ⟨_, failed, layout.1, layout.2,
    layout.1.1 ((ParseError.inline_oneLine_iff _).2 inline)⟩

/-- If its line ends there, the message shows the line ending, and the summary has two lines. -/
theorem error_layout_not_kept :
    ∃ error, parse "enum E \x7b A = 0x\n \x7d" = .error error ∧
      ¬Inline error.oneLine ∧ ¬MadeOfLines 5 (error.detailed none) := by
  have failed : parse "enum E \x7b A = 0x\n \x7d" =
      .error ⟨"expected hexadecimal digits, found `\n`", "\n \x7d", 1, .lexical⟩ := by
    decide +kernel
  have notInline : ¬Inline "expected hexadecimal digits, found `\n`" := by decide
  exact ⟨_, failed, mt (ParseError.inline_oneLine_iff _).1 notInline,
    mt (ParseError.madeOfLines_detailed_iff _).1 notInline⟩

end Document

end ThriftIdl
