import ThriftIdl.Proofs.Trace.Bounds

/-!
# No character is cut

Bytes are read, but where reading begins between two characters, every place that it comes to lies
between two characters again. So texts are cut out as they are, and an error shows the characters
behind the place of its failure.
-/

namespace ThriftIdl

namespace ParseError

/-- An error of a place between two characters shows what follows there. -/
theorem ofFailure_boundary {source : String} {failure : Failure}
    (boundary : Utf8.isBoundary (Utf8.encode source) failure.position.offset = true) :
    ∃ passed following : String, source = passed ++ following ∧
      (Utf8.encode passed).length = failure.position.offset ∧
      (ofFailure (Utf8.encode source) failure).context.toList =
        following.toList.take contextLength ∧
      (ofFailure (Utf8.encode source) failure).message =
        failure.message ++ ", found " ++ found (following.toList.take contextLength) := by
  rcases Utf8.exists_append_of_isBoundary boundary with ⟨passed, following, whole, length, behind⟩
  have context : Utf8.decodeLossy ((Utf8.encode source).drop failure.position.offset) =
      following.toList := by
    rw [← behind, Utf8.decodeLossy_of_valid (Utf8.valid_encode following), Utf8.text_encode]
  refine ⟨passed, following, whole, length, ?_, ?_⟩
  · simp only [ofFailure, context, String.toList_ofList]
  · simp only [ofFailure, context]

/-- The end of the input is found exactly where nothing follows. -/
theorem found_endOfInput_iff (message : String) (characters : List Char) :
    "found end of input".toList <:+ (message ++ ", found " ++ found characters).toList ↔
      characters = [] := by
  cases characters with
  | nil =>
      refine iff_of_true ⟨(message ++ ", ").toList, ?_⟩ rfl
      simp [found, String.toList_append]
  | cons character rest =>
      refine iff_of_false ?_ (by simp)
      rintro ⟨front, same⟩
      have last := congrArg List.getLast? same
      simp [found, String.toList_append, List.getLast?_append] at last

end ParseError

namespace Mark

variable {source : List UInt8} {start : Nat} {before after : Mark}

theorem Anchored.isBoundary_iff (anchored : before.Anchored source start)
    (valid : Utf8.Valid source) :
    Utf8.isBoundary source before.position.offset = true ↔ Utf8.Valid before.remaining := by
  rw [Utf8.isBoundary_iff valid, anchored.remaining]
  exact and_iff_right anchored.fits

/-- Moves from between two characters lead between two characters. -/
theorem Moves.isBoundary (valid : Utf8.Valid source) (anchored : before.Anchored source start)
    (moves : before.Moves source start after)
    (boundary : Utf8.isBoundary source before.position.offset = true) :
    Utf8.isBoundary source after.position.offset = true := by
  rw [anchored.isBoundary_iff valid] at boundary
  rw [(moves.anchored anchored).isBoundary_iff valid]
  exact moves.valid boundary

end Mark

namespace Document

/--
No character is cut. Where reading begins between two characters, all positions of the whole record
lie between two characters, texts are cut out between two such places in order, and nothing is
decoded that is no text. An error shows at most fifty characters behind its failure, and its message
names the first of them, or the end of the input if there is none.
-/
theorem whole_characters {source : String} {offset : Nat}
    (boundary : Utf8.isBoundary (Utf8.encode source) offset = true) :
    (Reading.trace source offset).result = Reading.ofSource source offset ∧
    Reading.IsWholeRecord source offset (Reading.trace source offset).events ∧
    (∀ event ∈ (Reading.trace source offset).events,
      (∀ state ∈ [event.before, event.after], state.Everywhere fun position =>
        Utf8.isBoundary (Utf8.encode source) position.offset = true) ∧
      (∀ start, event.operation = .text start →
        start ≤ event.before.cursor.offset ∧
          Utf8.isBoundary (Utf8.encode source) start = true ∧
          Utf8.isBoundary (Utf8.encode source) event.before.cursor.offset = true) ∧
      ∀ start, event.operation ≠ .decodeLossy start) ∧
    ∀ error, parseFrom source offset = .error error →
      ∃ attempt passed following, failedAttempt source offset = some attempt ∧
        attempt.error = error ∧ source = passed ++ following ∧
        (Utf8.encode passed).length = attempt.reported.position.offset ∧
        error.context.toList = following.toList.take 50 ∧
        ("found end of input".toList <:+ error.message.toList ↔
          attempt.reported.position.offset = (Utf8.encode source).length) ∧
        (attempt.reported.position.offset ≠ (Utf8.encode source).length →
          ∃ character others, error.context.toList = character :: others ∧
            error.message =
              attempt.reported.message ++ ", found `" ++ String.singleton character ++ "`") := by
  have start : min offset (Utf8.encode source).length = offset :=
    Nat.min_eq_left ((Utf8.isBoundary_iff (Utf8.valid_encode source)).1 boundary).1
  have everywhere := @Reading.everywhere_trace source offset
    (fun position => Utf8.isBoundary (Utf8.encode source) position.offset = true)
    (fun anchored moves => moves.isBoundary (Utf8.valid_encode source) anchored)
    (start.symm ▸ boundary)
  rcases everywhere with ⟨events, atEnd⟩
  refine ⟨(Reading.trace_proper source offset).1, Reading.isWholeRecord_trace source offset, ?_, ?_⟩
  · intro event mem
    rcases events event mem with ⟨proper, before, after⟩
    refine ⟨?_, proper.text, ?_⟩
    · intro state isState
      rcases List.mem_pair.1 isState with rfl | rfl
      · exact before
      · exact after
    · intro place same
      rcases proper.lossy place same with ⟨inside, failure, recorded, rfl⟩
      have outside := recorded.elim (before.tooDeep failure) (before.furthest failure)
      rw [inside] at outside
      cases outside
  · intro error failed
    rcases parseFrom_eq_error_iff.1 failed with ⟨attempt, isFailed, rfl⟩
    rcases atEnd attempt isFailed with ⟨isError, boundaryThere⟩
    rcases ParseError.ofFailure_boundary boundaryThere with
      ⟨passed, following, whole, length, context, message⟩
    rw [← isError] at context message
    have lengths : (Utf8.encode source).length =
        (Utf8.encode passed).length + (Utf8.encode following).length := by
      rw [whole, Utf8.encode_append, List.length_append]
    have ends : attempt.reported.position.offset = (Utf8.encode source).length ↔
        following.toList.take ParseError.contextLength = [] := by
      rw [List.take_eq_nil_iff, or_iff_right (by decide), ← Utf8.encode_eq_nil_iff,
        ← List.length_eq_zero_iff]
      omega
    refine ⟨attempt, passed, following, isFailed, rfl, whole, length, context, ?_, ?_⟩
    · rw [message, ParseError.found_endOfInput_iff, ends]
    · intro notAtEnd
      rw [ne_eq, ends] at notAtEnd
      obtain ⟨character, others, front⟩ := List.exists_cons_of_ne_nil notAtEnd
      refine ⟨character, others, context.trans front, ?_⟩
      have joined : ", found `" = ", found " ++ "`" := rfl
      rw [message, front, ParseError.found, joined]
      simp only [String.append_assoc]

/-- The accented letter of a comment is passed over as a whole, and another one is shown. -/
theorem whole_characters_accents :
    Utf8.isBoundary (Utf8.encode "/* é */ enum é") 0 = true ∧
      ∃ error passed following, parseFrom "/* é */ enum é" 0 = .error error ∧
        "/* é */ enum é" = passed ++ following ∧ error.context = "é" ∧
        error.context.toList = following.toList.take 50 := by
  have boundary : Utf8.isBoundary (Utf8.encode "/* é */ enum é") 0 = true := by decide +kernel
  have failed : parseFrom "/* é */ enum é" 0 =
      .error ⟨"expected identifier, found `é`", "é", 1, .lexical⟩ := by
    decide +kernel
  rcases (whole_characters boundary).2.2.2 _ failed with
    ⟨attempt, passed, following, -, -, whole, -, context, -⟩
  exact ⟨boundary, _, passed, following, failed, whole, rfl, context⟩

end Document

end ThriftIdl
