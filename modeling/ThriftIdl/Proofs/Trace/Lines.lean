import ThriftIdl.Proofs.Trace.Bounds

/-!
# How lines are counted

Line endings are counted one by one between tokens, and in a block comment together with the move
past it. Those in quoted text are not counted, since it is passed over as it is. So a position never
has too many of them, and exactly those that were passed if no quote was.
-/

namespace ThriftIdl

namespace Position

/--
Whether a position counts some line endings of the bytes that were passed, and all of them if there
is no quote among these bytes.
-/
structure Counts (position : Position) (passed : List UInt8) : Prop where
  lineFeeds : position.lineFeeds ≤ passed.count Byte.lineFeed
  carriageReturns : position.carriageReturns ≤ passed.count Byte.carriageReturn
  exactly : passed.any Byte.isQuote = false →
    position.lineFeeds = passed.count Byte.lineFeed ∧
      position.carriageReturns = passed.count Byte.carriageReturn

namespace Counts

variable {position : Position} {passed chunk : List UInt8}

theorem passAll (counts : position.Counts passed) (chunk : List UInt8) :
    (position.passAll chunk).Counts (passed ++ chunk) := by
  rcases counts with ⟨lineFeeds, carriageReturns, exactly⟩
  rw [passAll_eq]
  refine ⟨?_, ?_, ?_⟩
  · simpa using lineFeeds
  · simpa using carriageReturns
  · intro noQuote
    rw [List.any_append, Bool.or_eq_false_iff] at noQuote
    rcases exactly noQuote.1 with ⟨lineFeeds, carriageReturns⟩
    simp [lineFeeds, carriageReturns]

/-- Where a quote was passed, line endings may go uncounted. -/
theorem advance (counts : position.Counts passed) {count : Nat}
    (quote : (passed ++ chunk).any Byte.isQuote = true) :
    (position.advance count).Counts (passed ++ chunk) := by
  rcases counts with ⟨lineFeeds, carriageReturns, -⟩
  refine ⟨?_, ?_, ?_⟩
  · rw [List.count_append]
    exact Nat.le_add_right_of_le lineFeeds
  · rw [List.count_append]
    exact Nat.le_add_right_of_le carriageReturns
  · intro noQuote
    rw [quote] at noQuote
    cases noQuote

/-- The line of a position is that of its offset if no quote was passed. -/
theorem line (counts : position.Counts passed) (noQuote : passed.any Byte.isQuote = false) :
    position.line = 1 + max (passed.count Byte.lineFeed) (passed.count Byte.carriageReturn) := by
  rcases counts.exactly noQuote with ⟨lineFeeds, carriageReturns⟩
  rw [Position.line, lineFeeds, carriageReturns, Nat.add_comm]

end Counts

end Position

namespace Mark

variable {source : List UInt8} {start : Nat} {before after : Mark}

/-- A move passes its bytes behind those that were passed before. -/
theorem Anchored.passed_append (anchored : before.Anchored source start) {chunk rest : List UInt8}
    (split : before.remaining = chunk ++ rest) :
    (source.take (before.position.offset + chunk.length)).drop start =
      (source.take before.position.offset).drop start ++ chunk := by
  have front : (source.drop before.position.offset).take chunk.length = chunk := by
    rw [← anchored.remaining, split, List.take_left]
  have starts : start ≤ (source.take before.position.offset).length := by
    rw [List.length_take_of_le anchored.fits]
    exact anchored.starts
  rw [List.take_add, front, List.drop_append_of_le_length starts]

theorem Moves.counts (anchored : before.Anchored source start)
    (moves : before.Moves source start after)
    (counts : before.position.Counts ((source.take before.position.offset).drop start)) :
    after.position.Counts ((source.take after.position.offset).drop start) := by
  cases moves with
  | counting chunk split position _ =>
      have offset : after.position.offset = before.position.offset + chunk.length := by
        rw [position, Position.passAll_eq]
      rw [offset, anchored.passed_append split, position]
      exact counts.passAll chunk
  | quoted chunk split position _ quote =>
      have offset : after.position.offset = before.position.offset + chunk.length := by
        rw [position]
        rfl
      rw [offset, anchored.passed_append split] at quote ⊢
      rw [position]
      exact counts.advance quote

end Mark

namespace Reading

theorem counts_trace (source : String) (offset : Nat) :
    (∀ event ∈ (trace source offset).events, ∀ state ∈ [event.before, event.after],
        state.Everywhere fun position =>
          position.Counts (((Utf8.encode source).take position.offset).drop offset)) ∧
      ∀ attempt, Document.failedAttempt source offset = some attempt →
        attempt.error = ParseError.ofFailure (Utf8.encode source) attempt.reported ∧
          attempt.reported.position.Counts
            (((Utf8.encode source).take attempt.reported.position.offset).drop offset) := by
  have start : ∀ count, ((Utf8.encode source).take count).drop
      (min offset (Utf8.encode source).length) = ((Utf8.encode source).take count).drop offset :=
    fun count => drop_min (List.length_take_le' count _) offset
  have nothing : ((Utf8.encode source).take (min offset (Utf8.encode source).length)).drop offset =
      [] :=
    List.drop_of_length_le ((List.length_take_le _ _).trans (Nat.min_le_left _ _))
  have everywhere := @everywhere_trace source offset
    (fun position => position.Counts (((Utf8.encode source).take position.offset).drop offset))
    (fun anchored moves counts => by
      simp only [← start] at counts ⊢
      exact moves.counts anchored counts)
    (by rw [nothing]; exact ⟨Nat.le_refl _, Nat.le_refl _, fun _ => ⟨rfl, rfl⟩⟩)
  refine ⟨?_, everywhere.2⟩
  intro event mem state isState
  rcases everywhere.1 event mem with ⟨-, before, after⟩
  rcases List.mem_pair.1 isState with rfl | rfl
  · exact before
  · exact after

end Reading

namespace Document

/--
Lines are counted exactly outside of quoted text. No position of the whole record counts more line
feeds or carriage returns than stand between the place where reading began and its offset, and it
counts all of them if no quote stands there. So an error behind no quote has the line of its offset.
-/
theorem lines_exact (source : String) (offset : Nat) :
    (Reading.trace source offset).result = Reading.ofSource source offset ∧
    Reading.IsWholeRecord source offset (Reading.trace source offset).events ∧
    (∀ event ∈ (Reading.trace source offset).events, ∀ state ∈ [event.before, event.after],
      state.Everywhere fun position =>
        position.Counts (((Utf8.encode source).take position.offset).drop offset)) ∧
    ∀ error, parse source = .error error →
      ∃ attempt passed, failedAttempt source 0 = some attempt ∧ attempt.error = error ∧
        passed = (Utf8.encode source).take attempt.reported.position.offset ∧
        (passed.any Byte.isQuote = false →
          error.line =
            1 + max (passed.count Byte.lineFeed) (passed.count Byte.carriageReturn)) := by
  refine ⟨(Reading.trace_proper source offset).1, Reading.isWholeRecord_trace source offset,
    (Reading.counts_trace source offset).1, ?_⟩
  intro error failed
  rcases parseFrom_eq_error_iff.1 failed with ⟨attempt, isFailed, rfl⟩
  rcases (Reading.counts_trace source 0).2 attempt isFailed with ⟨isError, counts⟩
  refine ⟨attempt, _, isFailed, rfl, rfl, ?_⟩
  intro noQuote
  rw [List.drop_zero] at counts
  rw [isError]
  exact counts.line noQuote

/-- The missing name is on the third line, behind a comment with a line ending of two bytes. -/
theorem lines_exact_comment :
    ∃ error attempt, parse "/*\x0d\x0a*/\x0d\x0aenum" = .error error ∧
      failedAttempt "/*\x0d\x0a*/\x0d\x0aenum" 0 = some attempt ∧ attempt.error = error ∧
      attempt.reported.position.offset = 12 ∧
      ((Utf8.encode "/*\x0d\x0a*/\x0d\x0aenum").take 12).any Byte.isQuote = false ∧
      error.line = 1 + max (((Utf8.encode "/*\x0d\x0a*/\x0d\x0aenum").take 12).count Byte.lineFeed)
        (((Utf8.encode "/*\x0d\x0a*/\x0d\x0aenum").take 12).count Byte.carriageReturn) ∧
      error.line = 3 := by
  have failed : parse "/*\x0d\x0a*/\x0d\x0aenum" =
      .error ⟨"expected identifier, found end of input", "", 3, .lexical⟩ := by
    decide +kernel
  have place : (failedAttempt "/*\x0d\x0a*/\x0d\x0aenum" 0).map
      (fun attempt => attempt.reported.position.offset) = some 12 := by
    decide +kernel
  have noQuote : ((Utf8.encode "/*\x0d\x0a*/\x0d\x0aenum").take 12).any Byte.isQuote = false := by
    decide +kernel
  rcases (lines_exact "/*\x0d\x0a*/\x0d\x0aenum" 0).2.2.2 _ failed with
    ⟨attempt, passed, isFailed, isError, isPassed, line⟩
  rw [isFailed] at place
  have offset : attempt.reported.position.offset = 12 := Option.some.inj place
  rw [offset] at isPassed
  subst isPassed
  exact ⟨_, attempt, failed, isFailed, isError, offset, noQuote, line noQuote, rfl⟩

end Document

end ThriftIdl
