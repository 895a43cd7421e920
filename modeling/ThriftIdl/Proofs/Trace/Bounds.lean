import ThriftIdl.Proofs.Trace.Source

/-!
# Nothing is done out of bounds

Whatever the source and wherever reading begins, be it inside a character or beyond the end: bytes
are looked at where there are some, moves lead on and stay in the source, and there always is a place
to go back to. A start beyond the end is one at the end.
-/

namespace ThriftIdl

namespace Reading

variable {source : String} {offset : Nat}

/--
What every move keeps of a position holds of all positions that the reading of a source comes to,
and of that of the failure which is reported as an error of the source.
-/
theorem everywhere_trace {holds : Position → Prop}
    (kept : ∀ {before after : Mark},
      before.Anchored (Utf8.encode source) (min offset (Utf8.encode source).length) →
        before.Moves (Utf8.encode source) (min offset (Utf8.encode source).length) after →
          holds before.position → holds after.position)
    (atStart : holds ⟨min offset (Utf8.encode source).length, 0, 0⟩) :
    (∀ event ∈ (trace source offset).events,
        event.Proper (Utf8.encode source) (min offset (Utf8.encode source).length) ∧
          event.before.Everywhere holds ∧ event.after.Everywhere holds) ∧
      ∀ attempt, Document.failedAttempt source offset = some attempt →
        attempt.error = ParseError.ofFailure (Utf8.encode source) attempt.reported ∧
          holds attempt.reported.position := by
  rcases trace_proper source offset with ⟨-, last, run, ends⟩
  have everywhere : (State.startAt (Utf8.encode source) offset).Everywhere holds :=
    ⟨atStart, by simp [State.startAt, Cursor.startAt], nofun, nofun⟩
  have sound := State.sound_startAt source offset
  rcases run.everywhere kept sound everywhere with ⟨events, atEnd⟩
  have soundAtEnd := run.sound sound
  refine ⟨fun event mem => ⟨run.proper event mem, events event mem⟩, ?_⟩
  intro attempt failed
  rw [failed] at ends
  cases ends
  have recorded := reported_mem failed
  refine ⟨?_, recorded.elim (atEnd.tooDeep _) (atEnd.furthest _)⟩
  rw [Attempt.error, soundAtEnd.sameSource]

/--
Step by step, a source is read as it is read, and every operation on the way is allowed where it is
carried out. All positions lie between the one where reading begins and the end of the source. The
record of this is whole.
-/
theorem trace_allowed (source : String) (offset : Nat) :
    (trace source offset).result = ofSource source offset ∧
      IsWholeRecord source offset (trace source offset).events ∧
      ∀ event ∈ (trace source offset).events,
        event.operation.Allowed event.before ∧
          ∀ state ∈ [event.before, event.after], state.Everywhere fun position =>
            min offset (Utf8.encode source).length ≤ position.offset ∧
              position.offset ≤ (Utf8.encode source).length := by
  have everywhere := @everywhere_trace source offset
    (Position.Within (Utf8.encode source) (min offset (Utf8.encode source).length))
    (fun anchored moves _ => moves.within anchored) ⟨Nat.le_refl _, Nat.min_le_right _ _⟩
  refine ⟨(trace_proper source offset).1, isWholeRecord_trace source offset, ?_⟩
  intro event mem
  rcases everywhere.1 event mem with ⟨proper, before, after⟩
  refine ⟨proper.allowed, ?_⟩
  intro state isState
  rcases List.mem_pair.1 isState with rfl | rfl
  · exact before
  · exact after

end Reading

end ThriftIdl
