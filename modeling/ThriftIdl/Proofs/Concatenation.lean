import ThriftIdl.Proofs.Document.Fold
import ThriftIdl.Proofs.Grammar.Locality
import ThriftIdl.Proofs.Reading.Continuation

/-!
# Sources one below the other

A source that can be read may be continued on a new line. If the second source can be read too, then
both together declare what they declare apart, and the second overwrites the first. If it cannot,
then the error of both together is its error, unless it begins with something that the last
declaration of the first source could still take along.
-/

namespace ThriftIdl

open Rule

namespace Document

variable {first second : String} {document : Document} {declarations : List Declaration}

theorem encode_lines (first second : String) :
    Utf8.encode (first ++ "\n" ++ second) =
      Utf8.encode first ++ Byte.lineFeed :: Utf8.encode second := by
  have newLine : Utf8.encode "\n" = [Byte.lineFeed] := by decide +kernel
  rw [Utf8.encode_append, Utf8.encode_append, newLine, List.append_assoc, List.singleton_append]

/-- The declarations of a source are spelled in front of whatever follows on a new line. -/
theorem repeats_lines (declares : Declares (Gap.rest (Utf8.encode first)) declarations)
    (closed : Gap.CommentsClosed (Utf8.encode first)) (quiet : Quiet (Utf8.encode second)) :
    Repeats (fun bytes item rest =>
        (Grammar.declaration Grammar.maxNesting).read bytes = some (item, rest))
      (Gap.rest (Utf8.encode (first ++ "\n" ++ second))) declarations
      (Gap.rest (Utf8.encode second)) := by
  have spells := declares.imp fun _ _ _ => Grammar.read_declaration_iff.1
  have extended := extend_declarations quiet spells (closed.suffix (Gap.rest_suffix _))
  rw [← rest_append_eq_extend closed, ← encode_lines] at extended
  exact extended.imp fun _ _ _ => Grammar.read_declaration_iff.2

/-- What begins with a declaration begins with nothing that could belong to an earlier one. -/
theorem quiet_of_declares (declares : Declares (Gap.rest (Utf8.encode second)) declarations) :
    Quiet (Utf8.encode second) :=
  stops_of_declarations (declares.imp fun _ _ _ => Grammar.read_declaration_iff.1)

/-- The place in front of the first declaration of a source. -/
def opening (source : String) : State :=
  (State.startAt (Utf8.encode source) 0).mapCursor Cursor.skipGap

theorem remaining_opening (source : String) :
    (opening source).cursor.remaining = Gap.rest (Utf8.encode source) :=
  Gap.remaining_skip .between _ _

theorem extent_opening (source : String) :
    (opening source).cursor.mark.extent = (Utf8.encode source).length := by
  refine (Mark.extent_skipGap _).trans ?_
  simp [Mark.extent, State.startAt, Cursor.startAt]

theorem parse_eq_error_iff {source : String} {error : ParseError} :
    parse source = .error error ↔
      (Reading.ofState (Grammar.declaration Grammar.maxNesting) (opening source)).error =
        some error := by
  change Reading.document (Reading.ofState _ (opening source)) = _ ↔ _
  generalize Reading.ofState _ (opening source) = reading
  unfold Reading.document
  cases reading.error <;> simp

/-- What is in front of a second source, and what reading has counted there. -/
def frontOf (text second : String) (after : State) : Front where
  bytes := Utf8.encode text
  lineFeeds := after.cursor.position.lineFeeds - (opening second).cursor.position.lineFeeds
  carriageReturns :=
    after.cursor.position.carriageReturns - (opening second).cursor.position.carriageReturns

/-- Behind the first of two sources, reading is where it would be at the beginning of the second. -/
theorem shifted_opening {after : State} (framed : Framed (opening (first ++ "\n" ++ second)) after)
    (place : after.cursor.remaining = Gap.rest (Utf8.encode second)) :
    (Reading.prepare (opening second)).Shifted (frontOf (first ++ "\n") second after)
      (Reading.prepare after) := by
  have whole : Utf8.encode (first ++ "\n" ++ second) =
      Utf8.encode (first ++ "\n") ++ Utf8.encode second := Utf8.encode_append _ _
  have remaining : after.cursor.mark.remaining = (opening second).cursor.mark.remaining :=
    place.trans (remaining_opening second).symm
  have farExtent := framed.extent
  have nearExtent := extent_opening second
  rw [extent_opening, whole, List.length_append] at farExtent
  simp only [Mark.extent, remaining] at farExtent nearExtent
  have offset : after.cursor.mark.position.offset =
      (opening second).cursor.mark.position.offset + (Utf8.encode (first ++ "\n")).length := by
    omega
  constructor
  · constructor
    · exact framed.source.trans whole
    · exact ⟨⟨offset, (add_sub_cancel _ _).symm, (add_sub_cancel _ _).symm⟩, remaining⟩
    · change List.Forall₂ _ [] after.cursor.checkpoints
      rw [framed.checkpoints]
      exact .nil
    · exact .none
  · exact .none

/--
A source that can be read and that closes its block comments may be followed, on a new line, by any
other. If that can be read, its declarations are inserted after those of the first source; if not,
its error is the error, unless it begins with a separator or a dot.
-/
theorem parse_lines (parsed : parse first = .ok document)
    (closed : Gap.CommentsClosed (Utf8.encode first)) :
    (∀ other, parse second = .ok other →
        parse (first ++ "\n" ++ second) = .ok (document.insertAll other.declarations)) ∧
      ∀ error, parse second = .error error → Quiet (Utf8.encode second) →
        ∃ same, parse (first ++ "\n" ++ second) = .error same ∧ error.SameButLine same := by
  obtain ⟨declarations, declares, rfl⟩ := parse_eq_ok_iff.1 parsed
  constructor
  · intro other parsedOther
    obtain ⟨others, declaresOthers, rfl⟩ := parse_eq_ok_iff.1 parsedOther
    have front := repeats_lines declares closed (quiet_of_declares declaresOthers)
    refine parse_eq_ok_iff.2 ⟨declarations ++ others, front.append declaresOthers, ?_⟩
    rw [ofList_append, insertAll_declarations_ofList]
  · intro error failed quiet
    have front := repeats_lines declares closed quiet
    rw [← remaining_opening] at front
    obtain ⟨after, place, framed, same⟩ := Reading.exists_after_declarations
      (Grammar.wellFormed_declaration _) (Grammar.not_nullable_declaration _) front
    have alike := @Reading.ofState_shifted (Grammar.declaration Grammar.maxNesting) _ _ _
      (shifted_opening framed place)
    rw [same, parse_eq_error_iff.1 failed] at alike
    generalize reached : (Reading.ofState (Grammar.declaration Grammar.maxNesting)
      (opening (first ++ "\n" ++ second))).error = result at alike
    cases alike with
    | some sameButLine => exact ⟨_, parse_eq_error_iff.2 reached, sameButLine⟩

/-- A type that is defined anew on the next line, and a struct that is cut short there. -/
theorem parse_lines_typedef :
    parse ("typedef i32 A" ++ "\n" ++ "typedef i64 A") =
        .ok (ofList [⟨.typedef, "A", FieldType.named "i64"⟩]) ∧
      ∃ error same, parse "struct" = .error error ∧
        parse ("typedef i32 A" ++ "\n" ++ "struct") = .error same ∧ error.SameButLine same := by
  have parsed : parse "typedef i32 A" = .ok (ofList [⟨.typedef, "A", FieldType.named "i32"⟩]) := by
    decide +kernel
  have closed : Gap.CommentsClosed (Utf8.encode "typedef i32 A") := by
    intro front body same
    have slash : Byte.slash ∈ Utf8.encode "typedef i32 A" := by simp [same]
    exact absurd slash (by decide +kernel)
  have parsedNext : parse "typedef i64 A" =
      .ok (ofList [⟨.typedef, "A", FieldType.named "i64"⟩]) := by
    decide +kernel
  obtain ⟨error, failed⟩ : ∃ error, parse "struct" = .error error := by
    cases failed : parse "struct" with
    | error error => exact ⟨error, rfl⟩
    | ok document =>
        have noDocument : (parse "struct").toOption = none := by decide +kernel
        rw [failed] at noDocument
        cases noDocument
  have quiet : Quiet (Utf8.encode "struct") := by
    unfold Quiet Stops
    decide +kernel
  constructor
  · rw [(parse_lines parsed closed).1 _ parsedNext]
    decide +kernel
  · obtain ⟨same, failedLater, sameButLine⟩ := (parse_lines parsed closed).2 error failed quiet
    exact ⟨error, same, failed, failedLater, sameButLine⟩

end Document

end ThriftIdl
