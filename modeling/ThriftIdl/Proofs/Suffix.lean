import ThriftIdl.Proofs.Reading.Continuation
import ThriftIdl.Proofs.Text.Boundary

/-!
# Reading from an offset on

Reading that begins in the middle of a source, between two characters, is reading the text behind
that place: nothing in front of it is looked at, and lines are counted from it. Behind the last
character there is nothing to read.
-/

namespace ThriftIdl

/-- The text of a source from an offset on. -/
def Utf8.suffix (source : String) (offset : Nat) : String :=
  Utf8.text ((Utf8.encode source).drop offset)

/-- Between two characters, the bytes from there on are the bytes of a text. -/
theorem Utf8.encode_suffix {source : String} {offset : Nat}
    (boundary : Utf8.isBoundary (Utf8.encode source) offset = true) :
    Utf8.encode (Utf8.suffix source offset) = (Utf8.encode source).drop offset := by
  rcases Utf8.exists_append_of_isBoundary boundary with ⟨_, behind, -, -, encoded⟩
  rw [Utf8.suffix, ← encoded, Utf8.text_encode]

/-- Some bytes in front of a source, none of whose line endings are counted. -/
def Front.uncounted (bytes : List UInt8) : Front := ⟨bytes, 0, 0⟩

/-- Starting at an offset is starting at the beginning of what stands behind it. -/
theorem State.shifted_startAt {source suffix : List UInt8} {offset : Nat}
    (behind : suffix = source.drop offset) :
    (State.startAt suffix 0).Shifted (Front.uncounted (source.take offset))
      (State.startAt source offset) := by
  refine ⟨⟨?_, ⟨⟨?_, rfl, rfl⟩, ?_⟩, .nil, .none⟩, .none⟩
  · exact behind ▸ (List.take_append_drop offset source).symm
  · simp [State.startAt, Cursor.startAt, Front.uncounted]
  · simp [State.startAt, Cursor.startAt, behind]

namespace Reading

/-- What is read from an offset on is what is read from the text behind it. -/
theorem shifted_ofSource {source : String} {offset : Nat}
    (boundary : Utf8.isBoundary (Utf8.encode source) offset = true) :
    (ofSource (Utf8.suffix source offset) 0).Shifted
      (Front.uncounted ((Utf8.encode source).take offset)) (ofSource source offset) :=
  shifted_ofState ((State.shifted_startAt (Utf8.encode_suffix boundary)).mapCursor
    Correspondence.Cursors.skipGap).prepare

/-- The same declarations and the same error make the same document. -/
theorem Shifted.document_eq {front : List UInt8} {near far : Reading}
    (shifted : near.Shifted (Front.uncounted front) far) : far.document = near.document := by
  have sameDeclarations : far.declarations.map Prod.fst = near.declarations.map Prod.fst := by
    rw [shifted.declarations, List.map_map]
    rfl
  have sameError : far.error = near.error := by
    have alike := shifted.error
    generalize near.error = nearError at alike ⊢
    generalize far.error = farError at alike ⊢
    cases alike with
    | some error => exact congrArg some (error.eq_of_uncounted rfl rfl)
    | none => rfl
  rw [document, document, sameError, sameDeclarations]

end Reading

namespace Document

/--
Parsing from an offset between two characters is parsing the text from there on, with the same
document or with the same error, its line included. Nothing is left to declare at the end or beyond.
-/
theorem parseFrom_suffix (source : String) (offset : Nat) :
    (Utf8.isBoundary (Utf8.encode source) offset = true →
        parseFrom source offset = parse (Utf8.suffix source offset)) ∧
      ((Utf8.encode source).length ≤ offset → parseFrom source offset = .ok empty) := by
  constructor
  · intro boundary
    exact (Reading.shifted_ofSource boundary).document_eq
  · intro atEnd
    have nothing : (State.startAt (Utf8.encode source) offset).cursor.remaining = [] :=
      List.drop_eq_nil_of_le atEnd
    refine Reading.document_ofStateWithin_eq_ok_iff.2 ⟨[], ?_, rfl⟩
    rw [nothing, Gap.rest_nil]
    exact .nil []

/-- A struct that is cut short behind an accented letter, which nothing could begin with. -/
theorem parseFrom_suffix_accent :
    Utf8.isBoundary (Utf8.encode "é\nstruct") 2 = true ∧
      parseFrom "é\nstruct" 2 = parse "\nstruct" ∧
      (Utf8.encode "é\nstruct").length ≤ 9 ∧ parseFrom "é\nstruct" 9 = .ok empty := by
  have boundary : Utf8.isBoundary (Utf8.encode "é\nstruct") 2 = true := by decide +kernel
  have behind : Utf8.suffix "é\nstruct" 2 = "\nstruct" := by decide +kernel
  have atEnd : (Utf8.encode "é\nstruct").length ≤ 9 := by decide +kernel
  have same := (parseFrom_suffix "é\nstruct" 2).1 boundary
  rw [behind] at same
  exact ⟨boundary, same, atEnd, (parseFrom_suffix "é\nstruct" 9).2 atEnd⟩

end Document

end ThriftIdl
