import ThriftIdl.Proofs.Document.Fold
import ThriftIdl.Proofs.Grammar.Joints
import ThriftIdl.Proofs.Reading.Success

/-!
# Gaps around dots

Gaps around the dots of a namespace do not matter, with one exception: a dot that has a gap behind it
must have one in front of it, too. Otherwise the dot is the last byte of an identifier, no further
segment is announced, and the name ends with the dot. What follows would have to be a declaration; it
may be one, but none that gives the namespace its name.
-/

namespace ThriftIdl

open Rule

variable {first : String} {joints : List Joint} {bytes rest tail : List UInt8}

/-- The source of a namespace for one language, with a dotted name. -/
def namespaceSource (first : String) (joints : List Joint) : String :=
  "namespace java " ++ first ++ Joint.texts joints

/-- The segments of a name with plain dots between them. -/
def joinedName (first : String) (joints : List Joint) : String :=
  ".".intercalate (first :: joints.map Joint.segment)

/-- The keyword and the scope stand in front of the name. -/
theorem spells_namespaceSource (isSegment : IsWord Byte.isSegment first) (joints : List Joint) :
    ∃ afterKeyword,
      SpellsName "namespace" (Utf8.encode (namespaceSource first joints)) afterKeyword ∧
      SpellsWord Byte.isScope "java" afterKeyword
        (Utf8.encode first ++ Utf8.encode (Joint.texts joints)) := by
  have keyword : IsName "namespace" := Token.isName_of_isPlain (Grammar.plain_keyword .namespaceName)
  have scope : IsWord Byte.isScope "java" := ⟨by decide, by decide +kernel⟩
  let name := Utf8.encode first ++ Utf8.encode (Joint.texts joints)
  have parts : Utf8.encode (namespaceSource first joints) =
      Utf8.encode "namespace java " ++ Utf8.encode first ++ Utf8.encode (Joint.texts joints) :=
    (Utf8.encode_append _ _).trans (congrArg (· ++ _) (Utf8.encode_append _ _))
  have bytes : Utf8.encode (namespaceSource first joints) = Utf8.encode "namespace" ++
      Byte.space :: (Utf8.encode "java" ++ Byte.space :: name) := by
    rw [parts, List.append_assoc]
    rfl
  have settled : Gap.rest name = name :=
    isSegment.isName.rest_append (fun _ => Byte.isScope_of_isIdentifier) _
  refine ⟨Utf8.encode "java" ++ Byte.space :: name, ?_, ?_⟩
  · refine ⟨keyword, _, bytes, stops_cons.2 rfl, ?_⟩
    rw [Gap.rest_space_cons, scope.rest_append fun _ => id]
  · refine ⟨scope, _, rfl, stops_cons.2 rfl, ?_⟩
    rw [Gap.rest_space_cons, settled]

/-- The source is read to a namespace with whatever its dotted name is read as. -/
theorem read_namespaceSource (isSegment : IsWord Byte.isSegment first) {name : String}
    {afterName : List UInt8}
    (ofName : SpellsDottedName name (Utf8.encode first ++ Utf8.encode (Joint.texts joints))
      afterName)
    (separator : SpellsSeparator afterName rest) :
    (Grammar.declaration Grammar.maxNesting).read (Utf8.encode (namespaceSource first joints)) =
      some (⟨.namespaceName, "java", name⟩, rest) := by
  rcases spells_namespaceSource isSegment joints with ⟨afterKeyword, keyword, ofScope⟩
  exact Grammar.read_declaration_iff.2 (.namespaceName keyword ofScope ofName separator)

/-- With gaps in front of the dots that have gaps behind them, the name is read as a whole. -/
theorem declares_namespaceSource (isSegment : IsWord Byte.isSegment first)
    (wellFormed : ∀ joint ∈ joints, joint.WellFormed)
    (balanced : ∀ joint ∈ joints, joint.Balanced) :
    Document.Declares (Utf8.encode (namespaceSource first joints))
      [⟨.namespaceName, "java", joinedName first joints⟩] := by
  have noLetters : ∀ byte ∈ Utf8.encode "", Byte.isIdentifier byte = true := by simp
  rcases exists_spellsReference wellFormed balanced isSegment.isName noLetters (stops_nil _) with
    ⟨head, others, middle, name, segments, same⟩
  rw [Utf8.encode_empty, List.nil_append, List.append_nil] at name
  rw [String.append_empty] at same
  have ofName : SpellsDottedName (joinedName first joints) _ [] :=
    ⟨head :: others, .intro name segments rfl, same.symm⟩
  exact .cons (read_namespaceSource isSegment ofName (.absent rfl)) (.nil [])

/-- The first joint that is not balanced, if there is one. -/
theorem exists_unbalanced {joints : List Joint} (unbalanced : ¬∀ joint ∈ joints, joint.Balanced) :
    ∃ front joint back, joints = front ++ joint :: back ∧ (∀ joint ∈ front, joint.Balanced) ∧
      joint.before = "" ∧ joint.after ≠ "" := by
  induction joints with
  | nil => simp at unbalanced
  | cons joint others ih =>
      by_cases tight : joint.before = "" ∧ joint.after ≠ ""
      · exact ⟨[], joint, others, rfl, by simp, tight⟩
      · have balanced : joint.Balanced := by
          unfold Joint.Balanced
          tauto
        rw [List.forall_mem_cons, not_and] at unbalanced
        rcases ih (unbalanced balanced) with ⟨front, later, back, rfl, ofFront, isFirst⟩
        refine ⟨joint :: front, later, back, rfl, ?_, isFirst⟩
        exact List.forall_mem_cons.2 ⟨balanced, ofFront⟩

/-- With a gap behind a dot that has none in front of it, the name that is read ends with a dot. -/
theorem read_unbalanced (isSegment : IsWord Byte.isSegment first)
    (wellFormed : ∀ joint ∈ joints, joint.WellFormed)
    (unbalanced : ¬∀ joint ∈ joints, joint.Balanced) :
    ∃ name later, (Grammar.declaration Grammar.maxNesting).read
        (Utf8.encode (namespaceSource first joints)) =
          some (⟨.namespaceName, "java", name ++ "."⟩, later) ∧ Dotted later := by
  rcases exists_unbalanced unbalanced with ⟨front, joint, back, rfl, balanced, tight, gap⟩
  rw [List.forall_mem_append, List.forall_mem_cons] at wellFormed
  rcases wellFormed with ⟨ofFront, ofJoint, ofBack⟩
  let later := Utf8.encode joint.segment ++ (Utf8.encode (Joint.texts back) ++ [])
  have dotted : Dotted later := dotted_joints ofBack ofJoint.segment.isName
  have isDot : ∀ byte ∈ Utf8.encode ".", Byte.isIdentifier byte = true := fun byte mem => by
    rw [List.mem_singleton.1 mem]
    rfl
  have stops : Stops Byte.isScope (Utf8.encode joint.after ++ later) :=
    stops_of_filler ofJoint.after (encode_ne_nil gap) _
  have behind : Gap.rest (Utf8.encode joint.after ++ later) = later := by
    rw [Gap.rest_append_of_filler ofJoint.after, dotted.rest_eq]
  rcases exists_spellsReference ofFront balanced isSegment.isName isDot
    (stops.mono fun _ => Byte.isScope_of_isIdentifier) with
    ⟨head, others, middle, name, segments, same⟩
  have bytes : Utf8.encode first ++ (Utf8.encode (Joint.texts front) ++
      (Utf8.encode "." ++ (Utf8.encode joint.after ++ later))) =
        Utf8.encode first ++ Utf8.encode (Joint.texts (front ++ joint :: back)) := by
    have ofJoints := Joint.encode_texts_cons joint back []
    rw [List.append_nil, tight, Utf8.encode_empty, List.nil_append] at ofJoints
    rw [Joint.encode_texts_append, ofJoints]
    rfl
  have letter : later.head?.any Byte.isSegment = true := by
    rcases List.exists_cons_of_ne_nil ofJoint.segment.notEmpty with ⟨byte, _, encoded⟩
    have isLetter := ofJoint.segment.accepted byte (by simp [encoded])
    simp [later, encoded, isLetter]
  have noDot : Grammar.segment.read later = none :=
    read_mark_bind_eq_none (stops_of_any_head? letter (by grind [Byte.isSegment, Byte.isDigit,
      Byte.isLetter]))
  have noSeparator : Stops Byte.isSeparator later :=
    stops_of_any_head? letter (by grind [Byte.isSegment, Byte.isDigit, Byte.isLetter,
      Byte.isSeparator])
  rw [behind] at segments
  rw [bytes] at name
  have ofName : SpellsDottedName (joinedName first front ++ ".") _ later :=
    ⟨head :: others, .intro name segments noDot, same.symm⟩
  exact ⟨_, later, read_namespaceSource isSegment ofName (.absent noSeparator), dotted⟩

/-- Between joints, no namespace can be read whose scope does not begin with a dot. -/
theorem scope_ne_of_dotted (dotted : Dotted bytes) {scope name : String}
    (found : (Grammar.declaration Grammar.maxNesting).read bytes =
      some (⟨.namespaceName, scope, name⟩, rest)) : scope ≠ "java" := by
  rintro rfl
  cases Grammar.read_declaration_iff.1 found with
  | namespaceName keyword ofScope ofName separator =>
      rcases keyword with ⟨isName, tail, rfl, stops, rfl⟩
      rcases ofScope with ⟨-, behind, scope, -, -⟩
      have letters : ∀ byte ∈ Utf8.encode "namespace", Byte.isSegment byte = true := by
        decide +kernel
      have dot := dotted.head?_of_word isName.notEmpty letters stops
      rw [scope] at dot
      exact absurd (dot 0x6A rfl) (by decide)

theorem not_mem_of_dotted (dotted : Dotted bytes) {declarations : List Declaration}
    (declares : Document.Declares bytes declarations) (name : String) :
    ⟨.namespaceName, "java", name⟩ ∉ declarations := by
  unfold Document.Declares at declares
  generalize ([] : List UInt8) = rest at declares
  induction declares with
  | nil => exact List.not_mem_nil
  | cons found _ ih =>
      intro mem
      rcases List.mem_cons.1 mem with rfl | later
      · exact scope_ne_of_dotted dotted found rfl
      · exact ih (Dotted.kept.read (Grammar.wellFormed_declaration _) dotted found) later

/-- A name with plain dots ends with a segment. -/
theorem getLast?_joinedName (isSegment : IsWord Byte.isSegment first)
    (wellFormed : ∀ joint ∈ joints, joint.WellFormed) :
    ∀ byte ∈ (Utf8.encode (joinedName first joints)).getLast?, Byte.isSegment byte = true := by
  induction joints generalizing first with
  | nil =>
      intro byte mem
      rw [joinedName, List.map_nil, String.intercalate_singleton] at mem
      exact isSegment.accepted byte (List.mem_of_getLast? mem)
  | cons joint others ih =>
      rcases List.forall_mem_cons.1 wellFormed with ⟨ofJoint, ofOthers⟩
      have later := ih ofJoint.segment ofOthers
      have notEmpty : Utf8.encode (joinedName joint.segment others) ≠ [] := by
        rw [joinedName, encode_intercalate_cons]
        exact List.append_ne_nil_of_left_ne_nil ofJoint.segment.notEmpty _
      have parts : joinedName first (joint :: others) =
          first ++ "." ++ joinedName joint.segment others := String.intercalate_cons_cons
      rw [parts, Utf8.encode_append, List.getLast?_append_of_ne_nil _ notEmpty]
      exact later

theorem joinedName_ne_append_dot (isSegment : IsWord Byte.isSegment first)
    (wellFormed : ∀ joint ∈ joints, joint.WellFormed) (name : String) :
    joinedName first joints ≠ name ++ "." := by
  intro same
  have last := getLast?_joinedName isSegment wellFormed Byte.dot
  rw [same, Utf8.encode_append] at last
  exact absurd (last List.getLast?_concat) (by decide)

namespace Document

/--
Gaps around the dots of a name do not matter exactly if no dot has a gap behind it only: then the
source declares one namespace, with plain dots in its name.
-/
theorem parse_namespace_iff (isSegment : IsWord Byte.isSegment first)
    (wellFormed : ∀ joint ∈ joints, joint.WellFormed) :
    parse (namespaceSource first joints) =
        .ok (ofList [⟨.namespaceName, "java", joinedName first joints⟩]) ↔
      ∀ joint ∈ joints, joint.Balanced := by
  have settled : Gap.rest (Utf8.encode (namespaceSource first joints)) =
      Utf8.encode (namespaceSource first joints) := by
    rcases spells_namespaceSource isSegment joints with ⟨_, ⟨isName, tail, bytes, -, -⟩, -⟩
    rw [bytes, isName.rest_append fun _ => Byte.isScope_of_isIdentifier]
  rw [parse_eq_ok_iff, settled]
  constructor
  · rintro ⟨declarations, declares, same⟩
    by_contra unbalanced
    rcases read_unbalanced isSegment wellFormed unbalanced with ⟨name, later, read, dotted⟩
    have mem : ⟨.namespaceName, "java", joinedName first joints⟩ ∈ declarations := by
      apply mem_of_mem_declarations
      rw [← same]
      exact List.mem_singleton.2 rfl
    generalize Utf8.encode (namespaceSource first joints) = bytes at declares read
    cases declares with
    | nil => cases mem
    | cons found others =>
        rw [read] at found
        cases found
        rcases List.mem_cons.1 mem with isFirst | isOther
        · have named : joinedName first joints = name ++ "." := by simpa using isFirst
          exact joinedName_ne_append_dot isSegment wellFormed name named
        · exact not_mem_of_dotted dotted others _ isOther
  · intro balanced
    exact ⟨_, declares_namespaceSource isSegment wellFormed balanced, rfl⟩

/-- Gaps on both sides of a dot, in front of it only, and on neither side. -/
theorem parse_namespace_iff_gaps :
    parse "namespace java a .\nb/* c */.c._9" =
      .ok (ofList [⟨.namespaceName, "java", "a.b.c._9"⟩]) := by
  have blank : Gap.Filler (Utf8.encode " ") := .space rfl .nil
  have lineFeed : Gap.Filler (Utf8.encode "\n") := .space rfl .nil
  have comment : Gap.Filler (Utf8.encode "/* c */") :=
    @Gap.Filler.block (Utf8.encode " c ") [] (by decide +kernel) .nil
  have isSegment : ∀ segment ∈ ["a", "b", "c", "_9"], IsWord Byte.isSegment segment := by
    intro segment mem
    constructor
    · revert segment
      decide +kernel
    · revert segment
      decide +kernel
  have wellFormed : ∀ joint ∈ [⟨" ", "\n", "b"⟩, ⟨"/* c */", "", "c"⟩, ⟨"", "", "_9"⟩],
      Joint.WellFormed joint := by
    intro joint mem
    simp only [List.mem_cons, List.not_mem_nil, or_false] at mem
    rcases mem with rfl | rfl | rfl
    · exact ⟨blank, lineFeed, isSegment "b" (by simp)⟩
    · exact ⟨comment, .nil, isSegment "c" (by simp)⟩
    · exact ⟨.nil, .nil, isSegment "_9" (by simp)⟩
  refine (parse_namespace_iff (isSegment "a" (by simp)) wellFormed).2 ?_
  simp [Joint.Balanced]

/-- A gap behind a dot is not like other gaps: without one in front, the name ends there. -/
theorem exists_gap_behind_dot :
    ∃ first joints, IsWord Byte.isSegment first ∧ (∀ joint ∈ joints, Joint.WellFormed joint) ∧
      parse (namespaceSource first joints) ≠
        .ok (ofList [⟨.namespaceName, "java", joinedName first joints⟩]) := by
  have blank : Gap.Filler (Utf8.encode " ") := .space rfl .nil
  have first : IsWord Byte.isSegment "a" := ⟨by decide, by decide +kernel⟩
  have second : IsWord Byte.isSegment "b" := ⟨by decide, by decide +kernel⟩
  refine ⟨"a", [⟨"", " ", "b"⟩], first, by simpa using ⟨.nil, blank, second⟩, fun parsed => ?_⟩
  have failed : (parse "namespace java a. b").toOption = none := by decide +kernel
  have same : namespaceSource "a" [⟨"", " ", "b"⟩] = "namespace java a. b" := by decide +kernel
  rw [same] at parsed
  rw [parsed] at failed
  cases failed

end Document

end ThriftIdl
