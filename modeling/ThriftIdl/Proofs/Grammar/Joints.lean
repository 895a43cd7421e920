import ThriftIdl.Proofs.Grammar.Declarations
import ThriftIdl.Proofs.Grammar.Related
import ThriftIdl.Proofs.Printing.Words
import ThriftIdl.Proofs.Text.Boundary

/-!
# Joints of dotted names

A joint is what separates two segments of a name: a dot with gaps around it. The dot may be a byte of
an identifier or a token of its own, and the name is the same either way. Right behind a segment it
belongs to the identifier of that segment, together with whatever follows it at once. Behind a gap it
is a token, and a gap may follow it.

Whatever is read where segments and joints stand, the reader comes to a place where they go on.
-/

namespace ThriftIdl

open Rule

/-- Whether a byte may occur in a segment: a letter, a digit or an underscore. -/
def Byte.isSegment (byte : UInt8) : Bool := isDigit byte || isLetter byte || byte == underscore

theorem Byte.isIdentifier_of_isSegment {byte : UInt8} (letter : isSegment byte = true) :
    isIdentifier byte = true := by
  grind [isSegment, isIdentifier]

theorem IsWord.isName {text : String} (isSegment : IsWord Byte.isSegment text) : IsName text :=
  ⟨isSegment.notEmpty, fun byte mem =>
    Byte.isIdentifier_of_isSegment (isSegment.accepted byte mem)⟩

/-- A dot, the gaps on both sides of it, and the segment behind it. -/
structure Joint where
  before : String
  after : String
  segment : String

namespace Joint

/-- The text of a joint. -/
def text (joint : Joint) : String := joint.before ++ "." ++ joint.after ++ joint.segment

/-- The text of some joints, one behind the other. -/
def texts : List Joint → String
  | [] => ""
  | joint :: others => joint.text ++ texts others

/-- Whether the gaps of a joint are gaps, and its segment is one. -/
structure WellFormed (joint : Joint) : Prop where
  before : Gap.Filler (Utf8.encode joint.before)
  after : Gap.Filler (Utf8.encode joint.after)
  segment : IsWord Byte.isSegment joint.segment

/-- Whether there is a gap in front of the dot if there is one behind it. -/
def Balanced (joint : Joint) : Prop := joint.before = "" → joint.after = ""

theorem encode_texts_cons (joint : Joint) (others : List Joint) (tail : List UInt8) :
    Utf8.encode (texts (joint :: others)) ++ tail = Utf8.encode joint.before ++
      Byte.dot :: (Utf8.encode joint.after ++
        (Utf8.encode joint.segment ++ (Utf8.encode (texts others) ++ tail))) := by
  simp only [texts, text, Utf8.encode_append, List.append_assoc]
  rfl

theorem encode_texts_append (front back : List Joint) :
    Utf8.encode (texts (front ++ back)) =
      Utf8.encode (texts front) ++ Utf8.encode (texts back) := by
  induction front with
  | nil => rw [texts, Utf8.encode_empty]; rfl
  | cons joint others ih =>
      rw [List.cons_append, texts, texts, Utf8.encode_append, Utf8.encode_append, ih,
        List.append_assoc]

end Joint

theorem encode_ne_nil {text : String} (notEmpty : text ≠ "") : Utf8.encode text ≠ [] := by
  rwa [ne_eq, Utf8.encode_eq_nil_iff, String.toList_eq_nil_iff]

variable {joints : List Joint} {word ending : String} {bytes tail rest : List UInt8}

/-! ### Names -/

/--
Segments that follow a name are read with it, whether their dots belong to identifiers or not. The
last identifier may go on with further bytes.
-/
theorem exists_spellsReference (wellFormed : ∀ joint ∈ joints, joint.WellFormed)
    (balanced : ∀ joint ∈ joints, joint.Balanced) (isName : IsName word)
    (letters : ∀ byte ∈ Utf8.encode ending, Byte.isIdentifier byte = true)
    (stops : Stops Byte.isIdentifier tail) :
    ∃ head others middle,
      SpellsName head (Utf8.encode word ++ (Utf8.encode (Joint.texts joints) ++
        (Utf8.encode ending ++ tail))) middle ∧
      Repeats SpellsSegment middle others (Gap.rest tail) ∧
      ".".intercalate (head :: others) =
        ".".intercalate (word :: joints.map Joint.segment) ++ ending := by
  induction joints generalizing word with
  | nil =>
      have longer : IsName (word ++ ending) := by
        constructor
        · rw [Utf8.encode_append]
          exact List.append_ne_nil_of_left_ne_nil isName.notEmpty _
        · rw [Utf8.encode_append, List.forall_mem_append]
          exact ⟨isName.accepted, letters⟩
      refine ⟨word ++ ending, [], _, ⟨longer, tail, ?_, stops, rfl⟩, .nil _, ?_⟩
      · simp [Joint.texts, Utf8.encode_empty, Utf8.encode_append]
      · simp
  | cons joint later ih =>
      rcases List.forall_mem_cons.1 wellFormed with ⟨jointWellFormed, laterWellFormed⟩
      rcases List.forall_mem_cons.1 balanced with ⟨jointBalanced, laterBalanced⟩
      have segment : IsName joint.segment := jointWellFormed.segment.isName
      rw [Joint.encode_texts_cons]
      by_cases tight : joint.before = ""
      · -- the dot and the segment behind it go on with the same identifier
        have longer : IsName (word ++ "." ++ joint.segment) := by
          have names : ∀ part ∈ [word, joint.segment], IsName part := by simp [isName, segment]
          have joined := isName_intercalate names (List.cons_ne_nil _ _)
          rwa [String.intercalate_cons_cons, String.intercalate_singleton] at joined
        rcases ih laterWellFormed laterBalanced longer with ⟨head, others, middle, name, rest, same⟩
        refine ⟨head, others, middle, ?_, rest, ?_⟩
        · rw [Utf8.encode_append, Utf8.encode_append, List.append_assoc, List.append_assoc] at name
          rw [tight, jointBalanced tight, Utf8.encode_empty]
          exact name
        · rw [same, String.intercalate_cons_append, List.map_cons, String.intercalate_cons_cons]
      · -- the dot is a token, and another identifier begins behind it
        rcases ih laterWellFormed laterBalanced segment with ⟨head, others, middle, name, rest, same⟩
        generalize further : Utf8.encode joint.segment ++ _ = behind at name ⊢
        have settled : Gap.rest behind = behind := by
          rw [← further]
          exact segment.rest_append (fun _ => Byte.isScope_of_isIdentifier) _
        have behindWord : Stops Byte.isIdentifier (Utf8.encode joint.before ++
            Byte.dot :: (Utf8.encode joint.after ++ behind)) :=
          (stops_of_filler jointWellFormed.before (encode_ne_nil tight) _).mono
            fun _ => Byte.isScope_of_isIdentifier
        have dot : Gap.rest (Utf8.encode joint.before ++
            Byte.dot :: (Utf8.encode joint.after ++ behind)) =
              Byte.dot :: (Utf8.encode joint.after ++ behind) := by
          rw [Gap.rest_append_of_filler jointWellFormed.before, Gap.rest_barrier rfl]
        have behindDot : Gap.rest (Utf8.encode joint.after ++ behind) = behind := by
          rw [Gap.rest_append_of_filler jointWellFormed.after, settled]
        refine ⟨word, head :: others, _, ⟨isName, _, rfl, behindWord, rfl⟩, ?_, ?_⟩
        · rw [dot]
          exact .cons ⟨behind, ⟨_, rfl, behindDot.symm⟩, name⟩ rest
        · rw [String.intercalate_cons_cons, same, List.map_cons, String.intercalate_cons_cons,
            String.append_assoc, String.append_assoc, String.append_assoc]

/-! ### Places between joints -/

/--
Whether bytes are letters of names and gaps, with a dot on at least one side of each gap, and no gap
in front.
-/
inductive Dotted : List UInt8 → Prop where
  | nil : Dotted []
  | letter {byte : UInt8} {tail : List UInt8} (letter : Byte.isIdentifier byte = true)
      (dotted : Dotted tail) : Dotted (byte :: tail)
  | before {byte : UInt8} {gap tail : List UInt8} (letter : Byte.isIdentifier byte = true)
      (filler : Gap.Filler gap) (notEmpty : gap ≠ []) (dotted : Dotted (Byte.dot :: tail)) :
      Dotted (byte :: (gap ++ Byte.dot :: tail))
  | after {gap tail : List UInt8} (filler : Gap.Filler gap) (notEmpty : gap ≠ [])
      (dotted : Dotted tail) : Dotted (Byte.dot :: (gap ++ tail))

namespace Dotted

theorem rest_eq (dotted : Dotted bytes) : Gap.rest bytes = bytes := by
  have barrier : ∀ byte, Byte.isIdentifier byte = true → Gap.isBarrier byte = true := fun _ letter =>
    Byte.isBarrier_of_isScope (Byte.isScope_of_isIdentifier letter)
  cases dotted with
  | nil => rfl
  | letter letter _ => exact Gap.rest_barrier (barrier _ letter) _
  | before letter _ _ _ => exact Gap.rest_barrier (barrier _ letter) _
  | after _ _ _ => exact Gap.rest_barrier rfl _

/-- Every byte is a letter of a name, and there is a place between joints behind it and its gap. -/
theorem behind {byte : UInt8} (dotted : Dotted (byte :: tail)) :
    Byte.isIdentifier byte = true ∧ Dotted (Gap.rest tail) ∧
      (Dotted tail ∨ Stops Byte.isScope tail ∧
        (byte = Byte.dot ∨ (Gap.rest tail).head? = some Byte.dot)) := by
  cases dotted with
  | letter letter dotted =>
      rw [dotted.rest_eq]
      exact ⟨letter, dotted, .inl dotted⟩
  | before letter filler notEmpty dotted =>
      rw [Gap.rest_append_of_filler filler, dotted.rest_eq]
      exact ⟨letter, dotted, .inr ⟨stops_of_filler filler notEmpty _, .inr rfl⟩⟩
  | after filler notEmpty dotted =>
      rw [Gap.rest_append_of_filler filler, dotted.rest_eq]
      exact ⟨rfl, dotted, .inr ⟨stops_of_filler filler notEmpty _, .inl rfl⟩⟩

/-- The letters in front go on up to a gap, and behind each of them is a place between joints. -/
theorem letters (dotted : Dotted bytes) :
    Stops Byte.isScope (bytes.dropWhile Byte.isIdentifier) ∧
      ∀ count ≤ (bytes.takeWhile Byte.isIdentifier).length,
        Dotted (Gap.rest (bytes.drop count)) := by
  induction bytes with
  | nil =>
      refine ⟨rfl, fun count _ => ?_⟩
      rw [List.drop_nil]
      exact .nil
  | cons byte tail ih =>
      obtain ⟨letter, behind, further⟩ := dotted.behind
      rw [List.dropWhile_cons_of_pos letter, List.takeWhile_cons_of_pos letter]
      rcases further with dottedTail | ⟨stops, -⟩
      · rcases ih dottedTail with ⟨stops, each⟩
        refine ⟨stops, fun count le => ?_⟩
        cases count with
        | zero => rwa [List.drop_zero, dotted.rest_eq]
        | succ count => exact each count (Nat.le_of_succ_le_succ le)
      · have noLetter : tail.takeWhile Byte.isIdentifier = [] := by
          have stopsName := stops.mono fun _ => Byte.isScope_of_isIdentifier
          simpa using @Stops.takeWhile_append _ [] _ stopsName
        constructor
        · rw [← List.takeWhile_append_dropWhile (p := Byte.isIdentifier) (l := tail), noLetter]
            at stops
          exact stops
        · intro count le
          rw [noLetter] at le
          cases count with
          | zero => rwa [List.drop_zero, dotted.rest_eq]
          | succ count =>
              rw [Nat.le_zero.1 (Nat.le_of_succ_le_succ le)]
              exact behind

/-- A token that begins at a letter is made of letters, so it ends between joints again. -/
theorem read_token {α : Type} (terminal : Token α) (plain : terminal.isPlain = true)
    (dotted : Dotted bytes) {value : α} (found : terminal.read bytes = some (value, rest)) :
    Dotted rest := by
  rcases Token.read_eq_some_iff.1 found with ⟨length, recognized, rfl⟩
  have opens := (Token.recognize_spans plain recognized).head
  cases bytes with
  | nil => cases opens
  | cons byte tail =>
      have letter : Byte.isIdentifier byte = true := dotted.behind.1
      have unquoted : terminal.isQuoted = false := by
        have noQuote := Byte.isQuote_of_isIdentifier letter
        cases terminal <;> simp_all [Token.isQuoted, Token.opens]
      rcases dotted.letters with ⟨stops, each⟩
      have split := List.takeWhile_append_dropWhile (p := Byte.isIdentifier) (l := byte :: tail)
      have notEmpty : (byte :: tail).takeWhile Byte.isIdentifier ≠ [] := by simp [letter]
      have alone := Token.recognize_append plain unquoted notEmpty
        (stops.mono fun _ => Token.isScope_of_continues)
      rw [split, recognized] at alone
      exact each length (Token.recognize_spans plain alone.symm).fits

/-- Whatever is read between joints, the reader comes to a place between joints. -/
theorem kept : Kept Dotted where
  token terminal _ _ _ plain dotted found := dotted.read_token terminal plain found
  separator _ dotted := dotted.behind.2.1

/-- A word without dots has a dot behind it, or nothing. -/
theorem head?_of_word (dotted : Dotted (bytes ++ tail)) (notEmpty : bytes ≠ [])
    (letters : ∀ byte ∈ bytes, Byte.isSegment byte = true) (stops : Stops Byte.isIdentifier tail) :
    ∀ byte ∈ (Gap.rest tail).head?, byte = Byte.dot := by
  induction bytes with
  | nil => exact absurd rfl notEmpty
  | cons first others ih =>
      rcases List.forall_mem_cons.1 letters with ⟨isSegment, areSegments⟩
      rw [List.cons_append] at dotted
      obtain ⟨-, -, further⟩ := dotted.behind
      cases others with
      | nil =>
          rw [List.nil_append] at further
          rcases further with dottedTail | ⟨-, rfl | isDot⟩
          · cases tail with
            | nil => simp
            | cons byte later =>
                have letter := dottedTail.behind.1
                rw [stops_cons.1 stops] at letter
                cases letter
          · cases isSegment
          · intro byte mem
            rw [isDot] at mem
            exact (Option.some.inj mem).symm
      | cons second others =>
          rcases further with dottedTail | ⟨noLetter, -⟩
          · exact ih dottedTail (List.cons_ne_nil _ _) areSegments
          · have letter := Byte.isScope_of_isIdentifier
              (Byte.isIdentifier_of_isSegment (areSegments second (by simp)))
            rw [List.cons_append, stops_cons, letter] at noLetter
            cases noLetter

theorem append (dotted : Dotted tail) (letters : ∀ byte ∈ bytes, Byte.isIdentifier byte = true) :
    Dotted (bytes ++ tail) := by
  induction bytes with
  | nil => exact dotted
  | cons first others ih =>
      rcases List.forall_mem_cons.1 letters with ⟨letter, areLetters⟩
      exact .letter letter (ih areLetters)

/-- A gap may stand between a name and a dot. -/
theorem append_before (dotted : Dotted (Byte.dot :: tail)) {gap : List UInt8}
    (filler : Gap.Filler gap) (letters : ∀ byte ∈ bytes, Byte.isIdentifier byte = true)
    (notEmpty : bytes ≠ []) : Dotted (bytes ++ (gap ++ Byte.dot :: tail)) := by
  by_cases empty : gap = []
  · subst empty
    exact dotted.append letters
  · rcases List.eq_nil_or_concat bytes with rfl | ⟨front, last, rfl⟩
    · exact absurd rfl notEmpty
    · rw [List.concat_eq_append, List.forall_mem_append] at letters
      rw [List.concat_eq_append, List.append_assoc]
      exact (Dotted.before (letters.2 last (by simp)) filler empty dotted).append letters.1

/-- A gap may stand behind a dot. -/
theorem append_after (dotted : Dotted tail) {gap : List UInt8} (filler : Gap.Filler gap) :
    Dotted (Byte.dot :: (gap ++ tail)) := by
  by_cases empty : gap = []
  · subst empty
    exact .letter rfl dotted
  · exact .after filler empty dotted

end Dotted

/-- A name with joints behind it is made of letters and gaps beside dots. -/
theorem dotted_joints (wellFormed : ∀ joint ∈ joints, joint.WellFormed) (isName : IsName word) :
    Dotted (Utf8.encode word ++ (Utf8.encode (Joint.texts joints) ++ [])) := by
  induction joints generalizing word with
  | nil =>
      rw [Joint.texts, Utf8.encode_empty, List.nil_append]
      exact Dotted.nil.append isName.accepted
  | cons joint later ih =>
      rcases List.forall_mem_cons.1 wellFormed with ⟨jointWellFormed, laterWellFormed⟩
      have behind := ih laterWellFormed jointWellFormed.segment.isName
      rw [Joint.encode_texts_cons]
      exact (behind.append_after jointWellFormed.after).append_before jointWellFormed.before
        isName.accepted isName.notEmpty

end ThriftIdl
