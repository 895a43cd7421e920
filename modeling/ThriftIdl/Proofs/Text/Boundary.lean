import ThriftIdl.Proofs.Text.Utf8

/-!
# Boundaries between characters

The first byte of a character is no continuation byte, and all its other bytes are. So a place in a
text lies between two characters exactly if what stands behind it is a text again. In front of an
ASCII byte, behind one and at the end there is always such a place, and decoding from there loses
nothing.
-/

namespace ThriftIdl

namespace Utf8

/-- Which bytes of a character continue it. -/
theorem isContinuation_utf8EncodeChar {character : Char} {lead : UInt8} {extra : List UInt8}
    (encoded : String.utf8EncodeChar character = lead :: extra) :
    isContinuation lead = false ∧ ∀ byte ∈ extra, isContinuation byte = true := by
  have notContinuation : ∀ {number : Nat}, number < 256 → number < 0x80 ∨ 0xBF < number →
      isContinuation (UInt8.ofNat number) = false := by
    intro number small outside
    rw [Bool.eq_false_iff, ne_eq, isContinuation_ofNat small]
    omega
  have continuation : ∀ {code : Nat}, isContinuation (UInt8.ofNat (code % 64 + 128)) = true :=
    fun {code} => (isContinuation_ofNat (by omega)).2 (by omega)
  have valid : character.val.toNat.isValidChar := character.valid
  unfold Nat.isValidChar at valid
  unfold String.utf8EncodeChar at encoded
  generalize character.val.toNat = code at *
  simp only at encoded
  split_ifs at encoded
  · cases encoded
    exact ⟨notContinuation (by omega) (by omega), by simp⟩
  all_goals
    cases encoded
    refine ⟨notContinuation (by omega) (by omega), ?_⟩
    simp only [List.mem_cons, List.not_mem_nil, or_false, forall_eq_or_imp, forall_eq,
      continuation, and_self]

/-- Whether a place is a boundary depends on nothing in front of it. -/
theorem isBoundary_append (front back : List UInt8) (offset : Nat) :
    isBoundary (front ++ back) (front.length + offset) = isBoundary back offset := by
  unfold isBoundary
  rw [← List.drop_drop, List.drop_left, List.length_append]
  cases back.drop offset with
  | nil => simp [Bool.beq_eq_decide_eq]
  | cons byte rest => rfl

/-- A place between two characters divides the characters. -/
theorem exists_split_of_isBoundary {characters : List Char} {offset : Nat}
    (boundary : isBoundary (characters.flatMap String.utf8EncodeChar) offset = true) :
    ∃ front back, characters = front ++ back ∧
      (front.flatMap String.utf8EncodeChar).length = offset := by
  induction characters generalizing offset with
  | nil =>
      simp only [isBoundary, List.flatMap_nil, List.drop_nil, List.length_nil, beq_iff_eq]
        at boundary
      exact ⟨[], [], rfl, boundary.symm⟩
  | cons character rest ih =>
      obtain ⟨lead, extra, encoded⟩ : ∃ lead extra,
          String.utf8EncodeChar character = lead :: extra :=
        List.exists_cons_of_ne_nil String.utf8EncodeChar_ne_nil
      rw [List.flatMap_cons, encoded] at boundary
      by_cases inside : offset ≤ extra.length
      · -- only the first byte of the character can be behind a boundary
        cases offset with
        | zero => exact ⟨[], character :: rest, rfl, rfl⟩
        | succ count =>
            have behind : extra.drop count = extra[count] :: extra.drop (count + 1) :=
              List.drop_eq_getElem_cons (by omega)
            have continued : isContinuation extra[count] = true :=
              (isContinuation_utf8EncodeChar encoded).2 _ (List.getElem_mem _)
            rw [isBoundary, List.cons_append, List.drop_succ_cons,
              List.drop_append_of_le_length (by omega), behind] at boundary
            simp only [List.cons_append, continued, Bool.not_true, Bool.false_eq_true] at boundary
      · obtain ⟨later, rfl⟩ : ∃ later, offset = (lead :: extra).length + later :=
          ⟨offset - (extra.length + 1), by simp; omega⟩
        rw [isBoundary_append] at boundary
        rcases ih boundary with ⟨front, back, rfl, length⟩
        refine ⟨character :: front, back, rfl, ?_⟩
        rw [List.flatMap_cons, encoded, List.length_append, length]

/-- Whole characters stand on both sides of a boundary. -/
theorem exists_append_of_isBoundary {text : String} {offset : Nat}
    (boundary : isBoundary (encode text) offset = true) :
    ∃ front back, text = front ++ back ∧ (encode front).length = offset ∧
      encode back = (encode text).drop offset := by
  rcases exists_split_of_isBoundary boundary with ⟨front, back, whole, length⟩
  have split : text = String.ofList front ++ String.ofList back := by
    rw [← String.ofList_append, ← whole, String.ofList_toList]
  have frontLength : (encode (String.ofList front)).length = offset := by
    rw [encode, String.toList_ofList, length]
  refine ⟨String.ofList front, String.ofList back, split, frontLength, ?_⟩
  rw [split, encode_append, ← frontLength, List.drop_left]

theorem encode_eq_nil_iff {text : String} : encode text = [] ↔ text.toList = [] := by
  rw [← encode_empty, encode_injective.eq_iff, String.toList_eq_nil_iff]

theorem not_isContinuation_of_valid {byte : UInt8} {rest : List UInt8}
    (valid : Valid (byte :: rest)) : isContinuation byte = false := by
  rcases valid_iff.1 valid with ⟨characters, encoded⟩
  cases characters with
  | nil => cases encoded
  | cons character others =>
      obtain ⟨lead, extra, ofCharacter⟩ : ∃ lead extra,
          String.utf8EncodeChar character = lead :: extra :=
        List.exists_cons_of_ne_nil String.utf8EncodeChar_ne_nil
      rw [List.flatMap_cons, ofCharacter] at encoded
      cases encoded
      exact (isContinuation_utf8EncodeChar ofCharacter).1

/-- A place of a text is a boundary exactly if a text stands behind it. -/
theorem isBoundary_iff {bytes : List UInt8} (valid : Valid bytes) {offset : Nat} :
    isBoundary bytes offset = true ↔ offset ≤ bytes.length ∧ Valid (bytes.drop offset) := by
  constructor
  · intro boundary
    rcases valid with ⟨text, rfl⟩
    rcases exists_append_of_isBoundary boundary with ⟨front, back, whole, length, behind⟩
    refine ⟨?_, back, behind⟩
    rw [whole, encode_append, List.length_append]
    omega
  · rintro ⟨fits, validBehind⟩
    unfold isBoundary
    cases behind : bytes.drop offset with
    | nil =>
        have atEnd := List.drop_eq_nil_iff.1 behind
        exact beq_iff_eq.2 (Nat.le_antisymm fits atEnd)
    | cons byte rest =>
        rw [behind] at validBehind
        simp [not_isContinuation_of_valid validBehind]

theorem valid_singleton_of_ascii {byte : UInt8} (ascii : byte < 0x80) : Valid [byte] :=
  valid_of_ascii (by simpa using ascii)

/-- From an ASCII byte on, the rest of a text is a text. -/
theorem Valid.of_append_cons_ascii {front back : List UInt8} {byte : UInt8}
    (valid : Valid (front ++ byte :: back)) (ascii : byte < 0x80) : Valid (byte :: back) :=
  (valid_singleton_of_ascii ascii).append (Valid.of_append_cons valid ascii).2

/-- Nothing is lost when a text is decoded in spite of faults. -/
theorem decodeLossy_of_valid {bytes : List UInt8} (valid : Valid bytes) :
    decodeLossy bytes = (Utf8.text bytes).toList := by
  rcases valid with ⟨text, rfl⟩
  rw [text_encode]
  have lossless : ∀ characters : List Char,
      decodeLossy (characters.flatMap String.utf8EncodeChar) = characters := by
    intro characters
    induction characters with
    | nil => rw [List.flatMap_nil, decodeLossy]
    | cons character rest ih =>
        obtain ⟨lead, extra, encoded⟩ : ∃ lead extra,
            String.utf8EncodeChar character = lead :: extra :=
          List.exists_cons_of_ne_nil String.utf8EncodeChar_ne_nil
        rw [List.flatMap_cons, encoded, List.cons_append, decodeLossy,
          split_utf8EncodeChar character encoded]
        simp only [List.drop_left, ih]
  exact lossless text.toList

end Utf8

end ThriftIdl
