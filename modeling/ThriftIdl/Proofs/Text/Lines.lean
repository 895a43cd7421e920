import ThriftIdl.Proofs.Text.Utf8

/-!
# Texts and their lines

A text is inline if no line ending is in it, and it is made of lines if each of them ends with a line
feed. Both can be read off the bytes of the text, because in UTF-8 the bytes of line endings stand
for nothing else.
-/

namespace ThriftIdl

/-- Whether neither half of a line ending is in a text. -/
def Inline (text : String) : Prop := '\n' ∉ text.toList ∧ '\r' ∉ text.toList

instance (text : String) : Decidable (Inline text) :=
  inferInstanceAs (Decidable (_ ∧ _))

/-- Whether a text is made of that many lines, each with a line feed at its end. -/
structure MadeOfLines (count : Nat) (text : String) : Prop where
  lineFeeds : text.toList.count '\n' = count
  noReturn : '\r' ∉ text.toList
  ended : text.toList.getLast? = some '\n'

@[simp]
theorem inline_append {first second : String} :
    Inline (first ++ second) ↔ Inline first ∧ Inline second := by
  simp only [Inline, String.toList_append, List.mem_append]
  tauto

theorem Inline.count_eq_zero {text : String} (inline : Inline text) :
    text.toList.count '\n' = 0 :=
  List.count_eq_zero.2 inline.1

theorem toList_lineFeed : "\n".toList = ['\n'] := by decide

theorem madeOfLines_one_iff {line : String} : MadeOfLines 1 (line ++ "\n") ↔ Inline line := by
  constructor
  · rintro ⟨lineFeeds, noReturn, -⟩
    rw [String.toList_append, toList_lineFeed] at lineFeeds noReturn
    rw [List.count_append, List.count_singleton_self] at lineFeeds
    exact ⟨List.count_eq_zero.1 (by omega), fun mem => noReturn (List.mem_append_left _ mem)⟩
  · intro inline
    refine ⟨?_, ?_, ?_⟩ <;> rw [String.toList_append, toList_lineFeed]
    · rw [List.count_append, inline.count_eq_zero, List.count_singleton_self]
    · simp [inline.2]
    · simp

/-- In front of lines, a line is one if it is inline. -/
theorem madeOfLines_succ_iff {count : Nat} {line rest : String} (lines : MadeOfLines count rest) :
    MadeOfLines (count + 1) (line ++ "\n" ++ rest) ↔ Inline line := by
  constructor
  · rintro ⟨lineFeeds, noReturn, -⟩
    rw [String.toList_append, String.toList_append, toList_lineFeed] at lineFeeds noReturn
    rw [List.count_append, List.count_append, List.count_singleton_self, lines.lineFeeds]
      at lineFeeds
    refine ⟨List.count_eq_zero.1 (by omega), fun mem => noReturn ?_⟩
    exact List.mem_append_left _ (List.mem_append_left _ mem)
  · intro inline
    refine ⟨?_, ?_, ?_⟩ <;> rw [String.toList_append, String.toList_append, toList_lineFeed]
    · rw [List.count_append, List.count_append, inline.count_eq_zero, List.count_singleton_self,
        lines.lineFeeds]
      omega
    · simp [inline.2, lines.noReturn]
    · rw [List.getLast?_append, lines.ended, Option.some_or]

/-- The bytes of a text tell whether it is inline. -/
theorem inline_of_bytes {text : String}
    (noLineEnd : ∀ byte ∈ Utf8.encode text, Byte.isLineEnd byte = false) : Inline text := by
  have absent : ∀ character byte, String.utf8EncodeChar character = [byte] →
      Byte.isLineEnd byte = true → character ∉ text.toList := by
    intro character byte encoded lineEnd mem
    have inText : byte ∈ Utf8.encode text :=
      List.mem_flatMap.2 ⟨character, mem, by simp [encoded]⟩
    rw [noLineEnd byte inText] at lineEnd
    cases lineEnd
  exact ⟨absent '\n' Byte.lineFeed (by decide) rfl, absent '\r' Byte.carriageReturn (by decide) rfl⟩

namespace Utf8

/-- An ASCII byte is a character of its own, even among bytes that are no text. -/
theorem split_ascii {byte : UInt8} (ascii : byte < 0x80) (rest : List UInt8) :
    split byte rest = .character (Byte.toChar byte) 0 := by
  simp only [split, extraOfLead, if_pos ascii, Byte.toChar]

/-- Bytes are shown with an ASCII character at the head exactly if its byte is at the head. -/
theorem head?_decodeLossy_eq_iff {byte : UInt8} (ascii : byte < 0x80) (bytes : List UInt8) :
    (decodeLossy bytes).head? = some (Byte.toChar byte) ↔ bytes.head? = some byte := by
  have upper : byte.toNat < 128 := UInt8.lt_iff_toNat_lt.1 ascii
  have code : (Byte.toChar byte).toNat = byte.toNat := by
    rw [Byte.toChar, Char.toNat_ofNat, if_pos (by unfold Nat.isValidChar; omega)]
  cases bytes with
  | nil => simp [decodeLossy]
  | cons lead rest =>
      rw [decodeLossy, List.head?_cons, Option.some_inj]
      constructor
      · intro shown
        have encoded : String.utf8EncodeChar (Byte.toChar byte) = [byte] := by
          simp [String.utf8EncodeChar, code, Nat.le_of_lt_succ upper]
        -- a fault is shown as a character that is not ASCII
        have noFault : '\uFFFD' ≠ Byte.toChar byte := by
          intro same
          have number := congrArg Char.toNat same
          rw [code] at number
          have large : ('\uFFFD').toNat = 0xFFFD := by decide
          omega
        cases start : split lead rest with
        | character character extra =>
            simp only [start, List.head?_cons, Option.some_inj] at shown
            have whole := utf8EncodeChar_of_split start
            rw [shown, encoded] at whole
            exact (List.cons.inj whole).1.symm
        | invalid extra => simp [start, noFault] at shown
        | incomplete => simp [start, noFault] at shown
      · rintro rfl
        rw [split_ascii ascii]
        rfl

end Utf8

end ThriftIdl
