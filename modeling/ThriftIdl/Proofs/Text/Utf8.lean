import Mathlib
import ThriftIdl.Text.Utf8

/-!
# Laws of UTF-8

Decoding undoes encoding, and an encoded text may be cut before and after each of its ASCII bytes.
Every byte with a meaning in the grammar is ASCII, so these two laws are all that the reader needs
of the encoding: whatever it cuts out of a source is the encoding of a text again, and decoding
gives that text.
-/

namespace ThriftIdl

namespace Utf8

theorem extraOfLead_ofNat {number : Nat} (small : number < 256) :
    extraOfLead (UInt8.ofNat number) =
      if number < 0x80 then some 0 else if number < 0xC2 then none
      else if number < 0xE0 then some 1 else if number < 0xF0 then some 2
      else if number < 0xF5 then some 3 else none := by
  simp only [extraOfLead, UInt8.lt_iff_toNat_lt, UInt8.toNat_ofNat', Nat.mod_eq_of_lt small]
  rfl

theorem isContinuation_ofNat {number : Nat} (small : number < 256) :
    isContinuation (UInt8.ofNat number) = true ↔ 0x80 ≤ number ∧ number ≤ 0xBF := by
  simp [isContinuation, UInt8.le_iff_toNat_le, Nat.mod_eq_of_lt small]

theorem payload_ofNat {number : Nat} (small : number < 256) :
    payload (UInt8.ofNat number) = number % 64 := by
  simp [payload, Nat.mod_eq_of_lt small]

/-- The range of the second byte in terms of the numbers of both bytes. -/
theorem inSecondRange_ofNat (lead second : Nat) (leadSmall : lead < 256)
    (secondSmall : second < 256) :
    ((secondRange (UInt8.ofNat lead)).1 ≤ UInt8.ofNat second ∧
        UInt8.ofNat second ≤ (secondRange (UInt8.ofNat lead)).2) ↔
      if lead = 0xE0 then 0xA0 ≤ second ∧ second ≤ 0xBF
      else if lead = 0xED then 0x80 ≤ second ∧ second ≤ 0x9F
      else if lead = 0xF0 then 0x90 ≤ second ∧ second ≤ 0xBF
      else if lead = 0xF4 then 0x80 ≤ second ∧ second ≤ 0x8F
      else 0x80 ≤ second ∧ second ≤ 0xBF := by
  have range : secondRange (UInt8.ofNat lead) =
      if lead = 0xE0 then (0xA0, 0xBF) else if lead = 0xED then (0x80, 0x9F)
      else if lead = 0xF0 then (0x90, 0xBF) else if lead = 0xF4 then (0x80, 0x8F)
      else (0x80, 0xBF) := by
    simp only [secondRange, ← UInt8.toNat_inj, UInt8.toNat_ofNat', Nat.mod_eq_of_lt leadSmall]
    rfl
  rw [range]
  repeat' split
  all_goals
    simp only [UInt8.le_iff_toNat_le, UInt8.toNat_ofNat', Nat.mod_eq_of_lt secondSmall]
    rfl

theorem split_oneByte {code : Nat} (upper : code ≤ 0x7F) (rest : List UInt8) :
    split (UInt8.ofNat code) rest = .character (Char.ofNat code) 0 := by
  have extra : extraOfLead (UInt8.ofNat code) = some 0 := by
    rw [extraOfLead_ofNat (by omega), if_pos (by omega)]
  simp only [split, extra, UInt8.toNat_ofNat']
  rw [Nat.mod_eq_of_lt (by omega)]

theorem split_twoBytes {code : Nat} (lower : 0x7F < code) (upper : code ≤ 0x7FF)
    (rest : List UInt8) :
    split (UInt8.ofNat (code / 64 % 32 + 192)) (UInt8.ofNat (code % 64 + 128) :: rest) =
      .character (Char.ofNat code) 1 := by
  have extra : extraOfLead (UInt8.ofNat (code / 64 % 32 + 192)) = some 1 := by
    rw [extraOfLead_ofNat (by omega), if_neg (by omega), if_neg (by omega), if_pos (by omega)]
  have second := (inSecondRange_ofNat (code / 64 % 32 + 192) (code % 64 + 128) (by omega)
    (by omega)).2 (by split_ifs <;> omega)
  simp only [split, extra, second, decide_true, Bool.and_self, if_true, UInt8.toNat_ofNat']
  rw [payload_ofNat (by omega)]
  congr 2
  omega

/-- The surrogates, which no text contains, are the one gap in the range of three bytes. -/
theorem split_threeBytes {code : Nat} (lower : 0x7FF < code) (upper : code ≤ 0xFFFF)
    (scalar : code < 0xD800 ∨ 0xDFFF < code) (rest : List UInt8) :
    split (UInt8.ofNat (code / 4096 % 16 + 224))
        (UInt8.ofNat (code / 64 % 64 + 128) :: UInt8.ofNat (code % 64 + 128) :: rest) =
      .character (Char.ofNat code) 2 := by
  have extra : extraOfLead (UInt8.ofNat (code / 4096 % 16 + 224)) = some 2 := by
    rw [extraOfLead_ofNat (by omega), if_neg (by omega), if_neg (by omega), if_neg (by omega),
      if_pos (by omega)]
  have second := (inSecondRange_ofNat (code / 4096 % 16 + 224) (code / 64 % 64 + 128) (by omega)
    (by omega)).2 (by split_ifs <;> omega)
  have third : isContinuation (UInt8.ofNat (code % 64 + 128)) = true :=
    (isContinuation_ofNat (by omega)).2 (by omega)
  simp only [split, extra, second, third, decide_true, Bool.and_self, if_true,
    UInt8.toNat_ofNat']
  rw [payload_ofNat (by omega), payload_ofNat (by omega)]
  congr 2
  omega

theorem split_fourBytes {code : Nat} (lower : 0xFFFF < code) (upper : code < 0x110000)
    (rest : List UInt8) :
    split (UInt8.ofNat (code / 262144 % 8 + 240))
        (UInt8.ofNat (code / 4096 % 64 + 128) :: UInt8.ofNat (code / 64 % 64 + 128) ::
          UInt8.ofNat (code % 64 + 128) :: rest) =
      .character (Char.ofNat code) 3 := by
  have extra : extraOfLead (UInt8.ofNat (code / 262144 % 8 + 240)) = some 3 := by
    rw [extraOfLead_ofNat (by omega), if_neg (by omega), if_neg (by omega), if_neg (by omega),
      if_neg (by omega), if_pos (by omega)]
  have second := (inSecondRange_ofNat (code / 262144 % 8 + 240) (code / 4096 % 64 + 128)
    (by omega) (by omega)).2 (by split_ifs <;> omega)
  have third : isContinuation (UInt8.ofNat (code / 64 % 64 + 128)) = true :=
    (isContinuation_ofNat (by omega)).2 (by omega)
  have fourth : isContinuation (UInt8.ofNat (code % 64 + 128)) = true :=
    (isContinuation_ofNat (by omega)).2 (by omega)
  simp only [split, extra, second, third, fourth, decide_true, Bool.and_self, if_true,
    UInt8.toNat_ofNat']
  rw [payload_ofNat (by omega), payload_ofNat (by omega), payload_ofNat (by omega)]
  congr 2
  omega

/-- The bytes of a character begin with that character. -/
theorem split_utf8EncodeChar (character : Char) {lead : UInt8} {extra : List UInt8}
    (encoded : String.utf8EncodeChar character = lead :: extra) (rest : List UInt8) :
    split lead (extra ++ rest) = .character character extra.length := by
  have valid : character.val.toNat.isValidChar := character.valid
  have same : Char.ofNat character.val.toNat = character := Char.ofNat_toNat character
  unfold Nat.isValidChar at valid
  unfold String.utf8EncodeChar at encoded
  generalize character.val.toNat = code at *
  subst same
  simp only at encoded
  split at encoded
  · cases encoded
    exact split_oneByte (by omega) rest
  · split at encoded
    · cases encoded
      exact split_twoBytes (by omega) (by omega) rest
    · split at encoded
      · cases encoded
        exact split_threeBytes (by omega) (by omega) (by omega) rest
      · cases encoded
        exact split_fourBytes (by omega) (by omega) rest

theorem decodeFrom_utf8EncodeChar_append (index : Nat) (character : Char) (rest : List UInt8) :
    decodeFrom index (String.utf8EncodeChar character ++ rest) =
      (decodeFrom (index + (String.utf8EncodeChar character).length) rest).map
        (character :: ·) := by
  obtain ⟨lead, extra, encoded⟩ : ∃ lead extra,
      String.utf8EncodeChar character = lead :: extra :=
    List.exists_cons_of_ne_nil String.utf8EncodeChar_ne_nil
  rw [encoded, List.cons_append, decodeFrom, split_utf8EncodeChar character encoded]
  simp [Nat.add_assoc]

theorem decodeFrom_flatMap_utf8EncodeChar (index : Nat) (characters : List Char) :
    decodeFrom index (characters.flatMap String.utf8EncodeChar) = .ok characters := by
  induction characters generalizing index with
  | nil => simp [decodeFrom]
  | cons character rest ih =>
      rw [List.flatMap_cons, decodeFrom_utf8EncodeChar_append, ih]
      rfl

/-- Decoding undoes encoding. -/
theorem decode_encode (text : String) : decode (encode text) = .ok text.toList :=
  decodeFrom_flatMap_utf8EncodeChar 0 text.toList

theorem text_encode (text : String) : Utf8.text (encode text) = text := by
  simp [Utf8.text, decode_encode]

theorem encode_injective : Function.Injective encode :=
  Function.LeftInverse.injective text_encode

@[simp]
theorem encode_empty : encode "" = [] := rfl

@[simp]
theorem encode_append (first second : String) :
    encode (first ++ second) = encode first ++ encode second := by
  simp [encode]

/-- Bytes that are the encoding of a text. -/
def Valid (bytes : List UInt8) : Prop := ∃ text, encode text = bytes

theorem valid_encode (text : String) : Valid (encode text) := ⟨text, rfl⟩

theorem encode_text {bytes : List UInt8} (valid : Valid bytes) :
    encode (Utf8.text bytes) = bytes := by
  rcases valid with ⟨text, rfl⟩
  rw [text_encode]

theorem valid_iff {bytes : List UInt8} :
    Valid bytes ↔ ∃ characters : List Char, characters.flatMap String.utf8EncodeChar = bytes := by
  constructor
  · rintro ⟨text, rfl⟩
    exact ⟨text.toList, rfl⟩
  · rintro ⟨characters, rfl⟩
    exact ⟨String.ofList characters, by simp [encode]⟩

theorem valid_nil : Valid [] := ⟨"", rfl⟩

theorem Valid.append {first second : List UInt8} (validFirst : Valid first)
    (validSecond : Valid second) : Valid (first ++ second) := by
  rcases validFirst with ⟨text, rfl⟩
  rcases validSecond with ⟨more, rfl⟩
  exact ⟨text ++ more, encode_append text more⟩

/-- A character with an ASCII byte in its encoding has no other bytes. -/
theorem utf8EncodeChar_of_mem_ascii {character : Char} {byte : UInt8}
    (mem : byte ∈ String.utf8EncodeChar character) (ascii : byte < 0x80) :
    String.utf8EncodeChar character = [byte] := by
  have notAscii : ∀ number, 128 ≤ number → number < 256 → ¬UInt8.ofNat number < 0x80 := by
    intro number lower upper
    rw [UInt8.lt_iff_toNat_lt, UInt8.toNat_ofNat', Nat.mod_eq_of_lt upper]
    exact Nat.not_lt.2 lower
  unfold String.utf8EncodeChar at mem ⊢
  generalize character.val.toNat = code at *
  simp only at mem ⊢
  split_ifs at mem ⊢
  · rw [List.mem_singleton.1 mem]
  all_goals
    simp only [List.mem_cons, List.not_mem_nil, or_false] at mem
    rcases mem with rfl | rfl | rfl | rfl <;>
      exact absurd ascii (notAscii _ (by omega) (by omega))

/-- Characters from the space on have no bytes below it. -/
theorem le_of_mem_utf8EncodeChar {character : Char} (printable : 0x20 ≤ character.toNat)
    {byte : UInt8} (mem : byte ∈ String.utf8EncodeChar character) : 0x20 ≤ byte := by
  change 0x20 ≤ character.val.toNat at printable
  unfold String.utf8EncodeChar at mem
  generalize character.val.toNat = code at *
  simp only at mem
  rw [UInt8.le_iff_toNat_le]
  change 32 ≤ byte.toNat
  split_ifs at mem
  all_goals
    simp only [List.mem_cons, List.not_mem_nil, or_false] at mem
    rcases mem with rfl | rfl | rfl | rfl <;> (rw [UInt8.toNat_ofNat']; omega)

/-- Valid bytes may be cut before and after an ASCII byte. -/
theorem Valid.of_append_cons {front back : List UInt8} {byte : UInt8}
    (valid : Valid (front ++ byte :: back)) (ascii : byte < 0x80) :
    Valid front ∧ Valid back := by
  rw [valid_iff] at valid
  rcases valid with ⟨characters, encoded⟩
  induction characters generalizing front with
  | nil => simp at encoded
  | cons character rest ih =>
      rw [List.flatMap_cons] at encoded
      rcases List.append_eq_append_iff.1 encoded with ⟨middle, rfl, tail⟩ | ⟨middle, head, tail⟩
      · -- the byte belongs to a later character
        have cut := ih tail
        refine ⟨Valid.append ?_ cut.1, cut.2⟩
        exact valid_iff.2 ⟨[character], by simp⟩
      · cases middle with
        | nil =>
            rw [List.append_nil] at head
            have cut := @ih [] (by simpa using tail.symm)
            exact ⟨valid_iff.2 ⟨[character], by simpa using head⟩, cut.2⟩
        | cons first others =>
            rw [List.cons_append, List.cons.injEq] at tail
            rcases tail with ⟨rfl, tail⟩
            have mem : byte ∈ String.utf8EncodeChar character := by simp [head]
            have single := utf8EncodeChar_of_mem_ascii mem ascii
            obtain ⟨rfl, rfl⟩ : front = [] ∧ others = [] := by
              simpa [single, List.singleton_eq_append_iff] using head
            exact ⟨valid_nil, valid_iff.2 ⟨rest, tail.symm⟩⟩

theorem Valid.tail {byte : UInt8} {rest : List UInt8} (valid : Valid (byte :: rest))
    (ascii : byte < 0x80) : Valid rest :=
  (Valid.of_append_cons (show Valid ([] ++ byte :: rest) from valid) ascii).2

/-- ASCII bytes in front of valid bytes may be taken away. -/
theorem Valid.of_ascii_append {front back : List UInt8} (valid : Valid (front ++ back))
    (ascii : ∀ byte ∈ front, byte < 0x80) : Valid back := by
  induction front with
  | nil => exact valid
  | cons byte rest ih =>
      exact ih (valid.tail (ascii byte (by simp))) fun other mem => ascii other (by simp [mem])

theorem valid_of_ascii {bytes : List UInt8} (ascii : ∀ byte ∈ bytes, byte < 0x80) :
    Valid bytes := by
  induction bytes with
  | nil => exact valid_nil
  | cons byte rest ih =>
      have single : Valid [byte] := by
        have upper : byte.toNat < 128 := UInt8.lt_iff_toNat_lt.1 (ascii byte (by simp))
        refine valid_iff.2 ⟨[Char.ofNat byte.toNat], ?_⟩
        have code : (Char.ofNat byte.toNat).toNat = byte.toNat := by
          rw [Char.toNat_ofNat, if_pos (by unfold Nat.isValidChar; omega)]
        simp [String.utf8EncodeChar, code, Nat.le_of_lt_succ upper]
      exact single.append (ih fun other mem => ascii other (by simp [mem]))

/-- A character is encoded according to the range of its number. -/
theorem utf8EncodeChar_ofNat {code : Nat} (valid : code.isValidChar) :
    String.utf8EncodeChar (Char.ofNat code) =
      if code ≤ 0x7F then [UInt8.ofNat code]
      else if code ≤ 0x7FF then
        [UInt8.ofNat (code / 64 % 32 + 192), UInt8.ofNat (code % 64 + 128)]
      else if code ≤ 0xFFFF then
        [UInt8.ofNat (code / 4096 % 16 + 224), UInt8.ofNat (code / 64 % 64 + 128),
          UInt8.ofNat (code % 64 + 128)]
      else
        [UInt8.ofNat (code / 262144 % 8 + 240), UInt8.ofNat (code / 4096 % 64 + 128),
          UInt8.ofNat (code / 64 % 64 + 128), UInt8.ofNat (code % 64 + 128)] := by
  have number : (Char.ofNat code).val.toNat = code := by
    change (Char.ofNat code).toNat = code
    rw [Char.toNat_ofNat, if_pos valid]
  unfold String.utf8EncodeChar
  rw [number]

section

variable {lead second third fourth : Nat}

theorem utf8EncodeChar_twoBytes (first : 0xC2 ≤ lead ∧ lead < 0xE0)
    (next : 0x80 ≤ second ∧ second ≤ 0xBF) :
    String.utf8EncodeChar (Char.ofNat (lead % 32 * 64 + second % 64)) =
      [UInt8.ofNat lead, UInt8.ofNat second] := by
  rw [utf8EncodeChar_ofNat (.inl (by omega)), if_neg (by omega), if_pos (by omega)]
  congr 2
  · omega
  · congr 1; omega

theorem utf8EncodeChar_threeBytes (first : 0xE0 ≤ lead ∧ lead < 0xF0)
    (next : 0x80 ≤ second ∧ second ≤ 0xBF) (notOverlong : lead = 0xE0 → 0xA0 ≤ second)
    (scalar : lead = 0xED → second ≤ 0x9F) (last : 0x80 ≤ third ∧ third ≤ 0xBF) :
    String.utf8EncodeChar
        (Char.ofNat (lead % 16 * 4096 + second % 64 * 64 + third % 64)) =
      [UInt8.ofNat lead, UInt8.ofNat second, UInt8.ofNat third] := by
  have valid : (lead % 16 * 4096 + second % 64 * 64 + third % 64).isValidChar := by
    unfold Nat.isValidChar
    omega
  rw [utf8EncodeChar_ofNat valid, if_neg (by omega), if_neg (by omega), if_pos (by omega)]
  congr 2
  · omega
  · congr 1; omega
  · congr 2; omega

theorem utf8EncodeChar_fourBytes (first : 0xF0 ≤ lead ∧ lead < 0xF5)
    (next : 0x80 ≤ second ∧ second ≤ 0xBF) (notOverlong : lead = 0xF0 → 0x90 ≤ second)
    (small : lead = 0xF4 → second ≤ 0x8F) (afterNext : 0x80 ≤ third ∧ third ≤ 0xBF)
    (last : 0x80 ≤ fourth ∧ fourth ≤ 0xBF) :
    String.utf8EncodeChar
        (Char.ofNat (lead % 8 * 262144 + second % 64 * 4096 + third % 64 * 64 + fourth % 64)) =
      [UInt8.ofNat lead, UInt8.ofNat second, UInt8.ofNat third, UInt8.ofNat fourth] := by
  rw [utf8EncodeChar_ofNat (.inr (by omega)), if_neg (by omega), if_neg (by omega),
    if_neg (by omega)]
  congr 2
  · omega
  · congr 1; omega
  · congr 2
    · omega
    · congr 1; omega

end

theorem exists_ofNat (byte : UInt8) : ∃ number < 256, byte = UInt8.ofNat number :=
  ⟨byte.toNat, byte.toNat_lt, by simp⟩

/-- Only where nothing is wrong there is a character. -/
theorem of_ite_invalid {condition : Prop} [Decidable condition] {start : Start} {count : Nat}
    {character : Char} {extra : Nat}
    (found : (if condition then start else .invalid count) = .character character extra) :
    condition ∧ start = .character character extra := by
  split_ifs at found with holds
  exact ⟨holds, found⟩

/-- What is taken for a character is the encoding of it. -/
theorem utf8EncodeChar_of_split {lead : UInt8} {rest : List UInt8} {character : Char}
    {extra : Nat} (found : split lead rest = .character character extra) :
    String.utf8EncodeChar character ++ rest.drop extra = lead :: rest := by
  obtain ⟨number, small, rfl⟩ := exists_ofNat lead
  have toNat : (UInt8.ofNat number).toNat = number := by simp [Nat.mod_eq_of_lt small]
  simp only [split, extraOfLead_ofNat small, Bool.and_eq_true, decide_eq_true_eq, toNat] at found
  split_ifs at found with oneByte notLead twoBytes threeBytes fourBytes
  · cases found
    rw [utf8EncodeChar_ofNat (.inl (by omega)), if_pos (by omega)]
    rfl
  · cases rest with
    | nil => cases found
    | cons second after =>
        obtain ⟨next, nextSmall, rfl⟩ := exists_ofNat second
        simp only [inSecondRange_ofNat _ _ small nextSmall, payload_ofNat nextSmall] at found
        obtain ⟨range, ⟨⟩⟩ := of_ite_invalid found
        rw [utf8EncodeChar_twoBytes (by omega) (by split_ifs at range <;> omega)]
        rfl
  · rcases rest with _ | ⟨second, _ | ⟨third, after⟩⟩
    · cases found
    · cases (of_ite_invalid found).2
    · obtain ⟨next, nextSmall, rfl⟩ := exists_ofNat second
      obtain ⟨last, lastSmall, rfl⟩ := exists_ofNat third
      simp only [inSecondRange_ofNat _ _ small nextSmall, payload_ofNat nextSmall,
        isContinuation_ofNat lastSmall, payload_ofNat lastSmall] at found
      obtain ⟨range, found⟩ := of_ite_invalid found
      obtain ⟨ends, ⟨⟩⟩ := of_ite_invalid found
      rw [utf8EncodeChar_threeBytes (by omega) (by split_ifs at range <;> omega)
        (by split_ifs at range <;> omega) (by split_ifs at range <;> omega) ends]
      rfl
  · rcases rest with _ | ⟨second, _ | ⟨third, _ | ⟨fourth, after⟩⟩⟩
    · cases found
    · cases (of_ite_invalid found).2
    · cases (of_ite_invalid (of_ite_invalid found).2).2
    · obtain ⟨next, nextSmall, rfl⟩ := exists_ofNat second
      obtain ⟨another, anotherSmall, rfl⟩ := exists_ofNat third
      obtain ⟨last, lastSmall, rfl⟩ := exists_ofNat fourth
      simp only [inSecondRange_ofNat _ _ small nextSmall, payload_ofNat nextSmall,
        isContinuation_ofNat anotherSmall, payload_ofNat anotherSmall,
        isContinuation_ofNat lastSmall, payload_ofNat lastSmall] at found
      obtain ⟨range, found⟩ := of_ite_invalid found
      obtain ⟨continued, found⟩ := of_ite_invalid found
      obtain ⟨ends, ⟨⟩⟩ := of_ite_invalid found
      rw [utf8EncodeChar_fourBytes (by omega) (by split_ifs at range <;> omega)
        (by split_ifs at range <;> omega) (by split_ifs at range <;> omega) continued ends]
      rfl

/-- Encoding undoes decoding. -/
theorem flatMap_of_decodeFrom {index : Nat} {bytes : List UInt8} {characters : List Char}
    (decoded : decodeFrom index bytes = .ok characters) :
    characters.flatMap String.utf8EncodeChar = bytes := by
  fun_induction decodeFrom index bytes generalizing characters with
  | case1 => cases decoded; rfl
  | case2 index lead rest character extra found ih =>
      cases later : decodeFrom (index + extra + 1) (rest.drop extra) with
      | error fault => rw [later] at decoded; cases decoded
      | ok others =>
          rw [later] at decoded
          cases decoded
          rw [List.flatMap_cons, ih later, utf8EncodeChar_of_split found]
  | case3 => cases decoded
  | case4 => cases decoded

theorem encode_ofList_of_decode {bytes : List UInt8} {characters : List Char}
    (decoded : decode bytes = .ok characters) : encode (String.ofList characters) = bytes := by
  rw [encode, String.toList_ofList]
  exact flatMap_of_decodeFrom decoded

/-- A text stands for the bytes it was decoded from, unless these are faulty. -/
theorem encode_text_or (bytes : List UInt8) :
    encode (Utf8.text bytes) = bytes ∨ Utf8.text bytes = "" := by
  cases decoded : decode bytes with
  | error fault => exact .inr (by rw [Utf8.text, decoded])
  | ok characters =>
      refine .inl ?_
      rw [Utf8.text, decoded]
      exact encode_ofList_of_decode decoded

end Utf8

end ThriftIdl
