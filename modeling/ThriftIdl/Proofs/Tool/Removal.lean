import ThriftIdl.Proofs.Source.Gap
import ThriftIdl.Proofs.Text.Utf8
import ThriftIdl.Tool.Annotations

/-!
# Removing annotations from gaps

An annotation is removed as a text, wherever it stands. Where it stands inside a gap this leaves a
gap, with one exception: a star in front of the annotation and a slash behind it become a closer,
and then a block comment ends too early. `Gap.Removable` says that this does not happen and that no
annotation begins right behind the gap; the gap then ends where it ended (`Gap.rest_remove`).

The text is removed character by character, and what is read are bytes; for ASCII this is the same
(`encode_remove`).
-/

namespace ThriftIdl

namespace Annotations

section

variable {α : Type} [DecidableEq α] {pattern : List α}

/-- Whether no occurrence of a pattern begins within the given number of items. -/
def Untouched (pattern : List α) (count : Nat) (items : List α) : Prop :=
  ∀ skipped < count, ¬pattern <+: items.drop skipped

instance (pattern : List α) (count : Nat) (items : List α) :
    Decidable (Untouched pattern count items) :=
  inferInstanceAs (Decidable (∀ skipped < count, ¬pattern <+: items.drop skipped))

@[simp]
theorem remove_nil (pattern : List α) : remove pattern [] = [] := by rw [remove]

theorem remove_cons {item : α} {rest : List α} (absent : ¬pattern <+: item :: rest) :
    remove pattern (item :: rest) = item :: remove pattern rest := by
  rw [remove, if_neg (by rwa [List.isPrefixOf_iff_prefix])]

theorem remove_pattern_append (notEmpty : pattern ≠ []) (rest : List α) :
    remove pattern (pattern ++ rest) = remove pattern rest := by
  cases pattern with
  | nil => exact absurd rfl notEmpty
  | cons first others =>
      have present : (first :: others).isPrefixOf (first :: (others ++ rest)) = true :=
        List.isPrefixOf_iff_prefix.2 (List.prefix_append (first :: others) rest)
      rw [List.cons_append, remove, if_pos present]
      simp

/-- Behind an occurrence, removing goes on with what the definition drops to. -/
theorem append_drop_of_isPrefixOf (notEmpty : pattern ≠ []) {item : α} {rest : List α}
    (present : pattern.isPrefixOf (item :: rest) = true) :
    pattern ++ rest.drop (pattern.length - 1) = item :: rest := by
  obtain ⟨behind, same⟩ := List.isPrefixOf_iff_prefix.1 present
  cases pattern with
  | nil => exact absurd rfl notEmpty
  | cons first others =>
      rw [List.cons_append, List.cons.injEq] at same
      rw [← same.1, ← same.2, List.length_cons, Nat.add_sub_cancel, List.drop_left, List.cons_append]

/-- What stands in front of all occurrences stays. -/
theorem remove_append {front back : List α}
    (untouched : Untouched pattern front.length (front ++ back)) :
    remove pattern (front ++ back) = front ++ remove pattern back := by
  induction front with
  | nil => rfl
  | cons item front ih =>
      have absent : ¬pattern <+: item :: (front ++ back) := untouched 0 (Nat.succ_pos _)
      rw [List.cons_append, remove_cons absent, ih, List.cons_append]
      exact fun skipped before => untouched (skipped + 1) (Nat.succ_lt_succ before)

/-- Removing looks at both sides of an item that is not in the pattern on their own. -/
theorem remove_append_cons (notEmpty : pattern ≠ []) {item : α} (notInside : item ∉ pattern)
    (front back : List α) :
    remove pattern (front ++ item :: back) =
      remove pattern front ++ item :: remove pattern back := by
  induction length : front.length using Nat.strong_induction_on generalizing front with
  | _ count ih =>
      by_cases present : pattern <+: front ++ item :: back
      · -- an occurrence ends in front of the item
        have short : pattern.length ≤ front.length := by
          by_contra long
          obtain ⟨after, same⟩ := present
          have there : (pattern ++ after)[front.length]? = some item := by simp [same]
          rw [List.getElem?_append_left (Nat.lt_of_not_le long)] at there
          exact notInside (List.mem_of_getElem? there)
        obtain ⟨others, rfl⟩ := List.prefix_of_prefix_length_le present
          (List.prefix_append front _) short
        have positive := List.length_pos_iff.2 notEmpty
        have inner := ih others.length (by rw [← length, List.length_append]; omega) others rfl
        rw [List.append_assoc, remove_pattern_append notEmpty, remove_pattern_append notEmpty,
          inner]
      · cases front with
        | nil => rw [List.nil_append, remove_cons present, remove_nil, List.nil_append]
        | cons first others =>
            have absent : ¬pattern <+: first :: others := fun here =>
              present (here.trans (List.prefix_append (first :: others) _))
            have inner := ih others.length (by rw [← length]; exact Nat.lt_succ_self _) others rfl
            rw [List.cons_append] at present ⊢
            rw [remove_cons present, remove_cons absent, inner, List.cons_append]

theorem remove_sublist (pattern items : List α) : (remove pattern items).Sublist items := by
  fun_induction remove pattern items with
  | case1 => exact .slnil
  | case2 item rest _ ih => exact (ih.trans (List.drop_sublist _ rest)).cons item
  | case3 item rest _ ih => exact ih.cons_cons item

theorem remove_eq_self {items : List α} (absent : ¬pattern <:+: items) :
    remove pattern items = items := by
  have untouched : Untouched pattern items.length (items ++ []) := by
    intro skipped _ here
    rw [List.append_nil] at here
    exact absent (here.isInfix.trans (List.drop_suffix skipped items).isInfix)
  have same := remove_append untouched
  rwa [remove_nil, List.append_nil] at same

end

/-! ### Characters and bytes -/

/-- An ASCII pattern that comes first in the bytes of a text comes first in the text. -/
theorem prefix_of_encoded {pattern text : List Char}
    (ascii : ∀ byte ∈ pattern.flatMap String.utf8EncodeChar, byte < 0x80)
    (here : pattern.flatMap String.utf8EncodeChar <+: text.flatMap String.utf8EncodeChar) :
    pattern <+: text := by
  obtain ⟨behind, same⟩ := here
  have valid : Utf8.Valid (pattern.flatMap String.utf8EncodeChar ++ behind) :=
    Utf8.valid_iff.2 ⟨text, same.symm⟩
  obtain ⟨others, rfl⟩ := Utf8.valid_iff.1 (valid.of_ascii_append ascii)
  have sameBytes : Utf8.encode (String.ofList (pattern ++ others)) =
      Utf8.encode (String.ofList text) := by
    simpa [Utf8.encode] using same
  have sameText := String.ofList_injective (Utf8.encode_injective sameBytes)
  exact ⟨others, sameText⟩

/-- No occurrence of an ASCII pattern begins inside a character. -/
theorem untouched_character {pattern rest : List Char} {character : Char}
    (notEmpty : pattern.flatMap String.utf8EncodeChar ≠ [])
    (ascii : ∀ byte ∈ pattern.flatMap String.utf8EncodeChar, byte < 0x80)
    (absent : ¬pattern <+: character :: rest) :
    Untouched (pattern.flatMap String.utf8EncodeChar) (String.utf8EncodeChar character).length
      (String.utf8EncodeChar character ++ rest.flatMap String.utf8EncodeChar) := by
  intro skipped before here
  obtain ⟨byte, others, spelled⟩ := List.exists_cons_of_ne_nil notEmpty
  obtain ⟨first, tail, behind⟩ : ∃ first tail,
      (String.utf8EncodeChar character).drop skipped = first :: tail :=
    List.exists_cons_of_ne_nil fun nothing =>
      absurd (List.drop_eq_nil_iff.1 nothing) (Nat.not_le.2 before)
  have sameByte : byte = first := by
    rw [spelled, List.drop_append_of_le_length before.le, behind, List.cons_append,
      List.cons_prefix_cons] at here
    exact here.1
  -- the first byte of the pattern is ASCII, so it is the only byte of the character
  have mem : byte ∈ String.utf8EncodeChar character := by
    rw [sameByte]
    exact List.mem_of_mem_drop (behind ▸ List.mem_cons_self)
  have single := Utf8.utf8EncodeChar_of_mem_ascii mem (ascii byte (by simp [spelled]))
  rw [single, List.length_singleton, Nat.lt_one_iff] at before
  subst before
  exact absent (prefix_of_encoded ascii here)

/-- Removing an ASCII text from characters and from bytes comes to the same. -/
theorem encode_remove {pattern : String} (notEmpty : Utf8.encode pattern ≠ [])
    (ascii : ∀ byte ∈ Utf8.encode pattern, byte < 0x80) (text : List Char) :
    Utf8.encode (String.ofList (remove pattern.toList text)) =
      remove (Utf8.encode pattern) (Utf8.encode (String.ofList text)) := by
  simp only [Utf8.encode, String.toList_ofList] at notEmpty ascii ⊢
  generalize pattern.toList = letters at *
  fun_induction remove letters text with
  | case1 => simp
  | case2 character rest present ih =>
      have lettersNotEmpty : letters ≠ [] := by
        rintro rfl
        exact notEmpty rfl
      rw [ih, ← append_drop_of_isPrefixOf lettersNotEmpty present, List.flatMap_append,
        remove_pattern_append notEmpty]
  | case3 character rest absent ih =>
      have notThere := mt List.isPrefixOf_iff_prefix.2 absent
      rw [List.flatMap_cons, ih, List.flatMap_cons,
        remove_append (untouched_character notEmpty ascii notThere)]

end Annotations

namespace Gap

open Annotations

/-- Whether a pattern begins with a parenthesis and has neither stars nor line endings in it. -/
structure Parenthesized (pattern : List UInt8) : Prop where
  opens : pattern.head? = some Byte.openParenthesis
  noStar : Byte.star ∉ pattern
  inLine : ∀ byte ∈ pattern, Byte.isLineEnd byte = false

/-- What stands in a block comment: everything up to the first closer. -/
def commentBody : List UInt8 → List UInt8
  | [] => []
  | byte :: rest =>
    if [Byte.star, Byte.slash] <+: byte :: rest then [] else byte :: commentBody rest

/-- Whether all block comments in the gap in front of some bytes stay whole without a pattern. -/
def KeepsComments (pattern bytes : List UInt8) : Prop :=
  ∀ front rest, Filler front → bytes = front ++ Byte.slash :: Byte.star :: rest →
    ¬[Byte.star, Byte.slash] <:+: remove pattern (commentBody rest)

/--
Whether no occurrence of a pattern begins where a token begins, nor behind bytes that no gap divides
from there, nor behind a slash that opens no comment.
-/
def ClearOf (pattern bytes : List UInt8) : Prop :=
  ∀ front back, bytes = front ++ back →
    (∀ byte ∈ front, isBarrier byte = true) ∨ front = [Byte.slash] → ¬pattern <+: back

/-- Whether a pattern can be removed from the gap in front of some bytes and is not behind it. -/
structure Removable (pattern bytes : List UInt8) : Prop where
  keeps : KeepsComments pattern bytes
  clear : ClearOf pattern (rest bytes)

variable {pattern bytes gap back : List UInt8}

/-! ### Decisions -/

/-- A filler is passed over as a whole, and nothing else in front of a brace is. -/
theorem filler_iff_rest_eq :
    Filler gap ↔ rest (gap ++ [Byte.openBrace]) = [Byte.openBrace] := by
  constructor
  · intro filler
    rw [rest_append_of_filler filler]
    rfl
  · intro passed
    cases shape (gap ++ [Byte.openBrace]) with
    | settled inner filler split _ =>
        rw [passed] at split
        rwa [List.append_cancel_right split]
    | trailing trailing =>
        rw [rest_of_trailing trailing] at passed
        cases passed

instance (gap : List UInt8) : Decidable (Filler gap) := decidable_of_iff' _ filler_iff_rest_eq

theorem commentBody_append {body : List UInt8} (noCloser : ¬[Byte.star, Byte.slash] <:+: body)
    (tail : List UInt8) : commentBody (body ++ Byte.star :: Byte.slash :: tail) = body := by
  induction body with
  | nil => exact if_pos (List.prefix_append [Byte.star, Byte.slash] tail)
  | cons byte body ih =>
      have noCloserLater : ¬[Byte.star, Byte.slash] <:+: body := fun later =>
        noCloser (later.trans (List.suffix_cons byte body).isInfix)
      rw [List.cons_append, commentBody, if_neg (not_closer_of_body noCloser tail),
        ih noCloserLater]

theorem commentBody_eq_self {body : List UInt8} (noCloser : ¬[Byte.star, Byte.slash] <:+: body) :
    commentBody body = body := by
  induction body with
  | nil => rfl
  | cons byte body ih =>
      have noCloserLater : ¬[Byte.star, Byte.slash] <:+: body := fun later =>
        noCloser (later.trans (List.suffix_cons byte body).isInfix)
      rw [commentBody, if_neg fun closer => noCloser closer.isInfix, ih noCloserLater]

theorem restIn_block_length_le (bytes : List UInt8) :
    (restIn .block bytes).length ≤ bytes.length := by
  rcases exists_closer bytes with noCloser | ⟨body, tail, noCloser, rfl⟩
  · have nothing := restIn_block_of_not_infix noCloser
    simp [nothing]
  · have behind := rest_length_le tail
    rw [restIn_block_append noCloser, List.length_append, List.length_cons, List.length_cons]
    omega

/-- The comments of a gap begin in front of what stands behind it. -/
theorem keepsComments_iff :
    KeepsComments pattern bytes ↔
      ∀ count < bytes.length - (rest bytes).length,
        [Byte.slash, Byte.star] <+: bytes.drop count → Filler (bytes.take count) →
          ¬[Byte.star, Byte.slash] <:+: remove pattern (commentBody (bytes.drop (count + 2))) := by
  constructor
  · rintro keeps count - ⟨inside, split⟩ filler
    have behind : bytes.drop (count + 2) = inside := by
      rw [← List.drop_drop, ← split]
      rfl
    rw [behind]
    refine keeps (bytes.take count) inside filler ?_
    exact (List.take_append_drop count bytes).symm.trans (congrArg (_ ++ ·) split.symm)
  · rintro each front inside filler rfl
    have passed := restIn_block_length_le inside
    have here := each front.length (by
      rw [rest_append_of_filler filler, rest_blockOpening, List.length_append, List.length_cons,
        List.length_cons]
      omega)
    rw [List.take_left, List.drop_left, ← List.drop_drop, List.drop_left] at here
    exact here (List.prefix_append [Byte.slash, Byte.star] inside) filler

instance (pattern bytes : List UInt8) : Decidable (KeepsComments pattern bytes) :=
  decidable_of_iff' _ keepsComments_iff

theorem clearOf_iff :
    ClearOf pattern bytes ↔
      ∀ count < bytes.length + 1, (∀ byte ∈ bytes.take count, isBarrier byte = true) ∨
        bytes.take count = [Byte.slash] → ¬pattern <+: bytes.drop count := by
  constructor
  · intro clear count _
    exact clear (bytes.take count) (bytes.drop count) (List.take_append_drop count bytes).symm
  · rintro each front back rfl
    have here := each front.length (by simp)
    rwa [List.take_left, List.drop_left] at here

instance (pattern bytes : List UInt8) : Decidable (ClearOf pattern bytes) :=
  decidable_of_iff' _ clearOf_iff

instance (pattern bytes : List UInt8) : Decidable (Removable pattern bytes) :=
  decidable_of_iff (KeepsComments pattern bytes ∧ ClearOf pattern (rest bytes))
    ⟨fun both => ⟨both.1, both.2⟩, fun removable => ⟨removable.keeps, removable.clear⟩⟩

/-! ### Gaps without a pattern -/

theorem Parenthesized.ne_nil (parenthesized : Parenthesized pattern) : pattern ≠ [] := by
  rintro rfl
  cases parenthesized.opens

theorem Parenthesized.remove_cons (parenthesized : Parenthesized pattern) {byte : UInt8}
    (differs : byte ≠ Byte.openParenthesis) (tail : List UInt8) :
    remove pattern (byte :: tail) = byte :: remove pattern tail := by
  refine Annotations.remove_cons ?_
  rintro ⟨behind, same⟩
  have atHead := congrArg List.head? same
  rw [List.head?_append_of_ne_nil _ parenthesized.ne_nil, parenthesized.opens] at atHead
  exact differs (Option.some.inj atHead).symm

theorem Parenthesized.remove_opening (parenthesized : Parenthesized pattern) {opening : List UInt8}
    (opens : opening = [Byte.hash] ∨ opening = [Byte.slash, Byte.slash]) (tail : List UInt8) :
    remove pattern (opening ++ tail) = opening ++ remove pattern tail := by
  rcases opens with rfl | rfl
  · exact parenthesized.remove_cons (by decide) tail
  · have second := @Parenthesized.remove_cons _ parenthesized Byte.slash (by decide) tail
    exact (parenthesized.remove_cons (by decide) _).trans (congrArg (Byte.slash :: ·) second)

theorem Parenthesized.not_mem_of_isLineEnd (parenthesized : Parenthesized pattern) {byte : UInt8}
    (ends : Byte.isLineEnd byte = true) : byte ∉ pattern := by
  intro mem
  rw [parenthesized.inLine byte mem] at ends
  cases ends

theorem Filler.append {other : List UInt8} (filler : Filler gap) (otherFiller : Filler other) :
    Filler (gap ++ other) := by
  induction filler with
  | nil => exact otherFiller
  | space space _ ih => exact .space space ih
  | block noCloser _ ih => simpa using Filler.block noCloser ih
  | line opens inside ends _ ih => simpa using Filler.line opens inside ends ih

theorem KeepsComments.behind (keeps : KeepsComments pattern (gap ++ bytes)) (filler : Filler gap) :
    KeepsComments pattern bytes := by
  intro front inside isFiller same
  refine keeps (gap ++ front) inside (filler.append isFiller) ?_
  rw [same, List.append_assoc]

theorem ClearOf.absent (clear : ClearOf pattern bytes) : ¬pattern <+: bytes :=
  clear [] bytes rfl (.inl (by simp))

/-- A gap without a pattern is a gap again. -/
theorem exists_filler_remove (parenthesized : Parenthesized pattern) (filler : Filler gap)
    (keeps : KeepsComments pattern (gap ++ back)) :
    ∃ other, Filler other ∧ remove pattern (gap ++ back) = other ++ remove pattern back := by
  induction filler with
  | nil => exact ⟨[], .nil, rfl⟩
  | @space byte tail space filler ih =>
      have alone : Filler [byte] := .space space .nil
      have keeps : KeepsComments pattern ([byte] ++ (tail ++ back)) := keeps
      obtain ⟨other, otherFiller, same⟩ := ih (keeps.behind alone)
      have differs : byte ≠ Byte.openParenthesis := by
        rintro rfl
        cases space
      refine ⟨byte :: other, .space space otherFiller, ?_⟩
      rw [List.cons_append, parenthesized.remove_cons differs, same, List.cons_append]
  | @block body tail noCloser filler ih =>
      have alone : Filler (Byte.slash :: Byte.star :: (body ++ [Byte.star, Byte.slash])) :=
        .block noCloser .nil
      have split : Byte.slash :: Byte.star :: (body ++ Byte.star :: Byte.slash :: tail) ++ back =
          Byte.slash :: Byte.star :: (body ++ [Byte.star, Byte.slash]) ++ (tail ++ back) := by simp
      rw [split] at keeps
      obtain ⟨other, otherFiller, same⟩ := ih (keeps.behind alone)
      have noCloserThen : ¬[Byte.star, Byte.slash] <:+: remove pattern body := by
        have whole := keeps [] (body ++ Byte.star :: Byte.slash :: (tail ++ back)) .nil (by simp)
        rwa [commentBody_append noCloser] at whole
      refine ⟨_, .block noCloserThen otherFiller, ?_⟩
      simp only [List.cons_append, List.append_assoc]
      rw [parenthesized.remove_cons (by decide), parenthesized.remove_cons (by decide),
        remove_append_cons parenthesized.ne_nil parenthesized.noStar,
        parenthesized.remove_cons (by decide), same]
  | @line opening body tail ending opens inside ends filler ih =>
      have alone : Filler (opening ++ body ++ [ending]) := .line opens inside ends .nil
      have split : opening ++ body ++ ending :: tail ++ back =
          opening ++ body ++ [ending] ++ (tail ++ back) := by simp
      rw [split] at keeps
      obtain ⟨other, otherFiller, same⟩ := ih (keeps.behind alone)
      have insideThen : ∀ byte ∈ remove pattern body, Byte.isLineEnd byte = false :=
        fun byte mem => inside byte ((remove_sublist pattern body).subset mem)
      refine ⟨_, .line opens insideThen ends otherFiller, ?_⟩
      simp only [List.append_assoc, List.cons_append]
      rw [parenthesized.remove_opening opens,
        remove_append_cons parenthesized.ne_nil (parenthesized.not_mem_of_isLineEnd ends), same]

theorem openComment_remove (parenthesized : Parenthesized pattern) {comment : List UInt8}
    (isOpen : OpenComment comment) (keeps : KeepsComments pattern comment) :
    OpenComment (remove pattern comment) := by
  cases isOpen with
  | @block body noCloser =>
      rw [parenthesized.remove_cons (by decide), parenthesized.remove_cons (by decide)]
      have whole := keeps [] body .nil rfl
      rw [commentBody_eq_self noCloser] at whole
      exact .block whole
  | @line opening body opens inside =>
      rw [parenthesized.remove_opening opens]
      exact .line opens fun byte mem => inside byte ((remove_sublist pattern body).subset mem)

/-- What stands behind the gap is not taken for a gap. -/
theorem ClearOf.settled_remove (clear : ClearOf pattern bytes) (settled : Settled bytes) :
    Settled (remove pattern bytes) := by
  cases bytes with
  | nil => rwa [remove_nil]
  | cons byte tail =>
      rw [Annotations.remove_cons clear.absent]
      refine ⟨settled.1, settled.2.1, fun slash second atHead => ?_⟩
      cases tail with
      | nil => simp at atHead
      | cons other after =>
          have absent := clear [byte] (other :: after) rfl (.inr (by rw [slash]))
          rw [Annotations.remove_cons absent] at atHead
          exact settled.2.2 slash second atHead

/-- A gap ends where it ended before the pattern was removed. -/
theorem Removable.rest_remove (removable : Removable pattern bytes)
    (parenthesized : Parenthesized pattern) :
    rest (remove pattern bytes) = remove pattern (rest bytes) := by
  cases shape bytes with
  | settled gap filler split settled =>
      have keeps := removable.keeps
      rw [split] at keeps
      obtain ⟨other, otherFiller, same⟩ := exists_filler_remove parenthesized filler keeps
      conv_lhs => rw [split, same]
      rw [rest_append_of_filler otherFiller,
        rest_of_settled (removable.clear.settled_remove settled)]
  | trailing trailing =>
      rw [rest_of_trailing trailing, remove_nil]
      apply rest_of_trailing
      rcases trailing with ⟨filler, comment, isFiller, isOpen, rfl⟩
      obtain ⟨other, otherFiller, same⟩ :=
        exists_filler_remove parenthesized isFiller removable.keeps
      refine ⟨other, remove pattern comment, otherFiller, ?_, same⟩
      rcases isOpen with rfl | isOpen
      · exact .inl (remove_nil pattern)
      · exact .inr (openComment_remove parenthesized isOpen (removable.keeps.behind isFiller))

end Gap

end ThriftIdl
