import Mathlib
import ThriftIdl.Source.Gap

/-!
# Gaps as concatenations

`Gap.skip` passes over a gap byte by byte. Here a gap is described from outside: it is a
concatenation of blanks, line endings, closed block comments, and line comments with their line
ending. What `Gap.rest` leaves of some bytes is what stands behind the longest gap in front of them;
a comment without its end can only be the last thing in the source.
-/

namespace ThriftIdl

namespace Byte

/-- A blank or either half of a line ending. -/
def isSpace (byte : UInt8) : Bool := isBlank byte || isLineEnd byte

end Byte

namespace Gap

/-- What remains of some bytes behind the gap in front of them, from within the given mode. -/
def restIn (mode : Mode) (bytes : List UInt8) : List UInt8 :=
  (skip mode .start bytes).remaining

/-- What remains of some bytes behind the gap in front of them. -/
def rest (bytes : List UInt8) : List UInt8 := restIn .between bytes

/-- Where a gap is counted from does not matter for what remains behind it. -/
theorem remaining_skip (mode : Mode) (position : Position) (bytes : List UInt8) :
    (skip mode position bytes).remaining = restIn mode bytes := by
  unfold restIn
  generalize Position.start = other
  fun_induction skip mode position bytes generalizing other <;> conv_rhs => rw [skip.eq_def]
  all_goals grind

/-- A gap is counted byte by byte. -/
theorem offset_skip (mode : Mode) (position : Position) (bytes : List UInt8) :
    (skip mode position bytes).position.offset + (skip mode position bytes).remaining.length =
      position.offset + bytes.length := by
  have offset_pass : ∀ (position : Position) (byte : UInt8),
      (position.pass byte).offset = position.offset + 1 := by
    intro position byte
    unfold Position.pass Position.record Position.advance
    split_ifs <;> rfl
  fun_induction skip mode position bytes <;> simp_all [Position.advance] <;> omega

@[simp]
theorem restIn_nil (mode : Mode) : restIn mode [] = [] := by
  cases mode <;> rfl

@[simp]
theorem rest_nil : rest [] = [] := rfl

/-! ### One byte at a time -/

/-- A byte that is not the slash decides on its own whether it belongs to a gap. -/
theorem rest_cons_of_ne_slash {byte : UInt8} (notSlash : byte ≠ Byte.slash) (tail : List UInt8) :
    rest (byte :: tail) =
      if Byte.isSpace byte then rest tail
      else if byte = Byte.hash then restIn .line tail
      else byte :: tail := by
  rw [rest, restIn, skip.eq_def]
  unfold Byte.isSpace
  simp only [notSlash, if_false]
  split_ifs
  · exact remaining_skip .between _ tail
  · exact remaining_skip .line _ tail
  · rfl

theorem restIn_line (byte : UInt8) (tail : List UInt8) :
    restIn .line (byte :: tail) = if Byte.isLineEnd byte then rest tail else restIn .line tail := by
  change Mark.remaining (if Byte.isLineEnd byte then _ else _) = _
  split_ifs
  · exact remaining_skip .between _ tail
  · exact remaining_skip .line _ tail

theorem restIn_block (byte second : UInt8) (tail : List UInt8) :
    restIn .block (byte :: second :: tail) =
      if byte = Byte.star ∧ second = Byte.slash then rest tail
      else restIn .block (second :: tail) := by
  change Mark.remaining (if byte = Byte.star ∧ second = Byte.slash then _ else _) = _
  split_ifs
  · exact remaining_skip .between _ tail
  · exact remaining_skip .block _ (second :: tail)

theorem rest_space {byte : UInt8} (space : Byte.isSpace byte = true) (tail : List UInt8) :
    rest (byte :: tail) = rest tail := by
  have notSlash : byte ≠ Byte.slash := by
    rintro rfl
    cases space
  rw [rest_cons_of_ne_slash notSlash, if_pos space]

theorem rest_hash (tail : List UInt8) : rest (Byte.hash :: tail) = restIn .line tail :=
  rest_cons_of_ne_slash (by decide) tail

theorem rest_blockOpening (tail : List UInt8) :
    rest (Byte.slash :: Byte.star :: tail) = restIn .block tail :=
  remaining_skip .block _ tail

theorem rest_lineOpening (tail : List UInt8) :
    rest (Byte.slash :: Byte.slash :: tail) = restIn .line tail :=
  remaining_skip .line _ tail

theorem restIn_block_closing (tail : List UInt8) :
    restIn .block (Byte.star :: Byte.slash :: tail) = rest tail :=
  remaining_skip .between _ tail

theorem restIn_block_cons {byte : UInt8} {tail : List UInt8}
    (noCloser : ¬[Byte.star, Byte.slash] <+: byte :: tail) :
    restIn .block (byte :: tail) = restIn .block tail := by
  cases tail with
  | nil => rfl
  | cons second after =>
      have differ : ¬(byte = Byte.star ∧ second = Byte.slash) := by
        rintro ⟨rfl, rfl⟩
        exact noCloser ⟨after, rfl⟩
      rw [restIn_block, if_neg differ]

theorem restIn_line_ending {byte : UInt8} (ending : Byte.isLineEnd byte = true)
    (tail : List UInt8) : restIn .line (byte :: tail) = rest tail := by
  rw [restIn_line, if_pos ending]

theorem restIn_line_cons {byte : UInt8} (inside : Byte.isLineEnd byte = false)
    (tail : List UInt8) : restIn .line (byte :: tail) = restIn .line tail := by
  simp [restIn_line, inside]

/-- Bytes in front of which there is no gap. -/
def Settled : List UInt8 → Prop
  | [] => True
  | byte :: tail =>
    Byte.isSpace byte = false ∧ byte ≠ Byte.hash ∧
      (byte = Byte.slash → ∀ second ∈ tail.head?, second ≠ Byte.star ∧ second ≠ Byte.slash)

/-- A byte that neither is a gap nor opens a comment. -/
def isBarrier (byte : UInt8) : Bool :=
  !Byte.isSpace byte && byte != Byte.hash && byte != Byte.slash

theorem settled_of_barrier {byte : UInt8} (barrier : isBarrier byte = true)
    (tail : List UInt8) : Settled (byte :: tail) := by
  simp only [isBarrier, Bool.and_eq_true, Bool.not_eq_true', bne_iff_ne] at barrier
  exact ⟨barrier.1.1, barrier.1.2, fun slash => absurd slash barrier.2⟩

theorem rest_of_settled {bytes : List UInt8} (settled : Settled bytes) : rest bytes = bytes := by
  cases bytes with
  | nil => rfl
  | cons byte tail =>
      rcases settled with ⟨notSpace, notHash, notComment⟩
      by_cases slash : byte = Byte.slash
      · subst slash
        cases tail with
        | nil => rfl
        | cons second after =>
            rcases notComment rfl second rfl with ⟨notStar, notSlash⟩
            change Mark.remaining (if second = Byte.star then _
              else if second = Byte.slash then _ else _) = _
            rw [if_neg notStar, if_neg notSlash]
      · simp [rest_cons_of_ne_slash slash, notSpace, notHash]

theorem rest_barrier {byte : UInt8} (barrier : isBarrier byte = true) (tail : List UInt8) :
    rest (byte :: tail) = byte :: tail :=
  rest_of_settled (settled_of_barrier barrier tail)

/-- A concatenation of blanks, line endings, and comments with their ends. -/
inductive Filler : List UInt8 → Prop where
  | nil : Filler []
  | space {byte : UInt8} {tail : List UInt8} (space : Byte.isSpace byte = true)
      (filler : Filler tail) : Filler (byte :: tail)
  | block {body tail : List UInt8} (noCloser : ¬[Byte.star, Byte.slash] <:+: body)
      (filler : Filler tail) :
      Filler (Byte.slash :: Byte.star :: (body ++ Byte.star :: Byte.slash :: tail))
  | line {opening body tail : List UInt8} {ending : UInt8}
      (opens : opening = [Byte.hash] ∨ opening = [Byte.slash, Byte.slash])
      (inside : ∀ byte ∈ body, Byte.isLineEnd byte = false)
      (ends : Byte.isLineEnd ending = true) (filler : Filler tail) :
      Filler (opening ++ body ++ ending :: tail)

/-- A comment without its end. -/
inductive OpenComment : List UInt8 → Prop where
  | block {body : List UInt8} (noCloser : ¬[Byte.star, Byte.slash] <:+: body) :
      OpenComment (Byte.slash :: Byte.star :: body)
  | line {opening body : List UInt8}
      (opens : opening = [Byte.hash] ∨ opening = [Byte.slash, Byte.slash])
      (inside : ∀ byte ∈ body, Byte.isLineEnd byte = false) :
      OpenComment (opening ++ body)

/-- In front of its closer, a comment without closers has none at its first byte either. -/
theorem not_closer_of_body {byte : UInt8} {body : List UInt8}
    (noCloser : ¬[Byte.star, Byte.slash] <:+: byte :: body) (tail : List UInt8) :
    ¬[Byte.star, Byte.slash] <+: byte :: (body ++ Byte.star :: Byte.slash :: tail) := by
  -- it would need the byte behind the first one, which is a star or in the body
  rintro ⟨after, same⟩
  cases body with
  | nil => simp [show Byte.slash ≠ Byte.star by decide] at same
  | cons second others =>
      simp only [List.cons_append, List.cons.injEq] at same
      rcases same with ⟨rfl, rfl, -⟩
      exact noCloser (List.prefix_append [Byte.star, Byte.slash] others).isInfix

theorem restIn_block_append {body : List UInt8}
    (noCloser : ¬[Byte.star, Byte.slash] <:+: body) (tail : List UInt8) :
    restIn .block (body ++ Byte.star :: Byte.slash :: tail) = rest tail := by
  induction body with
  | nil => exact restIn_block_closing tail
  | cons byte body ih =>
      have noCloserLater : ¬[Byte.star, Byte.slash] <:+: body := fun later =>
        noCloser (later.trans (List.suffix_cons byte body).isInfix)
      rw [List.cons_append, restIn_block_cons (not_closer_of_body noCloser tail), ih noCloserLater]

theorem restIn_block_of_not_infix {body : List UInt8}
    (noCloser : ¬[Byte.star, Byte.slash] <:+: body) : restIn .block body = [] := by
  induction body with
  | nil => rfl
  | cons byte body ih =>
      rw [restIn_block_cons fun closer => noCloser closer.isInfix]
      exact ih fun later => noCloser (later.trans (List.suffix_cons byte body).isInfix)

theorem restIn_line_append {body : List UInt8}
    (inside : ∀ byte ∈ body, Byte.isLineEnd byte = false) (tail : List UInt8) :
    restIn .line (body ++ tail) = restIn .line tail := by
  induction body with
  | nil => rfl
  | cons byte body ih =>
      rw [List.cons_append, restIn_line_cons (inside byte (by simp))]
      exact ih fun other mem => inside other (by simp [mem])

theorem rest_lineComment {opening : List UInt8}
    (opens : opening = [Byte.hash] ∨ opening = [Byte.slash, Byte.slash]) (tail : List UInt8) :
    rest (opening ++ tail) = restIn .line tail := by
  rcases opens with rfl | rfl
  · exact rest_hash tail
  · exact rest_lineOpening tail

/-- A gap is passed over as a whole. -/
theorem rest_append_of_filler {gap : List UInt8} (filler : Filler gap) (bytes : List UInt8) :
    rest (gap ++ bytes) = rest bytes := by
  induction filler with
  | nil => rfl
  | space space _ ih => rw [List.cons_append, rest_space space, ih]
  | block noCloser _ ih =>
      simp only [List.cons_append, List.append_assoc]
      rw [rest_blockOpening, restIn_block_append noCloser, ih]
  | line opens inside ends _ ih =>
      simp only [List.cons_append, List.append_assoc]
      rw [rest_lineComment opens, restIn_line_append inside, restIn_line_ending ends, ih]

theorem rest_of_openComment {comment : List UInt8} (isOpen : OpenComment comment) :
    rest comment = [] := by
  cases isOpen with
  | block noCloser => rw [rest_blockOpening, restIn_block_of_not_infix noCloser]
  | line opens inside =>
      rw [rest_lineComment opens]
      simpa using restIn_line_append inside []

/-- Everything up to the end of a source, if there is no token any more. -/
def Trailing (bytes : List UInt8) : Prop :=
  ∃ filler comment, Filler filler ∧ (comment = [] ∨ OpenComment comment) ∧
    bytes = filler ++ comment

theorem rest_of_trailing {bytes : List UInt8} (trailing : Trailing bytes) : rest bytes = [] := by
  rcases trailing with ⟨filler, comment, isFiller, rfl | isOpen, rfl⟩
  · rw [rest_append_of_filler isFiller, rest_nil]
  · rw [rest_append_of_filler isFiller, rest_of_openComment isOpen]

theorem Filler.trailing {gap : List UInt8} (filler : Filler gap) : Trailing gap :=
  ⟨gap, [], filler, .inl rfl, (List.append_nil gap).symm⟩

/-- The bytes in front of the first closer, if there is one. -/
theorem exists_closer (bytes : List UInt8) :
    ¬[Byte.star, Byte.slash] <:+: bytes ∨
      ∃ body tail, ¬[Byte.star, Byte.slash] <:+: body ∧
        bytes = body ++ Byte.star :: Byte.slash :: tail := by
  induction bytes with
  | nil => exact .inl (by simp)
  | cons byte bytes ih =>
      by_cases closer : [Byte.star, Byte.slash] <+: byte :: bytes
      · rcases closer with ⟨tail, same⟩
        exact .inr ⟨[], tail, by simp, same.symm⟩
      · rcases ih with none | ⟨body, tail, noCloser, rfl⟩
        · exact .inl fun later => (List.infix_cons_iff.1 later).elim closer none
        · refine .inr ⟨byte :: body, tail, ?_, rfl⟩
          intro later
          rcases List.infix_cons_iff.1 later with atOnce | inBody
          · exact closer (atOnce.trans (List.prefix_append (byte :: body) _))
          · exact noCloser inBody

/-- The bytes in front of the first line ending, if there is one. -/
theorem exists_lineEnd (bytes : List UInt8) :
    (∀ byte ∈ bytes, Byte.isLineEnd byte = false) ∨
      ∃ body ending tail, (∀ byte ∈ body, Byte.isLineEnd byte = false) ∧
        Byte.isLineEnd ending = true ∧ bytes = body ++ ending :: tail := by
  induction bytes with
  | nil => exact .inl (by simp)
  | cons byte bytes ih =>
      cases ends : Byte.isLineEnd byte with
      | true => exact .inr ⟨[], byte, bytes, by simp, ends, rfl⟩
      | false =>
          rcases ih with none | ⟨body, ending, tail, inside, isEnding, rfl⟩
          · exact .inl (by simpa [ends] using none)
          · exact .inr ⟨byte :: body, ending, tail, by simpa [ends] using inside, isEnding, rfl⟩

/-- What a gap consists of: a filler with a settled rest behind it, or all there is. -/
inductive Shape (bytes : List UInt8) : Prop where
  | settled (gap : List UInt8) (filler : Filler gap) (split : bytes = gap ++ rest bytes)
      (settled : Settled (rest bytes))
  | trailing (trailing : Trailing bytes)

theorem Shape.prepend (gap : List UInt8) {bytes : List UInt8}
    (fill : ∀ tail, Filler tail → Filler (gap ++ tail)) (shape : Shape bytes) :
    Shape (gap ++ bytes) := by
  have filler : Filler gap := by simpa using fill [] .nil
  cases shape with
  | settled inner isFiller split isSettled =>
      refine .settled (gap ++ inner) (fill inner isFiller) ?_ ?_
      · rw [rest_append_of_filler filler, List.append_assoc, ← split]
      · rwa [rest_append_of_filler filler]
  | trailing trailing =>
      rcases trailing with ⟨inner, comment, isFiller, isOpen, rfl⟩
      exact .trailing ⟨gap ++ inner, comment, fill inner isFiller, isOpen, by simp⟩

theorem shape_lineComment (opening : List UInt8)
    (opens : opening = [Byte.hash] ∨ opening = [Byte.slash, Byte.slash]) {bytes : List UInt8}
    (smaller : ∀ tail : List UInt8, tail.length < bytes.length → Shape tail) :
    Shape (opening ++ bytes) := by
  rcases exists_lineEnd bytes with inside | ⟨body, ending, tail, inside, ends, rfl⟩
  · exact .trailing ⟨[], opening ++ bytes, .nil, .inr (.line opens inside), rfl⟩
  · have fill : ∀ after, Filler after → Filler (opening ++ body ++ [ending] ++ after) := by
      intro after filler
      simpa using Filler.line opens inside ends filler
    simpa using (smaller tail (by simp; omega)).prepend _ fill

theorem shape_blockComment {bytes : List UInt8}
    (smaller : ∀ tail : List UInt8, tail.length < bytes.length → Shape tail) :
    Shape (Byte.slash :: Byte.star :: bytes) := by
  rcases exists_closer bytes with noCloser | ⟨body, tail, noCloser, rfl⟩
  · exact .trailing ⟨[], _, .nil, .inr (.block noCloser), rfl⟩
  · have fill : ∀ after, Filler after →
        Filler ([Byte.slash, Byte.star] ++ body ++ [Byte.star, Byte.slash] ++ after) := by
      intro after filler
      simpa using Filler.block noCloser filler
    simpa using (smaller tail (by simp; omega)).prepend _ fill

/-- Every gap has its shape. -/
theorem shape (bytes : List UInt8) : Shape bytes := by
  induction length : bytes.length using Nat.strong_induction_on generalizing bytes with
  | _ count ih =>
      have smaller : ∀ tail : List UInt8, tail.length < bytes.length → Shape tail :=
        fun tail shorter => ih tail.length (length ▸ shorter) tail rfl
      cases bytes with
      | nil => exact .settled [] .nil rfl trivial
      | cons byte tail =>
          by_cases settled : Settled (byte :: tail)
          · have same := rest_of_settled settled
            exact .settled [] .nil (by simp [same]) (by rwa [same])
          cases space : Byte.isSpace byte with
          | true =>
              exact (smaller tail (by simp)).prepend [byte] fun _ => .space space
          | false =>
              by_cases hash : byte = Byte.hash
              · subst hash
                exact shape_lineComment [Byte.hash] (.inl rfl)
                  fun after shorter => smaller after (by simp; omega)
              -- only the two openings with a slash are left
              simp only [Settled, space, hash, ne_eq, not_false_eq_true, true_and] at settled
              push Not at settled
              rcases settled with ⟨rfl, second, atHead, comment⟩
              obtain ⟨after, rfl⟩ : ∃ after, tail = second :: after :=
                ⟨tail.tail, (List.cons_head?_tail atHead).symm⟩
              by_cases star : second = Byte.star
              · subst star
                exact shape_blockComment fun inner shorter => smaller inner (by simp; omega)
              · cases comment star
                exact shape_lineComment [Byte.slash, Byte.slash] (.inr rfl)
                  fun inner shorter => smaller inner (by simp; omega)

theorem settled_rest (bytes : List UInt8) : Settled (rest bytes) := by
  cases shape bytes with
  | settled _ _ _ settled => exact settled
  | trailing trailing => rw [rest_of_trailing trailing]; trivial

/-- Where no token is left there is only a gap, whose last comment may lack its end. -/
theorem trailing_of_rest_eq_nil {bytes : List UInt8} (nothing : rest bytes = []) :
    Trailing bytes := by
  cases shape bytes with
  | settled gap filler split _ =>
      rw [nothing, List.append_nil] at split
      exact split ▸ filler.trailing
  | trailing trailing => exact trailing

theorem rest_suffix (bytes : List UInt8) : rest bytes <:+ bytes := by
  cases shape bytes with
  | settled gap _ split _ => exact ⟨gap, split.symm⟩
  | trailing trailing => rw [rest_of_trailing trailing]; exact List.nil_suffix

theorem rest_length_le (bytes : List UInt8) : (rest bytes).length ≤ bytes.length :=
  (rest_suffix bytes).length_le

/-- Whether every block comment opening has a closer behind it. -/
def CommentsClosed (bytes : List UInt8) : Prop :=
  ∀ front body, bytes = front ++ Byte.slash :: Byte.star :: body →
    [Byte.star, Byte.slash] <:+: body

theorem CommentsClosed.suffix {bytes tail : List UInt8} (closed : CommentsClosed bytes)
    (suffix : tail <:+ bytes) : CommentsClosed tail := by
  rcases suffix with ⟨skipped, rfl⟩
  intro front body same
  exact closed (skipped ++ front) body (by rw [same, List.append_assoc])

/-- A slash at the end of the bytes opens no comment when a line feed comes next. -/
theorem Settled.append_lineFeed {bytes : List UInt8} (settled : Settled bytes)
    (notEmpty : bytes ≠ []) (more : List UInt8) :
    Settled (bytes ++ Byte.lineFeed :: more) := by
  cases bytes with
  | nil => exact absurd rfl notEmpty
  | cons byte tail =>
      rcases settled with ⟨notSpace, notHash, notComment⟩
      refine ⟨notSpace, notHash, fun slash second atHead => ?_⟩
      cases tail with
      | nil =>
          cases atHead
          decide
      | cons other after => exact notComment slash second atHead

/--
More text on a new line moves the end of a gap only if the gap takes all there is; then the gap goes
on with the new line.
-/
theorem rest_append_lineFeed {bytes : List UInt8} (closed : CommentsClosed bytes)
    (more : List UInt8) :
    rest (bytes ++ Byte.lineFeed :: more) =
      if rest bytes = [] then rest more else rest bytes ++ Byte.lineFeed :: more := by
  have newLine : rest (Byte.lineFeed :: more) = rest more := rest_space rfl more
  cases shape bytes with
  | settled gap filler split settled =>
      conv_lhs => rw [split]
      rw [List.append_assoc, rest_append_of_filler filler]
      split_ifs with atEnd
      · rw [atEnd, List.nil_append, newLine]
      · exact rest_of_settled (settled.append_lineFeed atEnd more)
  | trailing trailing =>
      rw [if_pos (rest_of_trailing trailing)]
      rcases trailing with ⟨filler, comment, isFiller, rfl | isOpen, rfl⟩
      · rw [List.append_nil, rest_append_of_filler isFiller, newLine]
      · rw [List.append_assoc, rest_append_of_filler isFiller]
        cases isOpen with
        | block noCloser => exact absurd (closed filler _ rfl) noCloser
        | @line opening body opens inside =>
            have ended : Filler (opening ++ body ++ [Byte.lineFeed]) :=
              .line opens inside rfl .nil
            simpa using rest_append_of_filler ended more

end Gap

/-- How many bytes the source of a place has. -/
def Mark.extent (mark : Mark) : Nat := mark.position.offset + mark.remaining.length

/-- Where a place is follows from what remains there of its source. -/
theorem Mark.remaining_eq_drop {mark : Mark} {source : List UInt8}
    (suffix : mark.remaining <:+ source) (extent : mark.extent = source.length) :
    mark.remaining = source.drop mark.position.offset := by
  have start : mark.position.offset = source.length - mark.remaining.length := by
    rw [Mark.extent] at extent
    omega
  rw [start]
  exact List.suffix_iff_eq_drop.1 suffix

@[simp]
theorem Mark.extent_bump (mark : Mark) (count : Nat) : (mark.bump count).extent = mark.extent := by
  simp only [extent, bump, Position.advance, List.length_take, List.length_drop]
  omega

@[simp]
theorem Mark.extent_skipGap (mark : Mark) : mark.skipGap.extent = mark.extent :=
  Gap.offset_skip .between mark.position mark.remaining

end ThriftIdl
