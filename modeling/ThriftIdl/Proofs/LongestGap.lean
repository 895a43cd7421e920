import ThriftIdl.Proofs.Trace.Gap

/-!
# The longest gap

A gap is a concatenation of parts, which are single blanks and line endings, and whole comments.
Where a part ends may depend on what stands behind it: a line comment goes up to the next line
ending, and a comment without its end goes up to the end of the source. `Part` therefore speaks of
some bytes in front of others.

`Mark.skipGap` passes over the longest gap in front of a place, and counts the line endings in it.
Behind that gap no part begins.
-/

namespace ThriftIdl

namespace Gap

/-- Whether some bytes are one part of a gap in front of the bytes behind them. -/
inductive Part : List UInt8 → List UInt8 → Prop where
  | space {byte : UInt8} (space : Byte.isSpace byte = true) (behind : List UInt8) :
      Part [byte] behind
  /-- The closer is the first one behind the opener. -/
  | block {body : List UInt8} (noCloser : ¬[Byte.star, Byte.slash] <:+: body)
      (behind : List UInt8) :
      Part (Byte.slash :: Byte.star :: (body ++ [Byte.star, Byte.slash])) behind
  | openBlock {body : List UInt8} (noCloser : ¬[Byte.star, Byte.slash] <:+: body) :
      Part (Byte.slash :: Byte.star :: body) []
  /-- The line ending is the first one behind the opener, and it is no part of the comment. -/
  | line {opening body behind : List UInt8}
      (opens : opening = [Byte.hash] ∨ opening = [Byte.slash, Byte.slash])
      (inside : ∀ byte ∈ body, Byte.isLineEnd byte = false)
      (ends : ∀ byte ∈ behind.head?, Byte.isLineEnd byte = true) : Part (opening ++ body) behind

/-- Whether some bytes are a gap in front of the bytes behind them: one part after the other. -/
inductive Parts : List UInt8 → List UInt8 → Prop where
  | nil (behind : List UInt8) : Parts [] behind
  | cons {part others behind : List UInt8} (first : Part part (others ++ behind))
      (parts : Parts others behind) : Parts (part ++ others) behind

/-- Whether bytes begin with a part of a gap. -/
def Begins (bytes : List UInt8) : Prop :=
  ∃ part behind, bytes = part ++ behind ∧ Part part behind

variable {part gap behind bytes body : List UInt8}

/-! ### Where parts begin -/

theorem exists_lineComment {opening : List UInt8}
    (opens : opening = [Byte.hash] ∨ opening = [Byte.slash, Byte.slash]) (body : List UInt8) :
    ∃ inside rest, body = inside ++ rest ∧ Part (opening ++ inside) rest ∧
      ∀ position, Mark.skipGap ⟨position, opening ++ body⟩ =
        Mark.skipGap ⟨position.passAll (opening ++ inside), rest⟩ := by
  rcases exists_line body with ⟨inside, rest, rfl, noLineEnd, ends⟩
  exact ⟨inside, rest, rfl, .line opens noLineEnd ends,
    fun position => Mark.skipGap_lineComment opens noLineEnd ends⟩

theorem closerPlace_append (noCloser : ¬[Byte.star, Byte.slash] <:+: body) (tail : List UInt8) :
    closerPlace (body ++ Byte.star :: Byte.slash :: tail) = some body.length := by
  induction body with
  | nil => rfl
  | cons byte body ih =>
      have notHere := not_closer_of_body noCloser tail
      have noCloserLater : ¬[Byte.star, Byte.slash] <:+: body := mt List.infix_cons noCloser
      rw [List.cons_append, closerPlace, if_neg (mt List.isPrefixOf_iff_prefix.1 notHere),
        ih noCloserLater]
      rfl

theorem closerPlace_eq_none (noCloser : ¬[Byte.star, Byte.slash] <:+: body) :
    closerPlace body = none := by
  induction body with
  | nil => rfl
  | cons byte body ih =>
      have notHere : ¬[Byte.star, Byte.slash] <+: byte :: body := fun closer =>
        noCloser closer.isInfix
      have noCloserLater : ¬[Byte.star, Byte.slash] <:+: body := mt List.infix_cons noCloser
      rw [closerPlace, if_neg (mt List.isPrefixOf_iff_prefix.1 notHere), ih noCloserLater]
      rfl

theorem exists_blockComment (body : List UInt8) :
    ∃ inside rest, body = inside ++ rest ∧ Part (Byte.slash :: Byte.star :: inside) rest ∧
      ∀ position, Mark.skipGap ⟨position, Byte.slash :: Byte.star :: body⟩ =
        Mark.skipGap ⟨position.passAll (Byte.slash :: Byte.star :: inside), rest⟩ := by
  rcases exists_closer body with noCloser | ⟨inside, rest, noCloser, rfl⟩
  · refine ⟨body, [], by simp, .openBlock noCloser, fun position => ?_⟩
    have skipped := skip_block (position.advance 2) body
    rw [closerPlace_eq_none noCloser] at skipped
    exact skipped
  · refine ⟨inside ++ [Byte.star, Byte.slash], rest, by simp, .block noCloser rest,
      fun position => ?_⟩
    have skipped := skip_block (position.advance 2) (inside ++ Byte.star :: Byte.slash :: rest)
    have whole : inside ++ Byte.star :: Byte.slash :: rest =
        inside ++ [Byte.star, Byte.slash] ++ rest := by simp
    have length : inside.length + 2 = (inside ++ [Byte.star, Byte.slash]).length := by simp
    rw [closerPlace_append noCloser] at skipped
    simp only at skipped
    rw [whole, length, List.take_left, List.drop_left, ← whole] at skipped
    exact skipped

/-- A place has no gap in front of it exactly if no part of a gap begins there. -/
theorem settled_iff_not_begins : Settled bytes ↔ ¬Begins bytes := by
  constructor
  · rintro settled ⟨part, behind, rfl, isPart⟩
    cases isPart with
    | space space _ => rw [settled.1] at space; cases space
    | block _ _ => exact (settled.2.2 rfl Byte.star rfl).1 rfl
    | openBlock _ => exact (settled.2.2 rfl Byte.star rfl).1 rfl
    | line opens _ _ =>
        rcases opens with rfl | rfl
        · exact settled.2.1 rfl
        · exact (settled.2.2 rfl Byte.slash rfl).2 rfl
  · intro notBegins
    cases front_cases bytes with
    | settled settled => exact settled
    | @space byte rest split space => exact absurd ⟨[byte], rest, split, .space space rest⟩ notBegins
    | @block body split =>
        rcases exists_blockComment body with ⟨inside, rest, rfl, isPart, -⟩
        exact absurd ⟨_, rest, split, isPart⟩ notBegins
    | @line opening body opens split =>
        rcases exists_lineComment opens body with ⟨inside, rest, rfl, isPart, -⟩
        exact absurd ⟨_, rest, by rw [split, List.append_assoc], isPart⟩ notBegins

/-! ### What is left behind a gap -/

theorem Part.rest_append (isPart : Part part behind) : rest (part ++ behind) = rest behind := by
  cases isPart with
  | space space _ => exact rest_space space behind
  | block noCloser _ =>
      have closed := restIn_block_append noCloser behind
      rw [List.cons_append, List.cons_append, rest_blockOpening, List.append_assoc]
      exact closed
  | openBlock noCloser =>
      rw [List.append_nil, rest_blockOpening, restIn_block_of_not_infix noCloser, rest_nil]
  | line opens inside ends =>
      rw [List.append_assoc, rest_lineComment opens, restIn_line_append inside]
      cases behind with
      | nil => rfl
      | cons byte tail =>
          have isEnd : Byte.isLineEnd byte = true := ends byte rfl
          have isSpace : Byte.isSpace byte = true := by simp [Byte.isSpace, isEnd]
          rw [restIn_line_ending isEnd, rest_space isSpace]

theorem Parts.rest_append (parts : Parts gap behind) : rest (gap ++ behind) = rest behind := by
  induction parts with
  | nil behind => rfl
  | cons first _ ih => rw [List.append_assoc, first.rest_append, ih]

end Gap

namespace Mark

/--
Whether the bytes between two places are a gap behind which no part of a gap begins, and whether the
line endings in it were counted.
-/
structure PassesGap (before : Mark) (gap : List UInt8) (after : Mark) : Prop where
  split : before.remaining = gap ++ after.remaining
  parts : Gap.Parts gap after.remaining
  ends : ¬Gap.Begins after.remaining
  offset : after.position.offset = before.position.offset + gap.length
  lineFeeds : after.position.lineFeeds = before.position.lineFeeds + gap.count Byte.lineFeed
  carriageReturns : after.position.carriageReturns =
    before.position.carriageReturns + gap.count Byte.carriageReturn

namespace PassesGap

variable {before after : Mark} {gap part rest : List UInt8} {position : Position}

theorem cons (first : Gap.Part part rest)
    (passes : PassesGap ⟨position.passAll part, rest⟩ gap after) :
    PassesGap ⟨position, part ++ rest⟩ (part ++ gap) after := by
  rcases passes with ⟨split, parts, ends, offset, lineFeeds, carriageReturns⟩
  rw [Position.passAll_eq] at offset lineFeeds carriageReturns
  simp only at split
  subst split
  refine ⟨(List.append_assoc _ _ _).symm, .cons first parts, ends, ?_, ?_, ?_⟩
  · rw [offset, List.length_append, Nat.add_assoc]
  · rw [lineFeeds, List.count_append, Nat.add_assoc]
  · rw [carriageReturns, List.count_append, Nat.add_assoc]

/-- No gap that begins at the place is longer. -/
theorem maximal (passes : before.PassesGap gap after) {other behind : List UInt8}
    (split : before.remaining = other ++ behind) (parts : Gap.Parts other behind) :
    other <+: gap := by
  have settled := Gap.settled_iff_not_begins.2 passes.ends
  have sameRest : after.remaining = Gap.rest behind := by
    rw [← parts.rest_append, ← split, passes.split, passes.parts.rest_append,
      Gap.rest_of_settled settled]
  have shorter : other.length ≤ gap.length := by
    have lengths := congrArg List.length (passes.split.symm.trans split)
    have restLength := Gap.rest_length_le behind
    rw [List.length_append, List.length_append, sameRest] at lengths
    omega
  have ofOther : other <+: before.remaining := ⟨behind, split.symm⟩
  have ofGap : gap <+: before.remaining := ⟨after.remaining, passes.split.symm⟩
  exact List.prefix_of_prefix_length_le ofOther ofGap shorter

theorem anchored (passes : before.PassesGap gap after) {source : List UInt8} {start : Nat}
    (anchored : before.Anchored source start) : after.Anchored source start :=
  anchored.move passes.split passes.offset

end PassesGap

/-- Part by part, the longest gap is passed over. -/
theorem exists_passesGap_skipGap (mark : Mark) : ∃ gap, mark.PassesGap gap mark.skipGap := by
  induction length : mark.remaining.length using Nat.strong_induction_on generalizing mark with
  | _ count ih =>
      rcases mark with ⟨position, bytes⟩
      have behindPart : ∀ {part rest : List UInt8}, bytes = part ++ rest → part ≠ [] →
          Gap.Part part rest →
          Mark.skipGap ⟨position, bytes⟩ = Mark.skipGap ⟨position.passAll part, rest⟩ →
            ∃ gap, PassesGap ⟨position, bytes⟩ gap (Mark.skipGap ⟨position, bytes⟩) := by
        rintro part rest rfl notEmpty isPart same
        have shorter : rest.length < count := by
          rw [← length, List.length_append]
          exact Nat.lt_add_of_pos_left (List.length_pos_iff.2 notEmpty)
        rcases ih _ shorter ⟨position.passAll part, rest⟩ rfl with ⟨gap, passes⟩
        rw [same]
        exact ⟨part ++ gap, passes.cons isPart⟩
      cases Gap.front_cases bytes with
      | settled settled =>
          rw [skipGap_of_settled settled]
          exact ⟨[], rfl, .nil _, Gap.settled_iff_not_begins.1 settled, rfl, rfl, rfl⟩
      | @space byte rest split space =>
          subst split
          exact behindPart rfl (List.cons_ne_nil _ _) (.space space rest) (skipGap_space space)
      | @block body split =>
          subst split
          rcases Gap.exists_blockComment body with ⟨inside, rest, rfl, isPart, same⟩
          exact behindPart rfl (List.cons_ne_nil _ _) isPart (same position)
      | @line opening body opens split =>
          subst split
          rcases Gap.exists_lineComment opens body with ⟨inside, rest, rfl, isPart, same⟩
          have notEmpty : opening ++ inside ≠ [] := by rcases opens with rfl | rfl <;> simp
          exact behindPart (List.append_assoc _ _ _).symm notEmpty isPart (same position)

/-- Behind a gap that was passed over there is no other one. -/
theorem skipGap_skipGap (mark : Mark) : mark.skipGap.skipGap = mark.skipGap := by
  rcases mark.exists_passesGap_skipGap with ⟨gap, passes⟩
  exact skipGap_of_settled (Gap.settled_iff_not_begins.2 passes.ends)

end Mark

namespace Cursor

/--
Skipping a gap passes over the longest gap in front of the cursor and over nothing else. It counts
the line feeds and the carriage returns in this gap, it leaves the saved places and the furthest
failure alone, and where it ends, it has nothing to skip.
-/
theorem skipGap_longest (cursor : Cursor) :
    ∃ gap, cursor.mark.PassesGap gap cursor.skipGap.mark ∧
      (∀ other behind, cursor.remaining = other ++ behind → Gap.Parts other behind →
        other <+: gap) ∧
      (∀ start, cursor.mark.Anchored cursor.source start →
        cursor.skipGap.mark.Anchored cursor.source start) ∧
      cursor.skipGap.source = cursor.source ∧
      cursor.skipGap.checkpoints = cursor.checkpoints ∧
      cursor.skipGap.furthest = cursor.furthest ∧
      cursor.skipGap.skipGap = cursor.skipGap := by
  rcases cursor.mark.exists_passesGap_skipGap with ⟨gap, passes⟩
  refine ⟨gap, passes, ?_, fun start => passes.anchored, rfl, rfl, rfl, ?_⟩
  · intro other behind split parts
    exact passes.maximal split parts
  · exact congrArg (fun mark => { cursor with mark }) cursor.mark.skipGap_skipGap

/--
The slash of an opener does not close the comment, and behind the last comment the slash alone opens
none.
-/
theorem skipGap_longest_comment :
    let cursor := Cursor.startAt (Utf8.encode "/*/\n*/\r\n#b\n/c") 0
    ∃ gap, cursor.mark.PassesGap gap cursor.skipGap.mark ∧ Utf8.encode "/*/\n*/" <+: gap ∧
      cursor.skipGap.mark.Anchored cursor.source 0 ∧
      cursor.skipGap.mark = ⟨⟨11, 3, 1⟩, Utf8.encode "/c"⟩ := by
  intro cursor
  rcases skipGap_longest cursor with ⟨gap, passes, longest, anchored, -⟩
  have noCloser : ¬[Byte.star, Byte.slash] <:+: [Byte.slash, Byte.lineFeed] := by decide
  have comment : Gap.Parts (Utf8.encode "/*/\n*/" ++ []) (Utf8.encode "\r\n#b\n/c") :=
    .cons (.block noCloser _) (.nil _)
  have split : cursor.remaining = (Utf8.encode "/*/\n*/" ++ []) ++ Utf8.encode "\r\n#b\n/c" := by
    decide +kernel
  have opens : cursor.mark.Anchored cursor.source 0 :=
    ⟨Nat.le_refl 0, by decide +kernel, by decide +kernel⟩
  exact ⟨gap, passes, longest _ _ split comment, anchored 0 opens, by decide +kernel⟩

end Cursor

end ThriftIdl
