import ThriftIdl.Proofs.Trace.Performs
import ThriftIdl.Proofs.Trace.Scanner

/-!
# Gaps step by step

`Gap.skip` goes through comments byte by byte, and the procedure jumps to their ends. Both come to
the same place and count the same line endings, and in front of a line ending, behind the closer of
a comment and at the end of the source nobody is inside a character.
-/

namespace ThriftIdl

theorem Byte.ascii_of_isLineEnd {byte : UInt8} (ends : isLineEnd byte = true) : byte < 0x80 := by
  grind [isLineEnd]

namespace Position

theorem foldl_record (position : Position) (bytes : List UInt8) :
    bytes.foldl record position = ⟨position.offset,
      position.lineFeeds + bytes.count Byte.lineFeed,
      position.carriageReturns + bytes.count Byte.carriageReturn⟩ := by
  induction bytes generalizing position with
  | nil => rfl
  | cons byte rest ih =>
      rw [List.foldl_cons, ih, record_eq, count_cons_eq _ byte rest, count_cons_eq _ byte rest]
      simp only [Nat.add_assoc]

/-- Counting the line endings and jumping behind all bytes is passing over them. -/
theorem jumpTo_foldl_record (position : Position) (bytes : List UInt8) :
    ((bytes.filter Byte.isLineEnd).foldl record position).jumpTo
      (position.offset + bytes.length) = position.passAll bytes := by
  rw [foldl_record, passAll_eq, List.count_filter rfl, List.count_filter rfl]
  rfl

end Position

namespace Gap

/-- A line comment divides at its line ending, or has none. -/
theorem exists_line (body : List UInt8) :
    ∃ inside rest, body = inside ++ rest ∧ (∀ byte ∈ inside, Byte.isLineEnd byte = false) ∧
      ∀ byte ∈ rest.head?, Byte.isLineEnd byte = true := by
  rcases exists_lineEnd body with none | ⟨inside, ending, tail, noLineEnd, ends, rfl⟩
  · exact ⟨body, [], by simp, none, by simp⟩
  · exact ⟨inside, ending :: tail, rfl, noLineEnd, by simpa using ends⟩

section Line

variable {inside rest : List UInt8} (noLineEnd : ∀ byte ∈ inside, Byte.isLineEnd byte = false)
  (ends : ∀ byte ∈ rest.head?, Byte.isLineEnd byte = true)

include noLineEnd ends

theorem findIdx_line : (inside ++ rest).findIdx Byte.isLineEnd = inside.length := by
  have none : inside.findIdx Byte.isLineEnd = inside.length := List.findIdx_eq_length.2 noLineEnd
  have first : rest.findIdx Byte.isLineEnd = 0 := by
    cases rest with
    | nil => rfl
    | cons byte tail => simp [List.findIdx_cons, ends byte rfl]
  rw [List.findIdx_append, none, if_neg (Nat.lt_irrefl _), first, Nat.zero_add]

/-- A line comment is passed over up to its line ending. -/
theorem skip_line (position : Position) :
    skip .line position (inside ++ rest) = skip .between (position.passAll inside) rest := by
  induction inside generalizing position with
  | nil =>
      cases rest with
      | nil => rfl
      | cons byte tail =>
          rw [List.nil_append, skip.eq_def, skip.eq_def .between]
          simp [ends byte rfl, Position.passAll]
  | cons byte others ih =>
      have inLine := noLineEnd byte (by simp)
      have advanced : position.pass byte = position.advance 1 :=
        position.passAll_eq_advance (show ∀ other ∈ [byte], _ from by simpa using inLine)
      rw [List.cons_append, skip.eq_def, Position.passAll_cons, advanced]
      simp only [inLine, Bool.false_eq_true, if_false]
      exact ih (fun other mem => noLineEnd other (by simp [mem])) _

end Line

/-- A block comment is passed over together with its closer, or up to the end. -/
theorem skip_block (position : Position) (body : List UInt8) :
    skip .block position body =
      match closerPlace body with
      | some place =>
        skip .between (position.passAll (body.take (place + 2))) (body.drop (place + 2))
      | none => ⟨position.passAll body, []⟩ := by
  induction body generalizing position with
  | nil => rfl
  | cons byte rest ih =>
      cases rest with
      | nil => simp [skip, closerPlace, Position.passAll]
      | cons second after =>
          rw [skip.eq_def, closerPlace]
          by_cases closer : byte = Byte.star ∧ second = Byte.slash
          · rcases closer with ⟨rfl, rfl⟩
            rfl
          · have noCloser : [Byte.star, Byte.slash].isPrefixOf (byte :: second :: after) = false := by
              rw [Bool.eq_false_iff, ne_eq, List.isPrefixOf_iff_prefix]
              rintro ⟨tail, same⟩
              cases same
              exact closer ⟨rfl, rfl⟩
            simp only [if_neg closer, noCloser, Bool.false_eq_true, if_false, ih]
            cases closerPlace (second :: after) <;> rfl

/-- The place of a closer divides the bytes there. -/
theorem split_of_closerPlace {body : List UInt8} {place : Nat} (closed : closerPlace body = some place) :
    ∃ inside tail, body = inside ++ Byte.star :: Byte.slash :: tail ∧ inside.length = place := by
  induction body generalizing place with
  | nil => cases closed
  | cons byte rest ih =>
      rw [closerPlace] at closed
      split_ifs at closed with closer
      · cases closed
        rcases List.isPrefixOf_iff_prefix.1 closer with ⟨tail, split⟩
        exact ⟨[], tail, split.symm, rfl⟩
      · rcases Option.map_eq_some_iff.1 closed with ⟨later, closedLater, rfl⟩
        rcases ih closedLater with ⟨inside, tail, rfl, length⟩
        exact ⟨byte :: inside, tail, rfl, congrArg (· + 1) length⟩

/-- How a block comment divides behind its opener: without a closer it has all the bytes. -/
structure Block (body inside closer rest : List UInt8) : Prop where
  split : body = inside ++ (closer ++ rest)
  extent : blockExtent body = (inside.length, closer.length)
  closed : closer = [Byte.star, Byte.slash] ∨ closer = [] ∧ rest = []
  skip (position : Position) :
    skip .block position body = skip .between (position.passAll (inside ++ closer)) rest

theorem exists_block (body : List UInt8) : ∃ inside closer rest, Block body inside closer rest := by
  have skipped := fun position => skip_block position body
  cases found : closerPlace body with
  | none =>
      simp only [found] at skipped
      refine ⟨body, [], [], by simp, by simp [blockExtent, found], .inr ⟨rfl, rfl⟩, ?_⟩
      intro position
      rw [skipped, List.append_nil]
      rfl
  | some place =>
      rcases split_of_closerPlace found with ⟨inside, tail, rfl, rfl⟩
      have whole : inside ++ Byte.star :: Byte.slash :: tail =
          inside ++ [Byte.star, Byte.slash] ++ tail := by simp
      have length : inside.length + 2 = (inside ++ [Byte.star, Byte.slash]).length := by simp
      simp only [found] at skipped
      refine ⟨inside, [Byte.star, Byte.slash], tail, rfl, by simp [blockExtent, found], .inl rfl, ?_⟩
      intro position
      rw [skipped, whole, length, List.take_left, List.drop_left]

namespace Block

variable {body inside closer rest : List UInt8}

/-- The line endings of a block comment are those inside. -/
theorem filter_isLineEnd (block : Block body inside closer rest) :
    (Byte.slash :: Byte.star :: (inside ++ closer)).filter Byte.isLineEnd =
      inside.filter Byte.isLineEnd := by
  have slash : Byte.isLineEnd Byte.slash = false := rfl
  have star : Byte.isLineEnd Byte.star = false := rfl
  rcases block.closed with rfl | ⟨rfl, -⟩
  · simp [slash, star]
  · simp [slash, star]

theorem valid (block : Block body inside closer rest)
    (valid : Utf8.Valid (Byte.slash :: Byte.star :: (inside ++ closer) ++ rest)) :
    Utf8.Valid rest := by
  rcases block.closed with rfl | ⟨-, rfl⟩
  · have cut : Byte.slash :: Byte.star :: (inside ++ [Byte.star, Byte.slash]) ++ rest =
        Byte.slash :: Byte.star :: (inside ++ [Byte.star]) ++ Byte.slash :: rest := by simp
    rw [cut] at valid
    exact (valid.of_append_cons (by decide)).2
  · exact Utf8.valid_nil

end Block

/-- The places of line endings lie among the bytes, and the line endings are there. -/
theorem lineEndPlaces_spec (front inside back : List UInt8) :
    (∀ place ∈ lineEndPlaces front.length inside, place < (front ++ inside ++ back).length) ∧
      (lineEndPlaces front.length inside).map (fun place => (front ++ inside ++ back).getD place 0) =
        inside.filter Byte.isLineEnd := by
  induction inside generalizing front with
  | nil => exact ⟨by simp [lineEndPlaces], rfl⟩
  | cons byte rest ih =>
      have later := ih (front ++ [byte])
      have whole : front ++ byte :: rest ++ back = front ++ [byte] ++ rest ++ back := by simp
      have here : (front ++ [byte] ++ rest ++ back).getD front.length 0 = byte := by simp
      rw [List.length_append, List.length_singleton, ← whole] at later
      rw [lineEndPlaces, List.filter_cons]
      split_ifs with ends
      · refine ⟨?_, ?_⟩
        · intro place mem
          rcases List.mem_cons.1 mem with rfl | mem
          · simp
          · exact later.1 place mem
        · rw [List.map_cons, later.2, whole, here]
      · exact later

end Gap

namespace Procedure

variable {source : List UInt8} {start : Nat} {state : State}

theorem performs_lookAt {bytes : List UInt8} {places : List Nat}
    (inside : ∀ place ∈ places, place < bytes.length) :
    (lookAt bytes places).Performs source start state
      (.done (places.map fun place => bytes.getD place 0) state) := by
  induction places with
  | nil => exact performs_pure _ _
  | cons place places ih =>
      have proper : Event.Proper source start ⟨state, .index bytes.length place⟩ :=
        .of_allowed (inside place (by simp)) rfl rfl
      have others := ih fun other mem => inside other (by simp [mem])
      exact (performs_perform proper).bind (others.bind (performs_pure _ _))

/-- A jump over bytes whose line endings are counted. -/
theorem performs_jump (sound : state.Sound source start) {chunk rest : List UInt8}
    (split : state.cursor.remaining = chunk ++ rest)
    (valid : Utf8.Valid (chunk ++ rest) → Utf8.Valid rest) :
    (perform (.jump (state.cursor.offset + chunk.length)
        (chunk.filter Byte.isLineEnd))).Performs source start state
      (.done () (state.mapMark fun mark => ⟨mark.position.passAll chunk, rest⟩)) := by
  have length := sound.length
  rw [split, List.length_append] at length
  have behind : source.drop (state.cursor.offset + chunk.length) = rest := by
    rw [← List.drop_drop, ← sound.remaining, split, List.drop_left]
  have place : state.cursor.mark.jump state.cursor.source (state.cursor.offset + chunk.length)
      (chunk.filter Byte.isLineEnd) = ⟨state.cursor.position.passAll chunk, rest⟩ := by
    rw [sound.sameSource, Mark.jump, behind]
    exact congrArg (Mark.mk · rest) (Position.jumpTo_foldl_record state.cursor.position chunk)
  have proper : Event.Proper source start ⟨state, .jump (state.cursor.offset + chunk.length)
      (chunk.filter Byte.isLineEnd)⟩ := by
    refine ⟨⟨Nat.le_add_right _ _, ?_⟩, fun _ => ?_, nofun, nofun⟩
    · rw [sound.sameSource, ← length]
      omega
    · change state.cursor.mark.Moves source start (Mark.jump _ _ _ _)
      rw [place]
      refine .counting chunk split rfl ?_
      change Utf8.Valid state.cursor.remaining → _
      rwa [split]
  have jumped := performs_perform proper
  have same : Operation.apply state (.jump (state.cursor.offset + chunk.length)
      (chunk.filter Byte.isLineEnd)) =
        state.mapMark fun mark => ⟨mark.position.passAll chunk, rest⟩ := by
    simp only [Operation.apply, State.mapMark, State.mapCursor, place]
    rfl
  rwa [same] at jumped

/-- A jump over a block comment ends behind its closer or at the end. -/
theorem performs_blockComment (sound : state.Sound source start)
    {body inside closer rest : List UInt8}
    (opens : state.cursor.remaining = Byte.slash :: Byte.star :: body)
    (block : Gap.Block body inside closer rest) :
    blockComment.Performs source start state (.done () (state.mapMark fun mark =>
      ⟨mark.position.passAll (Byte.slash :: Byte.star :: (inside ++ closer)), rest⟩)) := by
  have fits : 2 ≤ state.cursor.remaining.length := by simp [opens]
  have behind : state.cursor.remaining.drop 2 = body := by rw [opens]; rfl
  have sliced : (slice state.cursor.remaining 2).Performs source start state _ :=
    performs_slice fits state
  rw [behind] at sliced
  have insideFits : inside.length ≤ body.length := by simp [block.split]
  have between : (sliceBetween body 0 inside.length).Performs source start state _ :=
    performs_sliceBetween (Nat.zero_le _) insideFits state
  have content : body.take inside.length = inside := by rw [block.split, List.take_left]
  rw [List.drop_zero, content] at between
  have places := Gap.lineEndPlaces_spec [] inside (closer ++ rest)
  simp only [List.nil_append, ← block.split] at places
  have looked : (lookAt body (Gap.lineEndPlaces 0 inside)).Performs source start state _ :=
    performs_lookAt places.1
  have sameLineEnds := places.2
  simp only [List.length_nil] at sameLineEnds
  rw [sameLineEnds] at looked
  have split : state.cursor.remaining = Byte.slash :: Byte.star :: (inside ++ closer) ++ rest := by
    rw [opens, block.split]
    simp
  have jumped := performs_jump sound split block.valid
  have length : state.cursor.offset + 2 + inside.length + closer.length =
      state.cursor.offset + (Byte.slash :: Byte.star :: (inside ++ closer)).length := by
    simp only [List.length_cons, List.length_append]
    omega
  rw [block.filter_isLineEnd, ← length] at jumped
  refine (performs_remaining sound).bind (sliced.bind ?_)
  simp only [block.extent]
  exact between.bind (looked.bind ((performs_offset state).bind jumped))

/-- A jump over an opener and a line comment ends in front of a line ending or at the end. -/
theorem performs_lineComment (sound : state.Sound source start) {opener inside rest : List UInt8}
    (opens : state.cursor.remaining = opener ++ (inside ++ rest))
    (inline : ∀ byte ∈ opener, Byte.isInline byte = true)
    (noLineEnd : ∀ byte ∈ inside, Byte.isLineEnd byte = false)
    (ends : ∀ byte ∈ rest.head?, Byte.isLineEnd byte = true) :
    (lineComment opener.length).Performs source start state
      (.done () (state.mapMark fun mark => ⟨mark.position.passAll (opener ++ inside), rest⟩)) := by
  have fits : opener.length ≤ state.cursor.remaining.length := by simp [opens]
  have behind : state.cursor.remaining.drop opener.length = inside ++ rest := by
    rw [opens, List.drop_left]
  have sliced : (slice state.cursor.remaining opener.length).Performs source start state _ :=
    performs_slice fits state
  rw [behind] at sliced
  have noneCounted : (opener ++ inside).filter Byte.isLineEnd = [] := by
    refine List.filter_eq_nil_iff.2 fun byte mem isEnd => ?_
    rcases List.mem_append.1 mem with mem | mem
    · have isInline := inline byte mem
      grind [Byte.isInline]
    · rw [noLineEnd byte mem] at isEnd
      cases isEnd
  have valid : Utf8.Valid (opener ++ inside ++ rest) → Utf8.Valid rest := by
    intro valid
    cases rest with
    | nil => exact Utf8.valid_nil
    | cons byte tail => exact valid.of_append_cons_ascii (Byte.ascii_of_isLineEnd (ends byte rfl))
  have split : state.cursor.remaining = opener ++ inside ++ rest := by rw [opens, List.append_assoc]
  have jumped := performs_jump sound split valid
  rw [noneCounted, List.length_append, ← Nat.add_assoc, ← Gap.findIdx_line noLineEnd ends] at jumped
  exact (performs_remaining sound).bind (sliced.bind ((performs_offset state).bind jumped))

end Procedure

namespace Mark

variable {position : Position} {inside rest : List UInt8}

theorem skipGap_space {byte : UInt8} (space : Byte.isSpace byte = true) :
    Mark.skipGap ⟨position, byte :: rest⟩ = Mark.skipGap ⟨position.pass byte, rest⟩ := by
  unfold Byte.isSpace at space
  rw [Mark.skipGap, Gap.skip.eq_def]
  simp only [space, if_true]
  rfl

theorem skipGap_lineComment {opener : List UInt8}
    (opens : opener = [Byte.hash] ∨ opener = [Byte.slash, Byte.slash])
    (noLineEnd : ∀ byte ∈ inside, Byte.isLineEnd byte = false)
    (ends : ∀ byte ∈ rest.head?, Byte.isLineEnd byte = true) :
    Mark.skipGap ⟨position, opener ++ (inside ++ rest)⟩ =
      Mark.skipGap ⟨position.passAll (opener ++ inside), rest⟩ := by
  rw [Position.passAll_append]
  rcases opens with rfl | rfl
  · rw [Mark.skipGap, List.singleton_append, Gap.skip.eq_def]
    exact Gap.skip_line noLineEnd ends (position.advance 1)
  · exact Gap.skip_line noLineEnd ends (position.advance 2)

theorem skipGap_blockComment {body closer : List UInt8} (block : Gap.Block body inside closer rest) :
    Mark.skipGap ⟨position, Byte.slash :: Byte.star :: body⟩ =
      Mark.skipGap ⟨position.passAll (Byte.slash :: Byte.star :: (inside ++ closer)), rest⟩ :=
  block.skip (position.advance 2)

theorem skipGap_of_settled {bytes : List UInt8} (settled : Gap.Settled bytes) :
    Mark.skipGap ⟨position, bytes⟩ = ⟨position, bytes⟩ := by
  rw [Mark.skipGap]
  cases bytes with
  | nil => rfl
  | cons byte tail =>
      rcases settled with ⟨notSpace, notHash, notComment⟩
      unfold Byte.isSpace at notSpace
      rw [Gap.skip.eq_def]
      simp only [notSpace, notHash, Bool.false_eq_true, if_false]
      split_ifs with slash
      · cases tail with
        | nil => rfl
        | cons second after =>
            rcases notComment slash second rfl with ⟨notStar, notSlash⟩
            simp only [if_neg notStar, if_neg notSlash]
      · rfl

end Mark

namespace Gap

/-- With what bytes may begin that stand behind a token. -/
inductive Front (bytes : List UInt8) : Prop where
  | settled (settled : Settled bytes)
  | space {byte : UInt8} {rest : List UInt8} (split : bytes = byte :: rest)
      (space : Byte.isSpace byte = true)
  | block {body : List UInt8} (split : bytes = Byte.slash :: Byte.star :: body)
  | line {opener body : List UInt8} (opens : opener = [Byte.hash] ∨ opener = [Byte.slash, Byte.slash])
      (split : bytes = opener ++ body)

theorem front_cases (bytes : List UInt8) : Front bytes := by
  match bytes with
  | [] => exact .settled trivial
  | byte :: rest =>
      cases space : Byte.isSpace byte with
      | true => exact .space rfl space
      | false =>
          by_cases hash : byte = Byte.hash
          · exact .line (.inl rfl) (congrArg (· :: rest) hash)
          · by_cases comment : ∃ second ∈ rest.head?, byte = Byte.slash ∧
                (second = Byte.star ∨ second = Byte.slash)
            · rcases comment with ⟨second, head, rfl, opens⟩
              obtain ⟨body, rfl⟩ : ∃ body, rest = second :: body :=
                ⟨_, List.eq_cons_of_mem_head? head⟩
              rcases opens with rfl | rfl
              · exact .block rfl
              · exact .line (.inr rfl) rfl
            · refine .settled ⟨space, hash, fun slash second head => ?_⟩
              exact not_or.1 fun opens => comment ⟨second, head, slash, opens⟩

/-- What comes of the attempt to pass over one part of a gap. -/
inductive PassesPart (mark : Mark) : Bool → Mark → Prop where
  /-- The rest of the gap is behind the part. -/
  | part {after : Mark} (shorter : after.remaining.length < mark.remaining.length)
      (same : after.skipGap = mark.skipGap) : PassesPart mark true after
  /-- The gap is over. -/
  | finished (settled : mark.skipGap = mark) : PassesPart mark false mark

end Gap

namespace Procedure

variable {source : List UInt8} {start : Nat} {state : State}

/-- No line ending is looked for in a blank, and none is there. -/
theorem performs_blank (sound : state.Sound source start) {byte : UInt8} {rest : List UInt8}
    (bytes : state.cursor.remaining = byte :: rest) (blank : Byte.isBlank byte = true) :
    (bump 1).Performs source start state
      (.done () (state.mapMark fun mark => ⟨mark.position.pass byte, rest⟩)) := by
  have isInline : Byte.isInline byte = true := by
    grind [Byte.isInline, Byte.isBlank, Byte.isLineEnd]
  have noLineEnd : Byte.isLineEnd byte = false := by
    grind [Byte.isBlank, Byte.isLineEnd]
  have remaining : state.cursor.mark.remaining = byte :: rest := bytes
  have fits : 1 ≤ state.cursor.remaining.length := by simp [bytes]
  have inline : ∀ other ∈ state.cursor.mark.remaining.take 1, Byte.isInline other = true := by
    simpa [remaining] using isInline
  have advanced : state.cursor.mark.position.pass byte = state.cursor.mark.position.advance 1 :=
    Position.passAll_eq_advance _ (show ∀ other ∈ [byte], _ from by simpa using noLineEnd)
  have place : state.cursor.mark.bump 1 = ⟨state.cursor.mark.position.pass byte, rest⟩ := by
    rw [advanced, Mark.bump, remaining]
    rfl
  have bumped := performs_bump sound fits (.bump_inline inline)
  simpa only [State.mapMark, State.mapCursor, Cursor.bump, place] using bumped

theorem performs_pass (sound : state.Sound source start) {byte : UInt8} {rest : List UInt8}
    (bytes : state.cursor.remaining = byte :: rest) (ends : Byte.isLineEnd byte = true) :
    (perform (.pass byte)).Performs source start state
      (.done () (state.mapMark fun mark => ⟨mark.position.pass byte, rest⟩)) := by
  have remaining : state.cursor.mark.remaining = byte :: rest := bytes
  have place : state.cursor.mark.pass byte = ⟨state.cursor.mark.position.pass byte, rest⟩ := by
    rw [Mark.pass, Mark.bump, remaining]
    rfl
  have proper : Event.Proper source start ⟨state, .pass byte⟩ := by
    refine ⟨?_, fun _ => ?_, ?_, ?_⟩
    · change state.cursor.offset + 1 ≤ state.cursor.source.length
      rw [sound.sameSource, ← sound.length, bytes, List.length_cons]
      omega
    · change state.cursor.mark.Moves source start (state.cursor.mark.pass byte)
      rw [place]
      refine .counting [byte] remaining rfl ?_
      rw [remaining]
      exact fun valid => valid.tail (Byte.ascii_of_isLineEnd ends)
    · intro offset isText
      cases isText
    · intro offset isDecoding
      cases isDecoding
  have passed := performs_perform proper
  simpa only [Operation.apply, State.mapMark, State.mapCursor, place] using passed

/-- A part of a gap is chosen by the two bytes in front. -/
theorem performs_peeks (sound : state.Sound source start) {outcome : Outcome Bool}
    {next : Option UInt8 → Option UInt8 → Procedure Bool}
    (others : (next state.cursor.remaining[0]? state.cursor.remaining[1]?).Performs source start
      state outcome) :
    (do next (← peekAhead 0) (← peekAhead 1)).Performs source start state outcome :=
  (performs_peekAhead sound 0).bind ((performs_peekAhead sound 1).bind others)

theorem performs_gapPart_of_settled (sound : state.Sound source start)
    (settled : Gap.Settled state.cursor.remaining) :
    gapPart.Performs source start state (.done false state) := by
  refine performs_peeks sound ?_
  cases bytes : state.cursor.remaining with
  | nil => exact performs_pure _ _
  | cons byte rest =>
      rw [bytes] at settled
      rcases settled with ⟨notSpace, notHash, notComment⟩
      simp only [Byte.isSpace, Bool.or_eq_false_iff] at notSpace
      have noOpener : ∀ second, second = Byte.star ∨ second = Byte.slash →
          ¬(byte = Byte.slash ∧ rest[0]? = some second) := by
        rintro second opens ⟨slash, head⟩
        have differ := notComment slash second (List.head?_eq_getElem? ▸ head)
        exact opens.elim differ.1 differ.2
      simp only [List.getElem?_cons_zero, List.getElem?_cons_succ, notSpace, notHash,
        noOpener _ (.inl rfl), noOpener _ (.inr rfl), Bool.false_eq_true, if_false]
      exact performs_pure _ _

theorem performs_gapPart_of_space (sound : state.Sound source start) {byte : UInt8}
    {rest : List UInt8} (bytes : state.cursor.remaining = byte :: rest)
    (space : Byte.isSpace byte = true) :
    gapPart.Performs source start state
      (.done true (state.mapMark fun mark => ⟨mark.position.pass byte, rest⟩)) := by
  refine performs_peeks sound ?_
  rw [bytes]
  simp only [List.getElem?_cons_zero]
  split_ifs with blank lineEnd
  · exact (performs_blank sound bytes blank).bind (performs_pure _ _)
  · exact (performs_remaining sound).bind
      ((performs_pass sound bytes lineEnd).bind (performs_pure _ _))
  all_goals simp [Byte.isSpace, blank, lineEnd] at space

theorem performs_gapPart_of_lineComment (sound : state.Sound source start)
    {opener inside rest : List UInt8}
    (opens : opener = [Byte.hash] ∨ opener = [Byte.slash, Byte.slash])
    (bytes : state.cursor.remaining = opener ++ (inside ++ rest))
    (noLineEnd : ∀ byte ∈ inside, Byte.isLineEnd byte = false)
    (ends : ∀ byte ∈ rest.head?, Byte.isLineEnd byte = true) :
    gapPart.Performs source start state (.done true
      (state.mapMark fun mark => ⟨mark.position.passAll (opener ++ inside), rest⟩)) := by
  have inline : ∀ byte ∈ opener, Byte.isInline byte = true := by
    have hash : Byte.isInline Byte.hash = true := rfl
    have slash : Byte.isInline Byte.slash = true := rfl
    rcases opens with rfl | rfl
    · simp [hash]
    · simp [slash]
  have passed := performs_lineComment sound bytes inline noLineEnd ends
  refine performs_peeks sound ?_
  rw [bytes]
  rcases opens with rfl | rfl
  · exact passed.bind (performs_pure _ _)
  · exact passed.bind (performs_pure _ _)

/-- Either a part of the gap is passed over and the rest of the gap is behind it, or there is none. -/
theorem exists_performs_gapPart (sound : state.Sound source start) :
    ∃ goesOn place, Gap.PassesPart state.cursor.mark goesOn place ∧
      gapPart.Performs source start state (.done goesOn (state.mapMark fun _ => place)) := by
  have mark : state.cursor.mark = ⟨state.cursor.position, state.cursor.remaining⟩ := rfl
  cases Gap.front_cases state.cursor.remaining with
  | settled settled =>
      refine ⟨false, state.cursor.mark, .finished ?_, performs_gapPart_of_settled sound settled⟩
      rw [mark, Mark.skipGap_of_settled settled]
  | @space byte rest bytes space =>
      refine ⟨true, ⟨state.cursor.position.pass byte, rest⟩, .part ?_ ?_,
        performs_gapPart_of_space sound bytes space⟩
      · simp [mark, bytes]
      · rw [mark, bytes, Mark.skipGap_space space]
  | @block body bytes =>
      rcases Gap.exists_block body with ⟨inside, closer, rest, block⟩
      refine ⟨true, ⟨state.cursor.position.passAll (Byte.slash :: Byte.star :: (inside ++ closer)),
        rest⟩, .part ?_ ?_, performs_peeks sound ?_⟩
      · simp only [mark, bytes, block.split, List.length_cons, List.length_append]
        omega
      · rw [mark, bytes, Mark.skipGap_blockComment block]
      · rw [bytes]
        exact (performs_blockComment sound bytes block).bind (performs_pure _ _)
  | @line opener body opens bytes =>
      rcases Gap.exists_line body with ⟨inside, rest, rfl, noLineEnd, ends⟩
      refine ⟨true, ⟨state.cursor.position.passAll (opener ++ inside), rest⟩, .part ?_ ?_,
        performs_gapPart_of_lineComment sound opens bytes noLineEnd ends⟩
      · have notEmpty : 0 < opener.length := by rcases opens with rfl | rfl <;> simp
        simp only [mark, bytes, List.length_append]
        omega
      · rw [mark, bytes, Mark.skipGap_lineComment opens noLineEnd ends]

/-- Passing over a gap part by part leads behind all of it. -/
theorem performs_skipGap (sound : state.Sound source start) :
    skipGap.Performs source start state (.done () (state.mapCursor Cursor.skipGap)) := by
  -- A part that is passed over takes bytes, so the induction is on how many remain.
  induction length : state.remainingLength using Nat.strong_induction_on generalizing state with
  | _ count ih =>
      rcases exists_performs_gapPart sound with ⟨goesOn, place, passes, performs⟩
      have soundAfter := performs.sound sound
      have steps := gap.eq_def state
      rcases performs with ⟨result, run⟩
      generalize gapPart state = traced at result run steps
      rcases traced with ⟨events, _⟩
      cases result
      cases passes with
      | finished settled =>
          have stays : state.mapCursor Cursor.skipGap = state.mapMark fun _ => state.cursor.mark := by
            simp only [State.mapMark, State.mapCursor, Cursor.skipGap, settled]
          rw [stays]
          constructor
          · change (gap state).result = _
            rw [steps]
          · change Run source start state (gap state).events _
            rw [steps]
            exact run
      | part shorter same =>
          have fewer : (state.mapMark fun _ => place).remainingLength < state.remainingLength :=
            shorter
          have others : skipGap.Performs source start (state.mapMark fun _ => place) _ :=
            ih _ (length ▸ fewer) soundAfter rfl
          have goesOn : (state.mapMark fun _ => place).mapCursor Cursor.skipGap =
              state.mapCursor Cursor.skipGap := by
            simp only [State.mapMark, State.mapCursor, Cursor.skipGap, same]
          rw [goesOn] at others
          simp only [if_pos fewer] at steps
          constructor
          · change (gap state).result = _
            rw [steps]
            exact others.result
          · change Run source start state (gap state).events _
            rw [steps]
            exact run.append others.run

end Procedure

end ThriftIdl
