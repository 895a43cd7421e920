import ThriftIdl.Proofs.Tool.Annotations
import ThriftIdl.Proofs.Tool.Outcome
import ThriftIdl.Proofs.Trace.Lines

/-!
# Lines of stripped sources

Annotations have no line endings, so a source has as many without them as with them, also if what is
removed last only came about by what was removed first. A parse error counts no more line endings
than there are in the text that is read, so its line is one of the source, from which the
annotations have not been removed.
-/

namespace ThriftIdl

namespace Annotations

section

variable {α : Type} [DecidableEq α] {pattern items : List α}

/-- What is not in a pattern stays, in its order. -/
theorem filter_remove {keeps : α → Bool} (notInside : ∀ item ∈ pattern, keeps item = false)
    (notEmpty : pattern ≠ []) (items : List α) :
    (remove pattern items).filter keeps = items.filter keeps := by
  fun_induction remove pattern items with
  | case1 => rfl
  | case2 item rest present ih =>
      have vanishes : pattern.filter keeps = [] := by
        simpa [List.filter_eq_nil_iff] using notInside
      rw [ih, ← append_drop_of_isPrefixOf notEmpty present, List.filter_append, vanishes,
        List.nil_append]
  | case3 item rest absent ih =>
      rw [List.filter_cons, List.filter_cons, ih]

theorem length_remove_lt (notEmpty : pattern ≠ []) (occurs : pattern <:+: items) :
    (remove pattern items).length < items.length := by
  fun_induction remove pattern items with
  | case1 => exact absurd (List.infix_nil.1 occurs) notEmpty
  | case2 item rest present ih =>
      have shorter : (remove pattern (rest.drop (pattern.length - 1))).Sublist rest :=
        (remove_sublist pattern _).trans (List.drop_sublist _ rest)
      exact Nat.lt_succ_of_le shorter.length_le
  | case3 item rest absent ih =>
      rcases List.infix_cons_iff.1 occurs with here | later
      · exact absurd (List.isPrefixOf_iff_prefix.2 here) absent
      · exact Nat.succ_lt_succ (ih later)

theorem foldl_remove_sublist (patterns : List (List α)) (items : List α) :
    (patterns.foldl (fun text pattern => remove pattern text) items).Sublist items := by
  induction patterns generalizing items with
  | nil => exact List.Sublist.refl items
  | cons pattern others ih => exact (ih _).trans (remove_sublist pattern items)

/-- Removing patterns one after the other changes a text exactly if one of them occurs in it. -/
theorem foldl_remove_eq_self_iff {patterns : List (List α)} (notEmpty : [] ∉ patterns) :
    patterns.foldl (fun text pattern => remove pattern text) items = items ↔
      ∀ pattern ∈ patterns, ¬pattern <:+: items := by
  induction patterns with
  | nil => simp
  | cons pattern others ih =>
      rw [List.mem_cons, not_or] at notEmpty
      rw [List.foldl_cons, List.forall_mem_cons, ← ih notEmpty.2]
      constructor
      · intro same
        have absent : ¬pattern <:+: items := by
          -- what is removed first is never put back by what is removed later
          intro occurs
          have shorter := length_remove_lt (Ne.symm notEmpty.1) occurs
          have notLonger := (foldl_remove_sublist others (remove pattern items)).length_le
          rw [same] at notLonger
          exact absurd notLonger (Nat.not_le.2 shorter)
        rw [remove_eq_self absent] at same
        exact ⟨absent, same⟩
      · rintro ⟨absent, same⟩
        rw [remove_eq_self absent, same]

end

theorem occurs_iff {pattern text : List Char} : occurs pattern text = true ↔ pattern <:+: text := by
  induction text with
  | nil => simp [occurs]
  | cons character rest ih =>
      rw [occurs, Bool.or_eq_true, ih, List.infix_cons_iff, List.isPrefixOf_iff_prefix]

/-! ### What is left of a source -/

/-- Removes a spelling from a text if it occurs there; the text is then a copy. -/
def stripOne (stripped : List Char × Bool) (spelling : String) : List Char × Bool :=
  if occurs spelling.toList stripped.1 then (remove spelling.toList stripped.1, true) else stripped

/-- A source without annotations, and whether it is a copy; without any it is the source itself. -/
def stripCopying (source : String) : String × Bool :=
  let stripped := spellings.foldl stripOne (source.toList, false)
  (String.ofList stripped.1, stripped.2)

/-- Looking for a spelling before it is removed makes no difference to the text. -/
theorem foldl_stripOne_fst (patterns : List String) (stripped : List Char × Bool) :
    (patterns.foldl stripOne stripped).1 =
      patterns.foldl (fun text spelling => remove spelling.toList text) stripped.1 := by
  induction patterns generalizing stripped with
  | nil => rfl
  | cons spelling others ih =>
      rw [List.foldl_cons, List.foldl_cons, ih, stripOne]
      split_ifs with present
      · rfl
      · rw [remove_eq_self (mt occurs_iff.2 present)]

theorem foldl_stripOne_snd (patterns : List String) (stripped : List Char × Bool) :
    (patterns.foldl stripOne stripped).2 = false ↔
      stripped.2 = false ∧ ∀ spelling ∈ patterns, ¬spelling.toList <:+: stripped.1 := by
  induction patterns generalizing stripped with
  | nil => simp
  | cons spelling others ih =>
      rw [List.foldl_cons, ih, stripOne, List.forall_mem_cons]
      split_ifs with present
      · simp [occurs_iff.1 present]
      · simp [mt occurs_iff.2 present]

theorem occursIn_eq_false_iff (source : String) :
    occursIn source = false ↔ ∀ spelling ∈ spellings, ¬spelling.toList <:+: source.toList := by
  simp [occursIn, ← occurs_iff]

theorem stripCopying_eq (source : String) :
    stripCopying source = (strip source, occursIn source) := by
  have copied : (spellings.foldl stripOne (source.toList, false)).2 = occursIn source := by
    rw [Bool.eq_iff_iff, ← not_iff_not, Bool.not_eq_true, Bool.not_eq_true, foldl_stripOne_snd,
      occursIn_eq_false_iff]
    simp
  rw [stripCopying, copied, foldl_stripOne_fst]
  rfl

theorem strip_eq_self_iff (source : String) :
    strip source = source ↔ ∀ spelling ∈ spellings, ¬spelling.toList <:+: source.toList := by
  have notEmpty : [] ∉ spellings.map String.toList := by decide
  have same := @foldl_remove_eq_self_iff _ _ source.toList _ notEmpty
  rw [List.foldl_map, List.forall_mem_map] at same
  rw [← same, ← String.toList_inj, strip, String.toList_ofList]

/-- No line ending is lost, and they stay in order. -/
theorem filter_isLineEnd_strip (source : String) :
    (Utf8.encode (strip source)).filter Byte.isLineEnd =
      (Utf8.encode source).filter Byte.isLineEnd := by
  rw [encode_strip]
  have inLine : ∀ pattern ∈ spellings.map Utf8.encode, Gap.Parenthesized pattern := by
    simpa using parenthesized_spelling
  -- a spelling may occur only because another one was removed, so this is about any bytes
  generalize spellings.map Utf8.encode = patterns at inLine
  generalize Utf8.encode source = bytes
  induction patterns generalizing bytes with
  | nil => rfl
  | cons pattern others ih =>
      rcases List.forall_mem_cons.1 inLine with ⟨shape, shapes⟩
      rw [List.foldl_cons, ih shapes, filter_remove shape.inLine shape.ne_nil]

end Annotations

/-- Whether a number is that of a line in a source, counted by whichever line ending is commoner. -/
def IsLineOf (source : String) (line : Nat) : Prop :=
  1 ≤ line ∧ line ≤ 1 + max ((Utf8.encode source).count Byte.lineFeed)
    ((Utf8.encode source).count Byte.carriageReturn)

theorem isLineOf_of_filter_eq {source other : String}
    (same : (Utf8.encode source).filter Byte.isLineEnd = (Utf8.encode other).filter Byte.isLineEnd)
    {line : Nat} (isLine : IsLineOf source line) : IsLineOf other line := by
  have count : ∀ byte, Byte.isLineEnd byte = true →
      (Utf8.encode source).count byte = (Utf8.encode other).count byte := by
    intro byte isLineEnd
    rw [← List.count_filter isLineEnd, same, List.count_filter isLineEnd]
  rw [IsLineOf, ← count Byte.lineFeed rfl, ← count Byte.carriageReturn rfl]
  exact isLine

theorem isLineOf_of_parse_error {source : String} {error : ParseError}
    (failed : Document.parse source = .error error) : IsLineOf source error.line := by
  rcases Document.parseFrom_eq_error_iff.1 failed with ⟨attempt, isFailed, rfl⟩
  rcases (Reading.counts_trace source 0).2 attempt isFailed with ⟨isError, counts⟩
  rw [List.drop_zero] at counts
  have lineFeeds := counts.lineFeeds.trans ((List.take_sublist _ _).count_le Byte.lineFeed)
  have carriageReturns :=
    counts.carriageReturns.trans ((List.take_sublist _ _).count_le Byte.carriageReturn)
  have line : attempt.error.line = attempt.reported.position.line := by
    rw [isError]
    rfl
  rw [line, Position.line, IsLineOf]
  omega

theorem isLineOf_of_parse_prepare {source : String} {keep : Bool} {error : ParseError}
    (failed : Document.parse (Annotations.prepare keep source) = .error error) :
    IsLineOf source error.line := by
  cases keep with
  | true => exact isLineOf_of_parse_error failed
  | false =>
      exact isLineOf_of_filter_eq (Annotations.filter_isLineEnd_strip source)
        (isLineOf_of_parse_error failed)

/-! ### What the commands show -/

theorem ToJson.exists_isLineOf_of_convert {request : ToJson} {source message : String}
    (failed : request.convert source = .error message) :
    ∃ error, Document.parse (Annotations.prepare request.keepAnnotations source) = .error error ∧
      message = error.detailed (some request.file) ∧ IsLineOf source error.line := by
  unfold convert at failed
  split at failed
  · cases failed
  · next error read =>
      exact ⟨error, read, (Except.error.inj failed).symm, isLineOf_of_parse_prepare read⟩

theorem Validate.exists_isLineOf_of_checkFile {request : Validate} {path source message : String}
    (failed : (request.checkFile ⟨path, Utf8.encode source⟩).1 = .error message) :
    ∃ error, Document.parse (Annotations.prepare request.keepAnnotations source) = .error error ∧
      message = error.detailed (some path) ∧ IsLineOf source error.line := by
  rw [checkFile_eq, verdict, FileVerdict.ofBytes_encode] at failed
  cases isVerdict : FileVerdict.ofText request.keepAnnotations source with
  | notText fault =>
      unfold FileVerdict.ofText at isVerdict
      split at isVerdict <;> cases isVerdict
  | invalid error =>
      simp only [isVerdict] at failed
      have read := FileVerdict.ofText_eq_invalid_iff.1 isVerdict
      exact ⟨error, read, (Except.error.inj failed).symm, isLineOf_of_parse_prepare read⟩
  | valid document =>
      simp only [isVerdict] at failed
      cases failed

/--
Without annotations a source has the same line endings in the same order. It is the source itself,
and not a copy, exactly if neither spelling occurs. If what is left cannot be read, the error is on
a line of the source, and so is whatever the two commands show of it.
-/
theorem Annotations.strip_lines (source : String) :
    let absent := ∀ spelling ∈ spellings, ¬spelling.toList <:+: source.toList
    (Utf8.encode (strip source)).filter Byte.isLineEnd =
        (Utf8.encode source).filter Byte.isLineEnd ∧
      (stripCopying source).1 = strip source ∧
      (strip source = source ↔ absent) ∧ ((stripCopying source).2 = false ↔ absent) ∧
      (∀ error, Document.parse (strip source) = .error error → IsLineOf source error.line) ∧
      (∀ request : ToJson, ∀ message, request.convert source = .error message →
        ∃ error, Document.parse (prepare request.keepAnnotations source) = .error error ∧
          message = error.detailed (some request.file) ∧ IsLineOf source error.line) ∧
      ∀ request : Validate, ∀ path message,
        (request.checkFile ⟨path, Utf8.encode source⟩).1 = .error message →
        ∃ error, Document.parse (prepare request.keepAnnotations source) = .error error ∧
          message = error.detailed (some path) ∧ IsLineOf source error.line := by
  intro absent
  have loop := stripCopying_eq source
  refine ⟨filter_isLineEnd_strip source, congrArg Prod.fst loop, strip_eq_self_iff source, ?_, ?_,
    fun _ _ => ToJson.exists_isLineOf_of_convert,
    fun _ _ _ => Validate.exists_isLineOf_of_checkFile⟩
  · rw [loop]
    exact occursIn_eq_false_iff source
  · intro error failed
    exact isLineOf_of_filter_eq (filter_isLineEnd_strip source) (isLineOf_of_parse_error failed)

/-- An annotation that is there only when another one has been removed, and two lines. -/
theorem Annotations.strip_lines_joined :
    let source := "// (js.type = (js.type = \"Long\")'Long')\nconst i32 X 1"
    let error : ParseError := ⟨"expected `=`, found `1`", "1", 2, .structural⟩
    strip source = "// \nconst i32 X 1" ∧ Document.parse (strip source) = .error error ∧
      IsLineOf source error.line := by
  intro source error
  have failed : Document.parse (strip source) = .error error := by decide +kernel
  exact ⟨by decide +kernel, failed, (strip_lines source).2.2.2.2.1 error failed⟩

end ThriftIdl
