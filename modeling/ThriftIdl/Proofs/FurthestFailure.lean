import Mathlib.Data.List.DropRight
import Mathlib.Data.List.Induction
import ThriftIdl.Proofs.LongestGap
import ThriftIdl.Proofs.Trace.Source

/-!
# The furthest failure

A cursor goes back and forth in its source, and meanwhile it stores one failure: of all that were
noted since it last forgot them, those with the greatest offset, and of these the latest. This is
true after any requests in any order (`furthest_exact`), since noting one more failure keeps it
(`Furthest.keepFurthest`), forgetting starts anew, and no other request touches the failure.
-/

namespace ThriftIdl

/-- Whether a failure is the latest of those that reach furthest. -/
def IsFurthest (failures : List Failure) (failure : Failure) : Prop :=
  ∃ earlier later, failures = earlier ++ failure :: later ∧
    (∀ other ∈ earlier, other.position.offset ≤ failure.position.offset) ∧
    ∀ other ∈ later, other.position.offset < failure.position.offset

/-- Whether what is stored is the furthest of some failures, and nothing if there are none. -/
inductive StoresFurthest : List Failure → Option Failure → Prop where
  | nothing : StoresFurthest [] none
  | failure {failures : List Failure} {failure : Failure}
      (furthest : IsFurthest failures failure) : StoresFurthest failures (some failure)

variable {failures : List Failure} {stored : Option Failure} {failure : Failure}

/-- One list is split at two items: at the same place, or one of them comes later. -/
theorem eq_or_mem_of_split {α : Type} {first second : α} {earlier later front back : List α}
    (split : earlier ++ first :: later = front ++ second :: back) :
    first = second ∨ second ∈ later ∨ first ∈ back := by
  induction earlier generalizing front with
  | nil =>
      cases front with
      | nil => exact .inl (List.cons.inj split).1
      | cons item front => exact .inr (.inl (by simp [(List.cons.inj split).2]))
  | cons item earlier ih =>
      cases front with
      | nil => exact .inr (.inr (by simp [← (List.cons.inj split).2]))
      | cons other front => exact ih (List.cons.inj split).2

namespace IsFurthest

theorem le (furthest : IsFurthest failures failure) :
    ∀ other ∈ failures, other.position.offset ≤ failure.position.offset := by
  rcases furthest with ⟨earlier, later, rfl, notFurther, nearer⟩
  intro other mem
  rcases List.mem_append.1 mem with mem | mem
  · exact notFurther other mem
  · rcases List.mem_cons.1 mem with rfl | mem
    · exact le_rfl
    · exact (nearer other mem).le

theorem append_of_le (furthest : IsFurthest failures failure) {next : Failure}
    (reaches : failure.position.offset ≤ next.position.offset) :
    IsFurthest (failures ++ [next]) next :=
  ⟨failures, [], rfl, fun other mem => (furthest.le other mem).trans reaches, by simp⟩

theorem append_of_lt (furthest : IsFurthest failures failure) {next : Failure}
    (nearer : next.position.offset < failure.position.offset) :
    IsFurthest (failures ++ [next]) failure := by
  rcases furthest with ⟨earlier, later, rfl, notFurther, allNearer⟩
  refine ⟨earlier, later ++ [next], by simp, notFurther, ?_⟩
  intro other mem
  rcases List.mem_append.1 mem with mem | mem
  · exact allNearer other mem
  · rw [List.mem_singleton.1 mem]
    exact nearer

theorem unique (furthest : IsFurthest failures failure) {other : Failure}
    (otherFurthest : IsFurthest failures other) : failure = other := by
  -- of two different ones, whichever stands first would have to reach less far than the other
  have otherLe := furthest.le other
  have le := otherFurthest.le failure
  rcases furthest with ⟨earlier, later, rfl, -, nearer⟩
  rcases otherFurthest with ⟨front, back, split, -, otherNearer⟩
  rcases eq_or_mem_of_split split with same | mem | mem
  · exact same
  · exact absurd (le (by simp)) (Nat.not_le.2 (nearer other mem))
  · exact absurd (otherLe (by simp [split])) (Nat.not_le.2 (otherNearer failure mem))

end IsFurthest

namespace StoresFurthest

theorem keepFurthest (stores : StoresFurthest failures stored) (next : Failure) :
    StoresFurthest (failures ++ [next]) (Cursor.keepFurthest stored next) := by
  cases stores with
  | nothing => exact .failure ⟨[], [], rfl, by simp, by simp⟩
  | @failure _ failure furthest =>
      simp only [Cursor.keepFurthest]
      split_ifs with reaches
      · exact .failure (furthest.append_of_le reaches)
      · exact .failure (furthest.append_of_lt (Nat.lt_of_not_le reaches))

theorem eq_none_iff (stores : StoresFurthest failures stored) :
    stored = none ↔ failures = [] := by
  cases stores with
  | nothing => simp
  | failure furthest =>
      rcases furthest with ⟨earlier, later, rfl, -⟩
      simp

theorem eq_some_iff (stores : StoresFurthest failures stored) :
    stored = some failure ↔ IsFurthest failures failure := by
  cases stores with
  | nothing => simp [IsFurthest]
  | @failure _ known furthest =>
      constructor
      · rintro ⟨⟩
        exact furthest
      · intro otherFurthest
        rw [furthest.unique otherFurthest]

end StoresFurthest

namespace Cursor

/-- Hands out the furthest failure and forgets it. -/
def takeFurthest (cursor : Cursor) : Option Failure × Cursor :=
  (cursor.furthest, cursor.clearFurthest)

/-- What a reader asks of a cursor. -/
inductive Request where
  | bump (count : Nat)
  | skipGap
  | save
  | restore
  | dropCheckpoint
  | fail (kind : FailureKind) (expected : Expected)
  | clearFurthest
  | takeFurthest
  deriving DecidableEq, Repr

/-- The cursor after a request. Without a saved place there is nothing to go back to or to drop. -/
def after (cursor : Cursor) : Request → Cursor
  | .bump count => cursor.bump count
  | .skipGap => cursor.skipGap
  | .save => cursor.save
  | .restore => cursor.restore
  | .dropCheckpoint => cursor.dropCheckpoint
  | .fail kind expected => cursor.fail kind expected
  | .clearFurthest => cursor.clearFurthest
  | .takeFurthest => cursor.takeFurthest.2

def afterAll (cursor : Cursor) (requests : List Request) : Cursor := requests.foldl after cursor

/-- Whether a request forgets the furthest failure. -/
def Request.forgets : Request → Bool
  | .clearFurthest | .takeFurthest => true
  | _ => false

/-- A request with the cursor at the time. -/
structure Moment where
  cursor : Cursor
  request : Request
  deriving DecidableEq, Repr

namespace Moment

/-- The failure that is noted: what is asked for, at the place where the cursor is. -/
def noted? (moment : Moment) : Option Failure :=
  match moment.request with
  | .fail kind expected => some ⟨kind, expected, moment.cursor.position⟩
  | _ => none

/-- The moments behind the last one that forgets. -/
def sinceForgotten (moments : List Moment) : List Moment :=
  moments.rtakeWhile fun moment => !moment.request.forgets

/-- The failures that were noted and not forgotten since, in order. -/
def noted (moments : List Moment) : List Failure := (sinceForgotten moments).filterMap noted?

variable {moments : List Moment} {moment : Moment}

theorem noted_append_of_forgets (forgets : moment.request.forgets = true) :
    noted (moments ++ [moment]) = [] := by
  unfold noted sinceForgotten
  rw [List.rtakeWhile_concat_neg _ _ _ (by simp [forgets])]
  rfl

theorem noted_append (keeps : moment.request.forgets = false) :
    noted (moments ++ [moment]) = noted moments ++ moment.noted?.toList := by
  unfold noted sinceForgotten
  rw [List.rtakeWhile_concat_pos _ _ _ (by simp [keeps]), List.filterMap_append]
  cases noted : moment.noted? <;> simp [noted]

end Moment

/-- Each of some requests with the cursor at its time. -/
def moments (cursor : Cursor) : List Request → List Moment
  | [] => []
  | request :: others => ⟨cursor, request⟩ :: (cursor.after request).moments others

theorem moments_append (cursor : Cursor) (front : List Request) (last : Request) :
    cursor.moments (front ++ [last]) =
      cursor.moments front ++ [⟨cursor.afterAll front, last⟩] := by
  induction front generalizing cursor with
  | nil => rfl
  | cons request others ih =>
      change _ :: moments _ (others ++ [last]) = _
      rw [ih]
      rfl

theorem afterAll_append (cursor : Cursor) (front : List Request) (last : Request) :
    cursor.afterAll (front ++ [last]) = (cursor.afterAll front).after last := by
  simp [afterAll]

/-! ### What each request keeps -/

/-- A request that notes no failure and forgets none leaves the furthest one alone. -/
theorem furthest_after (moment : Moment) (keeps : moment.request.forgets = false)
    (nothing : moment.noted? = none) :
    (moment.cursor.after moment.request).furthest = moment.cursor.furthest := by
  rcases moment with ⟨cursor, request⟩
  cases request with
  | fail kind expected => cases nothing
  | clearFurthest => cases keeps
  | takeFurthest => cases keeps
  | _ => rfl

/-- Whatever is asked of a cursor next, it stores the furthest of the failures then noted. -/
theorem furthest_step {moments : List Moment} (moment : Moment)
    (stores : StoresFurthest (Moment.noted moments) moment.cursor.furthest) :
    StoresFurthest (Moment.noted (moments ++ [moment]))
      (moment.cursor.after moment.request).furthest := by
  cases forgets : moment.request.forgets with
  | true =>
      rw [Moment.noted_append_of_forgets forgets]
      rcases moment with ⟨cursor, request⟩
      cases request with
      | clearFurthest => exact .nothing
      | takeFurthest => exact .nothing
      | _ => cases forgets
  | false =>
      rw [Moment.noted_append forgets]
      cases noted : moment.noted? with
      | none =>
          rw [furthest_after moment forgets noted]
          simpa using stores
      | some next =>
          -- only `fail` notes a failure, and it keeps the one it noted or the one stored before
          rcases moment with ⟨cursor, request⟩
          cases request with
          | fail kind expected =>
              cases noted
              exact stores.keepFurthest _
          | _ => cases noted

/-- Whether the current place and the saved ones lie in a source, and not in front of a start. -/
structure Anchored (source : List UInt8) (start : Nat) (cursor : Cursor) : Prop where
  sameSource : cursor.source = source
  mark : cursor.mark.Anchored source start
  checkpoints : ∀ mark ∈ cursor.checkpoints, mark.Anchored source start

namespace Anchored

variable {source : List UInt8} {start : Nat} {cursor : Cursor}

theorem after (anchored : cursor.Anchored source start) (request : Request) :
    (cursor.after request).Anchored source start := by
  have ⟨sameSource, mark, checkpoints⟩ := anchored
  cases request with
  | bump count =>
      have split : cursor.mark.remaining = cursor.mark.remaining.take count ++ _ :=
        (List.take_append_drop count _).symm
      exact ⟨sameSource, mark.move split rfl, checkpoints⟩
  | skipGap =>
      -- what is skipped are the bytes of a gap, however they are counted as lines
      rcases cursor.mark.exists_passesGap_skipGap with ⟨gap, passes⟩
      exact ⟨sameSource, passes.anchored mark, checkpoints⟩
  | save => exact ⟨sameSource, mark, List.forall_mem_cons.2 ⟨mark, checkpoints⟩⟩
  | restore => exact ⟨sameSource, holds_mark_restore _ mark checkpoints, checkpoints⟩
  | dropCheckpoint =>
      exact ⟨sameSource, mark, fun place mem => checkpoints place (List.mem_of_mem_tail mem)⟩
  | fail kind expected => exact ⟨sameSource, mark, checkpoints⟩
  | clearFurthest => exact ⟨sameSource, mark, checkpoints⟩
  | takeFurthest => exact ⟨sameSource, mark, checkpoints⟩

theorem afterAll (anchored : cursor.Anchored source start) (requests : List Request) :
    (cursor.afterAll requests).Anchored source start := by
  induction requests generalizing cursor with
  | nil => exact anchored
  | cons request others ih => exact ih (anchored.after request)

end Anchored

theorem anchored_startAt (source : List UInt8) (start : Nat) :
    (startAt source start).Anchored source (min start source.length) := by
  have remaining : source.drop start = source.drop (min start source.length) :=
    (drop_min le_rfl start).symm
  exact ⟨rfl, ⟨le_rfl, Nat.min_le_right _ _, remaining⟩, by simp [startAt]⟩

/-! ### Any requests -/

theorem furthest_afterAll (cursor : Cursor) (fresh : cursor.furthest = none)
    (requests : List Request) :
    StoresFurthest (Moment.noted (cursor.moments requests))
      (cursor.afterAll requests).furthest := by
  -- from the back, since the last request is the one that may forget all failures before it
  induction requests using List.reverseRecOn with
  | nil =>
      rw [afterAll, List.foldl_nil, fresh]
      exact .nothing
  | append_singleton front last ih =>
      rw [moments_append, afterAll_append]
      exact furthest_step ⟨cursor.afterAll front, last⟩ ih

/--
After any requests, a cursor stores no failure if none was noted since it last forgot them, and else
the latest of those noted since with the greatest offset, with the place where it was noted. Going
back and dropping a saved place never change it, and the offset stays between the start, or the end
of the source if this is in front of it, and the end of the source.
-/
theorem furthest_exact (source : List UInt8) (start : Nat) (requests : List Request) :
    let cursor := startAt source start
    let last := cursor.afterAll requests
    (last.furthest = none ↔
      ∀ moment ∈ Moment.sinceForgotten (cursor.moments requests), moment.noted? = none) ∧
    (∀ failure, last.furthest = some failure ↔
      IsFurthest (Moment.noted (cursor.moments requests)) failure) ∧
    last.restore.furthest = last.furthest ∧ last.dropCheckpoint.furthest = last.furthest ∧
    last.position.Within source (min start source.length) := by
  intro cursor last
  have stores := furthest_afterAll cursor rfl requests
  have anchored := (anchored_startAt source start).afterAll requests
  refine ⟨?_, fun failure => stores.eq_some_iff, rfl, rfl, anchored.mark.within⟩
  rw [stores.eq_none_iff, Moment.noted, List.filterMap_eq_nil_iff]

/-- Of two failures with the same offset the later one is stored, although the cursor went back. -/
example :
    let requests : List Request := [.bump 2, .fail .lexical (.keyword "enum"), .save, .bump 1,
      .restore, .dropCheckpoint, .fail .structural (.byte Byte.colon), .bump 9]
    ((startAt [Byte.dot, Byte.dot, Byte.dot] 0).afterAll requests).furthest =
      some ⟨.structural, .byte Byte.colon, ⟨2, 0, 0⟩⟩ := by
  decide +kernel

end Cursor

end ThriftIdl
