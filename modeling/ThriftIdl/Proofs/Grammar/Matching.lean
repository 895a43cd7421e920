import ThriftIdl.Grammar.Rule
import ThriftIdl.Proofs.Grammar.Lexeme

/-!
# What a rule matches

`Rule.run` carries a cursor, a stack of saved places and the failures seen so far. None of these has
a say in what a rule accepts: `Rule.read` gives a rule a meaning on the remaining bytes alone, and
`Rule.run_agrees` shows that a run ends as that meaning says, with the stack as it was.

A rule that reads something either leaves the bytes alone, which only a nullable rule can, or it
takes bytes from a place where one of its first bytes is (`Rule.stays_or_consumes`). So a repetition
whose items are not nullable always ends because an item fails.
-/

namespace ThriftIdl

variable {α β : Type}

/-- What a token reads: its value, and what remains behind it and the gap after it. -/
def Token.read (token : Token α) (bytes : List UInt8) : Option (α × List UInt8) :=
  match token.recognize bytes with
  | .found value length => some (value, Gap.rest (bytes.drop length))
  | .missing _ _ _ => none

theorem Token.read_eq_some_iff {token : Token α} {bytes rest : List UInt8} {value : α} :
    token.read bytes = some (value, rest) ↔
      ∃ length, token.recognize bytes = .found value length ∧
        rest = Gap.rest (bytes.drop length) := by
  unfold Token.read
  split
  · next found =>
      simp only [Option.some.injEq, Prod.mk.injEq, found, Lexeme.found.injEq]
      constructor
      · rintro ⟨rfl, rfl⟩
        exact ⟨_, ⟨rfl, rfl⟩, rfl⟩
      · rintro ⟨_, ⟨rfl, rfl⟩, rfl⟩
        exact ⟨rfl, rfl⟩
  · next missing => simp [missing]

theorem Token.read_eq_none_iff {token : Token α} {bytes : List UInt8} :
    token.read bytes = none ↔
      ∃ kind expected understood,
        token.recognize bytes = .missing kind expected understood := by
  unfold Token.read
  split
  · next found => simp [found]
  · next missing => simp [missing]

namespace State

variable {place : Mark} {places : List Mark}

/-- Going back leads to the latest saved place. -/
theorem mark_restore (state : State) (stack : state.cursor.checkpoints = place :: places) :
    state.restore.cursor.mark = place := by
  simp [restore, mapCursor, Cursor.restore, stack]

theorem checkpoints_dropCheckpoint (state : State)
    (stack : state.cursor.checkpoints = place :: places) :
    state.dropCheckpoint.cursor.checkpoints = places := by
  simp [dropCheckpoint, mapCursor, Cursor.dropCheckpoint, stack]

end State

namespace Rule

/-- Reads items until one fails; an item that takes no bytes is the last one. -/
def readMany (read : List UInt8 → Option (α × List UInt8)) (bytes : List UInt8) :
    List α × List UInt8 :=
  match read bytes with
  | none => ([], bytes)
  | some (item, rest) =>
    if rest.length < bytes.length then
      let (items, last) := readMany read rest
      (item :: items, last)
    else ([item], rest)
termination_by bytes.length

/-- What a rule reads: its value, and what remains. -/
def read : {α : Type} → Rule α → List UInt8 → Option (α × List UInt8)
  | _, .pure value, bytes => some (value, bytes)
  | _, .bind first next, bytes =>
    match first.read bytes with
    | none => none
    | some (value, rest) => (next value).read rest
  | _, .token terminal, bytes => terminal.read bytes
  | _, .separator, bytes =>
    if bytes.head?.any Byte.isSeparator then some (true, Gap.rest (bytes.drop 1))
    else some (false, bytes)
  | _, .choice _ alternatives, bytes =>
    (List.ofFn fun index => (alternatives index).read bytes).findSome? id
  | _, .optional rule, bytes =>
    match rule.read bytes with
    | none => some (none, bytes)
    | some (value, rest) => some (some value, rest)
  | _, .many rule, bytes => some (readMany rule.read bytes)
  | _, .nested rule, bytes => rule.read bytes
  | _, .refuseNesting, _ => none

/-! ### Equations -/

@[simp]
theorem pure_eq (value : α) : (Pure.pure value : Rule α) = .pure value := rfl

@[simp]
theorem bind_eq (first : Rule α) (next : α → Rule β) : first >>= next = .bind first next := rfl

@[simp]
theorem map_eq (function : α → β) (rule : Rule α) :
    function <$> rule = .bind rule fun value => .pure (function value) := rfl

@[simp]
theorem read_pure (value : α) (bytes : List UInt8) :
    (Rule.pure value).read bytes = some (value, bytes) := rfl

@[simp]
theorem read_token (terminal : Token α) (bytes : List UInt8) :
    (Rule.token terminal).read bytes = terminal.read bytes := rfl

@[simp]
theorem read_refuseNesting (bytes : List UInt8) : (refuseNesting : Rule α).read bytes = none := rfl

theorem read_bind (first : Rule α) (next : α → Rule β) (bytes : List UInt8) :
    (Rule.bind first next).read bytes =
      match first.read bytes with
      | none => none
      | some (value, rest) => (next value).read rest := by
  rw [read]

theorem read_bind_of_some {first : Rule α} {next : α → Rule β} {bytes rest : List UInt8}
    {value : α} (found : first.read bytes = some (value, rest)) :
    (Rule.bind first next).read bytes = (next value).read rest := by
  rw [read_bind, found]

theorem read_bind_of_none {first : Rule α} {next : α → Rule β} {bytes : List UInt8}
    (missing : first.read bytes = none) : (Rule.bind first next).read bytes = none := by
  rw [read_bind, missing]

theorem read_bind_eq_some_iff {first : Rule α} {next : α → Rule β} {bytes rest : List UInt8}
    {value : β} :
    (Rule.bind first next).read bytes = some (value, rest) ↔
      ∃ inner middle, first.read bytes = some (inner, middle) ∧
        (next inner).read middle = some (value, rest) := by
  rw [read_bind]
  split
  · next missing => simp [missing]
  · next found => simp [found]

theorem read_map_of_some {function : α → β} {rule : Rule α} {bytes rest : List UInt8} {value : α}
    (found : rule.read bytes = some (value, rest)) :
    (function <$> rule).read bytes = some (function value, rest) :=
  read_bind_of_some found

theorem read_map_of_none {function : α → β} {rule : Rule α} {bytes : List UInt8}
    (missing : rule.read bytes = none) : (function <$> rule).read bytes = none :=
  read_bind_of_none missing

theorem read_separator (bytes : List UInt8) :
    Rule.separator.read bytes =
      if bytes.head?.any Byte.isSeparator then some (true, Gap.rest (bytes.drop 1))
      else some (false, bytes) := rfl

theorem read_separator_of_stops {bytes : List UInt8} (stops : Stops Byte.isSeparator bytes) :
    Rule.separator.read bytes = some (false, bytes) := by
  unfold Stops at stops
  simp [read_separator, stops]

theorem read_separator_cons {byte : UInt8} (separator : Byte.isSeparator byte = true)
    (tail : List UInt8) : Rule.separator.read (byte :: tail) = some (true, Gap.rest tail) := by
  simp [read_separator, separator]

theorem read_choice {count : Nat} (expected : String) (alternatives : Fin count → Rule α)
    (bytes : List UInt8) :
    (Rule.choice expected alternatives).read bytes =
      (List.ofFn fun index => (alternatives index).read bytes).findSome? id := rfl

theorem read_choice_eq_none_iff {count : Nat} {expected : String}
    {alternatives : Fin count → Rule α} {bytes : List UInt8} :
    (Rule.choice expected alternatives).read bytes = none ↔
      ∀ index, (alternatives index).read bytes = none := by
  simp [read_choice, List.findSome?_eq_none_iff]

/-- A choice reads what its first matching alternative reads. -/
theorem read_choice_eq_some_iff {count : Nat} {expected : String}
    {alternatives : Fin count → Rule α} {bytes rest : List UInt8} {value : α} :
    (Rule.choice expected alternatives).read bytes = some (value, rest) ↔
      ∃ index, (alternatives index).read bytes = some (value, rest) ∧
        ∀ earlier < index, (alternatives earlier).read bytes = none := by
  rw [read_choice]
  induction count with
  | zero => simp
  | succ count ih =>
      rw [List.ofFn_succ, List.findSome?_cons]
      cases first : (alternatives 0).read bytes with
      | some result =>
          simp only [id]
          constructor
          · rintro ⟨rfl⟩
            exact ⟨0, first, fun earlier before => absurd before (Fin.not_lt_zero earlier)⟩
          · rintro ⟨index, found, missing⟩
            cases index using Fin.cases with
            | zero => rw [first] at found; exact found
            | succ index => exact absurd (missing 0 (Fin.succ_pos index)) (by simp [first])
      | none =>
          simp only [id]
          rw [ih]
          constructor
          · rintro ⟨index, found, missing⟩
            refine ⟨index.succ, found, fun earlier before => ?_⟩
            cases earlier using Fin.cases with
            | zero => exact first
            | succ earlier => exact missing earlier (Fin.succ_lt_succ_iff.1 before)
          · rintro ⟨index, found, missing⟩
            cases index using Fin.cases with
            | zero => rw [first] at found; cases found
            | succ index =>
                exact ⟨index, found, fun earlier before =>
                  missing earlier.succ (Fin.succ_lt_succ_iff.2 before)⟩

@[simp]
theorem read_oneOf_nil (expected : String) (bytes : List UInt8) :
    (oneOf expected ([] : List (Rule α))).read bytes = none := rfl

theorem read_oneOf_cons (expected : String) (first : Rule α) (others : List (Rule α))
    (bytes : List UInt8) :
    (oneOf expected (first :: others)).read bytes =
      (first.read bytes).or ((oneOf expected others).read bytes) := by
  have head : (first :: others).get (0 : Fin (others.length + 1)) = first := rfl
  simp only [oneOf, read_choice, List.length_cons, List.ofFn_succ, List.findSome?_cons, head, id]
  cases first.read bytes <;> rfl

theorem read_oneOf_of_some {expected : String} {first : Rule α} {others : List (Rule α)}
    {bytes rest : List UInt8} {value : α} (found : first.read bytes = some (value, rest)) :
    (oneOf expected (first :: others)).read bytes = some (value, rest) := by
  rw [read_oneOf_cons, found, Option.some_or]

theorem read_oneOf_of_none {expected : String} {first : Rule α} {others : List (Rule α)}
    {bytes : List UInt8} (missing : first.read bytes = none) :
    (oneOf expected (first :: others)).read bytes = (oneOf expected others).read bytes := by
  rw [read_oneOf_cons, missing, Option.none_or]

theorem read_oneOf_cons_eq_some_iff {expected : String} {first : Rule α}
    {others : List (Rule α)} {bytes : List UInt8} {result : α × List UInt8} :
    (oneOf expected (first :: others)).read bytes = some result ↔
      first.read bytes = some result ∨
        first.read bytes = none ∧ (oneOf expected others).read bytes = some result := by
  rw [read_oneOf_cons, Option.or_eq_some_iff]

/-- A list of alternatives may be tried in two parts. -/
theorem read_oneOf_append (expected other : String) (front back : List (Rule α))
    (bytes : List UInt8) :
    (oneOf expected (front ++ back)).read bytes =
      ((oneOf other front).read bytes).or ((oneOf expected back).read bytes) := by
  induction front with
  | nil => simp
  | cons first others ih =>
      rw [List.cons_append, read_oneOf_cons, ih, read_oneOf_cons, Option.or_assoc]

theorem exists_mem_of_read_oneOf {expected : String} {alternatives : List (Rule α)}
    {bytes rest : List UInt8} {value : α}
    (found : (oneOf expected alternatives).read bytes = some (value, rest)) :
    ∃ rule ∈ alternatives, rule.read bytes = some (value, rest) := by
  obtain ⟨index, foundThere, -⟩ := read_choice_eq_some_iff.1 found
  exact ⟨alternatives.get index, List.get_mem alternatives index, foundThere⟩

theorem read_optional (rule : Rule α) (bytes : List UInt8) :
    (Rule.optional rule).read bytes =
      match rule.read bytes with
      | none => some (none, bytes)
      | some (value, rest) => some (some value, rest) := rfl

theorem read_optional_of_some {rule : Rule α} {bytes rest : List UInt8} {value : α}
    (found : rule.read bytes = some (value, rest)) :
    (Rule.optional rule).read bytes = some (some value, rest) := by
  rw [read_optional, found]

theorem read_optional_of_none {rule : Rule α} {bytes : List UInt8}
    (missing : rule.read bytes = none) :
    (Rule.optional rule).read bytes = some (none, bytes) := by
  rw [read_optional, missing]

/-! ### Runs -/

/-- Whether a state has the source, the saved places and the open levels of another one. -/
structure Framed (before after : State) : Prop where
  source : after.cursor.source = before.cursor.source
  checkpoints : after.cursor.checkpoints = before.cursor.checkpoints
  extent : after.cursor.mark.extent = before.cursor.mark.extent
  depth : after.depth = before.depth

theorem Framed.refl (state : State) : Framed state state := ⟨rfl, rfl, rfl, rfl⟩

theorem Framed.trans {before middle after : State} (first : Framed before middle)
    (second : Framed middle after) : Framed before after :=
  ⟨second.source.trans first.source, second.checkpoints.trans first.checkpoints,
    second.extent.trans first.extent, second.depth.trans first.depth⟩

/-- Whether an action that started in a state ended as a reading of the remaining bytes did. -/
inductive Agrees (before : State) : Outcome α → Option (α × List UInt8) → Prop where
  | done {value : α} {after : State} (framed : Framed before after) :
      Agrees before (.done value after) (some (value, after.cursor.remaining))
  | failed {failure : Failure} {after : State} (framed : Framed before after) :
      Agrees before (.failed failure after) none

theorem agrees_take (token : Token α) (state : State) :
    Agrees state (Action.take token state) (token.read state.cursor.remaining) := by
  unfold Action.take Token.read
  cases token.recognize state.cursor.remaining with
  | found value length =>
      have remaining : Gap.rest (state.cursor.remaining.drop length) =
          (state.mapCursor fun cursor => (cursor.bump length).skipGap).cursor.remaining :=
        (Gap.remaining_skip .between _ _).symm
      have extent : (state.cursor.mark.bump length).skipGap.extent = state.cursor.mark.extent := by
        simp
      simp only [remaining]
      exact .done ⟨rfl, rfl, extent, rfl⟩
  | missing kind expected understood =>
      exact .failed ⟨rfl, rfl, Mark.extent_bump state.cursor.mark understood, rfl⟩

theorem agrees_separator (state : State) :
    Agrees state (Action.separator state) (Rule.separator.read state.cursor.remaining) := by
  have peek : state.cursor.peek = state.cursor.remaining.head? :=
    List.head?_eq_getElem?.symm
  rw [Action.separator, read_separator, peek]
  split
  · have remaining : Gap.rest (state.cursor.remaining.drop 1) =
        (state.mapCursor fun cursor => (cursor.bump 1).skipGap).cursor.remaining :=
      (Gap.remaining_skip .between _ _).symm
    have extent : (state.cursor.mark.bump 1).skipGap.extent = state.cursor.mark.extent := by simp
    rw [remaining]
    exact .done ⟨rfl, rfl, extent, rfl⟩
  · exact .done (.refl state)

/-- An attempt from a saved place has the saved place on top of the stack when it ends. -/
theorem Framed.of_save {before after : State} (framed : Framed before.save after) :
    after.cursor.checkpoints = before.cursor.mark :: before.cursor.checkpoints :=
  framed.checkpoints

/-- After a failed attempt the place and the stack are those from before the attempt. -/
theorem Framed.restore {before after : State} (framed : Framed before.save after) :
    after.restore.cursor.mark = before.cursor.mark ∧ Framed before after.restore.dropCheckpoint := by
  have place := after.mark_restore framed.of_save
  exact ⟨place, framed.source, after.restore.checkpoints_dropCheckpoint framed.of_save,
    congrArg Mark.extent place, framed.depth⟩

theorem Framed.dropCheckpoint {before after : State} (framed : Framed before.save after) :
    Framed before after.dropCheckpoint :=
  ⟨framed.source, after.checkpoints_dropCheckpoint framed.of_save, framed.extent, framed.depth⟩

/-- Behind something that was read one level deeper, the level is closed again. -/
theorem Framed.leave {before after : State} (framed : Framed before.enter after) :
    Framed before after.leave := by
  refine ⟨framed.source, framed.checkpoints, framed.extent, ?_⟩
  simp [State.leave, framed.depth, State.enter]

/-- Alternatives that agree with readings make a choice that agrees with the first success. -/
theorem agrees_firstOf (expected : String)
    (alternatives : List (Action α × (List UInt8 → Option (α × List UInt8))))
    (agree : ∀ alternative ∈ alternatives, ∀ state,
      Agrees state (alternative.1 state) (alternative.2 state.cursor.remaining))
    (before state : State) (place : state.cursor.mark = before.cursor.mark)
    (framed : Framed before.save state) :
    Agrees before (Action.firstOf expected (alternatives.map Prod.fst) state)
      ((alternatives.map fun alternative => alternative.2 before.cursor.remaining).findSome?
        id) := by
  induction alternatives generalizing state with
  | nil =>
      have whole := framed.dropCheckpoint
      exact .failed ⟨whole.source, whole.checkpoints, whole.extent, whole.depth⟩
  | cons alternative others ih =>
      have remaining : state.cursor.remaining = before.cursor.remaining :=
        congrArg Mark.remaining place
      have attempt := agree alternative (by simp) state
      rw [remaining] at attempt
      simp only [List.map_cons, Action.firstOf, List.findSome?_cons, id]
      generalize alternative.1 state = outcome at attempt
      generalize alternative.2 before.cursor.remaining = result at attempt
      cases attempt with
      | done attemptFramed => exact .done (framed.trans attemptFramed).dropCheckpoint
      | failed attemptFramed =>
          have whole := framed.trans attemptFramed
          have place := whole.restore.1
          exact ih (fun other mem => agree other (by simp [mem])) _ place
            ⟨whole.source, whole.checkpoints, congrArg Mark.extent place, whole.depth⟩

theorem agrees_collect {action : Action α} {read : List UInt8 → Option (α × List UInt8)}
    (agree : ∀ state, Agrees state (action state) (read state.cursor.remaining))
    (state : State) :
    (Action.collect action state).1 = (readMany read state.cursor.remaining).1 ∧
      (Action.collect action state).2.cursor.remaining =
        (readMany read state.cursor.remaining).2 ∧
      Framed state (Action.collect action state).2 := by
  induction length : state.remainingLength using Nat.strong_induction_on generalizing state with
  | _ count ih =>
      have attempt : Agrees state.save (action state.save) (read state.cursor.remaining) :=
        agree state.save
      rw [Action.collect, readMany]
      generalize action state.save = outcome at attempt
      generalize read state.cursor.remaining = result at attempt
      cases attempt with
      | failed framed =>
          refine ⟨rfl, ?_, framed.restore.2⟩
          exact congrArg Mark.remaining framed.restore.1
      | @done value after framed =>
          have whole := framed.dropCheckpoint
          simp only
          by_cases shorter : after.dropCheckpoint.remainingLength < state.remainingLength
          · have later := ih _ (length ▸ shorter) after.dropCheckpoint rfl
            have shorterBytes : after.cursor.remaining.length < state.cursor.remaining.length :=
              shorter
            rw [if_pos shorter, if_pos shorterBytes]
            exact ⟨congrArg _ later.1, later.2.1, whole.trans later.2.2⟩
          · have notShorter : ¬after.cursor.remaining.length < state.cursor.remaining.length :=
              shorter
            rw [if_neg shorter, if_neg notShorter]
            exact ⟨rfl, rfl, whole⟩

/-- The first rule of a list that matches is found by trying them in order. -/
theorem run_oneOf (expected : String) (alternatives : List (Rule α)) :
    (oneOf expected alternatives).run = Action.choice expected (alternatives.map run) := by
  have runs : (List.ofFn fun index => (alternatives.get index).run) = alternatives.map run := by
    rw [← Function.comp_def run, ← List.map_ofFn, List.ofFn_get]
  rw [oneOf, run, runs]

theorem run_bind_eq_done_iff {first : Rule α} {next : α → Rule β} {state after : State}
    {value : β} :
    (Rule.bind first next).run state = .done value after ↔
      ∃ inner middle, first.run state = .done inner middle ∧
        (next inner).run middle = .done value after := by
  simp only [run, Action.andThen]
  cases first.run state with
  | done inner middle => simp
  | failed failure middle => simp

/-- A run of a rule ends as its reading of the remaining bytes does. -/
theorem run_agrees (rule : Rule α) (state : State) :
    Agrees state (rule.run state) (rule.read state.cursor.remaining) := by
  induction rule generalizing state with
  | pure value => exact .done (.refl state)
  | bind first next ihFirst ihNext =>
      have attempt := ihFirst state
      simp only [run, read, Action.andThen]
      generalize first.run state = outcome at attempt
      generalize first.read state.cursor.remaining = result at attempt
      cases attempt with
      | failed framed => exact .failed framed
      | @done value after framed =>
          have continued := ihNext value after
          simp only
          generalize (next value).run after = lastOutcome at continued
          generalize (next value).read after.cursor.remaining = lastResult at continued
          cases continued with
          | done later => exact .done (framed.trans later)
          | failed later => exact .failed (framed.trans later)
  | token terminal => exact agrees_take terminal state
  | separator => exact agrees_separator state
  | choice expected alternatives ih =>
      have agree := agrees_firstOf expected
        (List.ofFn fun index => ((alternatives index).run, (alternatives index).read))
        (by
          intro alternative mem other
          obtain ⟨index, rfl⟩ := List.mem_ofFn.1 mem
          exact ih index other)
        state state.save rfl (.refl state.save)
      simpa [run, read, Action.choice, List.map_ofFn, Function.comp_def] using agree
  | optional rule ih =>
      have attempt : Agrees state.save (rule.run state.save) (rule.read state.cursor.remaining) :=
        ih state.save
      simp only [run, read, Action.optional]
      generalize rule.run state.save = outcome at attempt
      generalize rule.read state.cursor.remaining = result at attempt
      cases attempt with
      | done framed => exact .done framed.dropCheckpoint
      | failed framed =>
          have remaining : state.cursor.remaining = _ :=
            congrArg Mark.remaining framed.restore.1.symm
          simp only
          rw [remaining]
          exact .done framed.restore.2
  | many rule ih =>
      obtain ⟨items, remaining, framed⟩ := agrees_collect ih state
      simp only [run, read, Action.many]
      rw [← Prod.eta (readMany rule.read state.cursor.remaining), ← items, ← remaining]
      exact .done framed
  | nested rule ih =>
      have attempt : Agrees state.enter (rule.run state.enter) (rule.read state.cursor.remaining) :=
        ih state.enter
      simp only [run, read, Action.nested]
      generalize rule.run state.enter = outcome at attempt
      generalize rule.read state.cursor.remaining = result at attempt
      cases attempt with
      | done framed => exact .done framed.leave
      | failed framed => exact .failed framed.leave
  | refuseNesting => exact .failed ⟨rfl, rfl, rfl, rfl⟩

theorem read_of_run_done {rule : Rule α} {state after : State} {value : α}
    (ran : rule.run state = .done value after) :
    rule.read state.cursor.remaining = some (value, after.cursor.remaining) := by
  have agree := run_agrees rule state
  rw [ran] at agree
  generalize rule.read state.cursor.remaining = result at agree ⊢
  cases agree
  rfl

theorem framed_of_run_done {rule : Rule α} {state after : State} {value : α}
    (ran : rule.run state = .done value after) : Framed state after := by
  have agree := run_agrees rule state
  rw [ran] at agree
  generalize rule.read state.cursor.remaining = result at agree
  cases agree with
  | done framed => exact framed

theorem framed_of_run_failed {rule : Rule α} {state after : State} {failure : Failure}
    (ran : rule.run state = .failed failure after) : Framed state after := by
  have agree := run_agrees rule state
  rw [ran] at agree
  generalize rule.read state.cursor.remaining = result at agree
  cases agree with
  | failed framed => exact framed

theorem read_of_run_failed {rule : Rule α} {state after : State} {failure : Failure}
    (ran : rule.run state = .failed failure after) :
    rule.read state.cursor.remaining = none := by
  have agree := run_agrees rule state
  rw [ran] at agree
  generalize rule.read state.cursor.remaining = result at agree ⊢
  cases agree
  rfl

/-- What a rule reads, it is done with in every state. -/
theorem exists_run_of_read {rule : Rule α} {state : State} {value : α} {rest : List UInt8}
    (found : rule.read state.cursor.remaining = some (value, rest)) :
    ∃ after, rule.run state = .done value after ∧ after.cursor.remaining = rest ∧
      Framed state after := by
  have agree := run_agrees rule state
  rw [found] at agree
  generalize rule.run state = outcome at agree ⊢
  cases agree with
  | done framed => exact ⟨_, rfl, rfl, framed⟩

/-! ### Progress -/

/-- What a rule reads ends somewhere further on in the same bytes. -/
theorem read_suffix (rule : Rule α) {bytes rest : List UInt8} {value : α}
    (found : rule.read bytes = some (value, rest)) : rest <:+ bytes := by
  induction rule generalizing bytes rest with
  | pure inner => cases found; exact List.suffix_rfl
  | bind first next ihFirst ihNext =>
      rcases read_bind_eq_some_iff.1 found with ⟨inner, middle, foundFirst, foundNext⟩
      exact (ihNext inner foundNext).trans (ihFirst foundFirst)
  | token terminal =>
      rcases Token.read_eq_some_iff.1 found with ⟨length, -, rfl⟩
      exact (Gap.rest_suffix _).trans (List.drop_suffix length bytes)
  | separator =>
      rw [read_separator] at found
      split at found
      · cases found
        exact (Gap.rest_suffix _).trans (List.drop_suffix 1 bytes)
      · cases found; exact List.suffix_rfl
  | choice expected alternatives ih =>
      rcases read_choice_eq_some_iff.1 found with ⟨index, foundThere, -⟩
      exact ih index foundThere
  | optional rule ih =>
      rw [read_optional] at found
      split at found
      · cases found; exact List.suffix_rfl
      · next foundInner => cases found; exact ih foundInner
  | many rule ih =>
      have same : (readMany rule.read bytes).2 = rest := congrArg Prod.snd (Option.some.inj found)
      clear found
      subst same
      induction length : bytes.length using Nat.strong_induction_on generalizing bytes with
      | _ count ihLength =>
          rw [readMany]
          cases attempt : rule.read bytes with
          | none => exact List.suffix_rfl
          | some result =>
              have suffix := ih attempt
              by_cases shorter : result.2.length < bytes.length
              · simp only [if_pos shorter]
                exact (ihLength _ (length ▸ shorter) rfl).trans suffix
              · simp only [if_neg shorter]
                exact suffix
  | nested rule ih => exact ih found
  | refuseNesting => cases found

/-- No rule goes back. -/
theorem offset_le_of_run_done {rule : Rule α} {state after : State} {value : α}
    (ran : rule.run state = .done value after) : state.cursor.offset ≤ after.cursor.offset := by
  have extent := (framed_of_run_done ran).extent
  have shorter : after.cursor.mark.remaining.length ≤ state.cursor.mark.remaining.length :=
    (rule.read_suffix (read_of_run_done ran)).length_le
  simp only [Mark.extent] at extent
  simp only [Cursor.offset]
  omega

/-- Whether a rule may match without taking any bytes. -/
@[simp]
def Nullable : {α : Type} → Rule α → Prop
  | _, .pure _ => True
  | _, .bind first next => first.Nullable ∧ ∃ value, (next value).Nullable
  | _, .token _ => False
  | _, .separator => True
  | _, .choice _ alternatives => ∃ index, (alternatives index).Nullable
  | _, .optional _ => True
  | _, .many _ => True
  | _, .nested rule => rule.Nullable
  | _, .refuseNesting => False

/-- Whether what a rule takes may begin with a byte. -/
@[simp]
def Opens : {α : Type} → Rule α → UInt8 → Prop
  | _, .pure _, _ => False
  | _, .bind first next, byte =>
    first.Opens byte ∨ first.Nullable ∧ ∃ value, (next value).Opens byte
  | _, .token terminal, byte => terminal.opens byte = true
  | _, .separator, byte => Byte.isSeparator byte = true
  | _, .choice _ alternatives, byte => ∃ index, (alternatives index).Opens byte
  | _, .optional rule, byte => rule.Opens byte
  | _, .many rule, byte => rule.Opens byte
  | _, .nested rule, byte => rule.Opens byte
  | _, .refuseNesting, _ => False

/-- Whether the tokens of a rule are plain, and the items of its repetitions take bytes. -/
@[simp]
def WellFormed : {α : Type} → Rule α → Prop
  | _, .pure _ => True
  | _, .bind first next => first.WellFormed ∧ ∀ value, (next value).WellFormed
  | _, .token terminal => terminal.isPlain = true
  | _, .separator => True
  | _, .choice _ alternatives => ∀ index, (alternatives index).WellFormed
  | _, .optional rule => rule.WellFormed
  | _, .many rule => rule.WellFormed ∧ ¬rule.Nullable
  | _, .nested rule => rule.WellFormed
  | _, .refuseNesting => True

/-- Reading items one after the other, as a relation. -/
inductive Repeats (step : List UInt8 → α → List UInt8 → Prop) :
    List UInt8 → List α → List UInt8 → Prop where
  | nil (bytes : List UInt8) : Repeats step bytes [] bytes
  | cons {bytes middle rest : List UInt8} {item : α} {items : List α}
      (first : step bytes item middle) (others : Repeats step middle items rest) :
      Repeats step bytes (item :: items) rest

/-- Whether a rule took bytes that begin with one of its first bytes. -/
structure Consumes (rule : Rule α) (bytes rest : List UInt8) : Prop where
  shorter : rest.length < bytes.length
  suffix : rest <:+ bytes
  head : ∃ byte ∈ bytes.head?, rule.Opens byte

/-- How a reading moves on: it stays, which only a nullable rule can do, or it consumes. -/
def Moves (rule : Rule α) (bytes rest : List UInt8) : Prop :=
  rest = bytes ∧ rule.Nullable ∨ rule.Consumes bytes rest

theorem Moves.suffix {rule : Rule α} {bytes rest : List UInt8} (moves : rule.Moves bytes rest) :
    rest <:+ bytes := by
  rcases moves with ⟨rfl, -⟩ | consumes
  · exact List.suffix_rfl
  · exact consumes.suffix

theorem Moves.bind {first : Rule α} {next : α → Rule β} {bytes middle rest : List UInt8}
    {value : α} (movesFirst : first.Moves bytes middle)
    (movesNext : (next value).Moves middle rest) :
    (Rule.bind first next).Moves bytes rest := by
  rcases movesFirst with ⟨rfl, nullable⟩ | consumes
  · rcases movesNext with ⟨rfl, nextNullable⟩ | nextConsumes
    · exact .inl ⟨rfl, nullable, value, nextNullable⟩
    · rcases nextConsumes with ⟨shorter, suffix, byte, atHead, opens⟩
      exact .inr ⟨shorter, suffix, byte, atHead, .inr ⟨nullable, value, opens⟩⟩
  · rcases consumes with ⟨shorter, suffix, byte, atHead, opens⟩
    have nextSuffix := movesNext.suffix
    exact .inr ⟨Nat.lt_of_le_of_lt nextSuffix.length_le shorter, nextSuffix.trans suffix, byte,
      atHead, .inl opens⟩

theorem consumes_token {terminal : Token α} (plain : terminal.isPlain = true)
    {bytes rest : List UInt8} {value : α} (found : terminal.read bytes = some (value, rest)) :
    (Rule.token terminal).Consumes bytes rest := by
  obtain ⟨length, recognized, rfl⟩ := Token.read_eq_some_iff.1 found
  have spans := Token.recognize_spans plain recognized
  have suffix := (Gap.rest_suffix (bytes.drop length)).trans (List.drop_suffix length bytes)
  refine ⟨?_, suffix, ?_⟩
  · have behind := Gap.rest_length_le (bytes.drop length)
    have positive := spans.positive
    have fits := spans.fits
    rw [List.length_drop] at behind
    omega
  · have head := spans.head
    cases bytes with
    | nil => simp at head
    | cons byte tail => exact ⟨byte, rfl, head⟩

/-- The items of a repetition, if each of them takes bytes. -/
theorem readMany_repeats {read : List UInt8 → Option (α × List UInt8)}
    (shorter : ∀ bytes item rest, read bytes = some (item, rest) → rest.length < bytes.length)
    (bytes : List UInt8) :
    Repeats (fun bytes item rest => read bytes = some (item, rest)) bytes
        (readMany read bytes).1 (readMany read bytes).2 ∧
      read (readMany read bytes).2 = none := by
  induction length : bytes.length using Nat.strong_induction_on generalizing bytes with
  | _ count ih =>
      rw [readMany]
      cases attempt : read bytes with
      | none => exact ⟨.nil bytes, attempt⟩
      | some result =>
          obtain ⟨item, rest⟩ := result
          have progress := shorter bytes item rest attempt
          simp only [progress, if_true]
          obtain ⟨others, ends⟩ := ih rest.length (length ▸ progress) rest rfl
          exact ⟨.cons attempt others, ends⟩

/-- A repetition reads as many items as there are. -/
theorem readMany_eq_of_repeats {read : List UInt8 → Option (α × List UInt8)}
    (shorter : ∀ bytes item rest, read bytes = some (item, rest) → rest.length < bytes.length)
    {bytes rest : List UInt8} {items : List α}
    (repeats : Repeats (fun bytes item rest => read bytes = some (item, rest)) bytes items rest)
    (ends : read rest = none) : readMany read bytes = (items, rest) := by
  induction repeats with
  | nil bytes => rw [readMany, ends]
  | cons first _ ih =>
      rw [readMany, first]
      simp only [shorter _ _ _ first, if_true, ih ends]

theorem stays_or_consumes {rule : Rule α} (wellFormed : rule.WellFormed)
    {bytes rest : List UInt8} {value : α} (found : rule.read bytes = some (value, rest)) :
    rule.Moves bytes rest := by
  induction rule generalizing bytes rest with
  | pure inner => cases found; exact .inl ⟨rfl, trivial⟩
  | bind first next ihFirst ihNext =>
      obtain ⟨inner, middle, foundFirst, foundNext⟩ := read_bind_eq_some_iff.1 found
      exact (ihFirst wellFormed.1 foundFirst).bind
        (ihNext inner (wellFormed.2 inner) foundNext)
  | token terminal => exact .inr (consumes_token wellFormed found)
  | separator =>
      rw [read_separator] at found
      split at found
      · next separator =>
          cases found
          cases bytes with
          | nil => simp at separator
          | cons byte tail =>
              have behind := Gap.rest_suffix tail
              exact .inr ⟨Nat.lt_succ_of_le behind.length_le,
                behind.trans (List.suffix_cons byte tail), byte, rfl, separator⟩
      · cases found; exact .inl ⟨rfl, trivial⟩
  | choice expected alternatives ih =>
      obtain ⟨index, foundThere, -⟩ := read_choice_eq_some_iff.1 found
      rcases ih index (wellFormed index) foundThere with ⟨same, nullable⟩ | consumes
      · exact .inl ⟨same, index, nullable⟩
      · rcases consumes with ⟨shorter, suffix, byte, atHead, opens⟩
        exact .inr ⟨shorter, suffix, byte, atHead, index, opens⟩
  | optional rule ih =>
      rw [read_optional] at found
      split at found
      · cases found; exact .inl ⟨rfl, trivial⟩
      · next foundInner =>
          cases found
          rcases ih wellFormed foundInner with ⟨same, -⟩ | consumes
          · exact .inl ⟨same, trivial⟩
          · exact .inr ⟨consumes.shorter, consumes.suffix, consumes.head⟩
  | many rule ih =>
      have consumes : ∀ bytes item rest, rule.read bytes = some (item, rest) →
          rule.Consumes bytes rest := fun bytes item rest foundItem =>
        (ih wellFormed.1 foundItem).resolve_left fun stays => wellFormed.2 stays.2
      obtain ⟨repeats, -⟩ := readMany_repeats
        (fun bytes item rest foundItem => (consumes bytes item rest foundItem).shorter) bytes
      have same : readMany rule.read bytes = (value, rest) := Option.some.inj found
      simp only [same] at repeats
      clear found same
      induction repeats with
      | nil bytes => exact .inl ⟨rfl, trivial⟩
      | cons first others ihOthers =>
          have firstConsumes := consumes _ _ _ first
          have othersMove : (Rule.many rule).Moves _ _ := ihOthers
          have suffix := othersMove.suffix
          exact .inr ⟨Nat.lt_of_le_of_lt suffix.length_le firstConsumes.shorter,
            suffix.trans firstConsumes.suffix, firstConsumes.head⟩
  | nested rule ih =>
      rcases ih wellFormed found with stays | consumes
      · exact .inl stays
      · exact .inr ⟨consumes.shorter, consumes.suffix, consumes.head⟩
  | refuseNesting => cases found

theorem consumes_of_read {rule : Rule α} (wellFormed : rule.WellFormed)
    (notNullable : ¬rule.Nullable) {bytes rest : List UInt8} {value : α}
    (found : rule.read bytes = some (value, rest)) : rule.Consumes bytes rest :=
  (stays_or_consumes wellFormed found).resolve_left fun stays => notNullable stays.2

theorem any_head?_of_read {rule : Rule α} (wellFormed : rule.WellFormed)
    (notNullable : ¬rule.Nullable) {accepts : UInt8 → Bool}
    (covers : ∀ byte, rule.Opens byte → accepts byte = true) {bytes rest : List UInt8}
    {value : α} (found : rule.read bytes = some (value, rest)) :
    bytes.head?.any accepts = true := by
  obtain ⟨byte, atHead, opens⟩ := (consumes_of_read wellFormed notNullable found).head
  exact (Option.any_eq_true _ _).2 ⟨byte, atHead, covers byte opens⟩

/-- A rule that takes bytes fails where none of its first bytes is. -/
theorem read_eq_none_of_not_opens {rule : Rule α} (wellFormed : rule.WellFormed)
    (notNullable : ¬rule.Nullable) {bytes : List UInt8}
    (closed : ∀ byte ∈ bytes.head?, ¬rule.Opens byte) : rule.read bytes = none := by
  cases found : rule.read bytes with
  | none => rfl
  | some result =>
      obtain ⟨byte, atHead, opens⟩ := (consumes_of_read wellFormed notNullable found).head
      exact absurd opens (closed byte atHead)

/-- A rule that takes bytes fails where no byte comes first with which it may begin. -/
theorem read_eq_none_of_stops {rule : Rule α} (wellFormed : rule.WellFormed)
    (notNullable : ¬rule.Nullable) {accepts : UInt8 → Bool}
    (covers : ∀ byte, rule.Opens byte → accepts byte = true) {bytes : List UInt8}
    (stops : Stops accepts bytes) : rule.read bytes = none := by
  refine read_eq_none_of_not_opens wellFormed notNullable fun byte atHead opens => ?_
  cases bytes with
  | nil => cases atHead
  | cons first tail =>
      cases atHead
      exact absurd (stops_cons.1 stops) (by simp [covers byte opens])

/-- A repetition ends where an item fails. -/
theorem read_many_eq_some_iff {rule : Rule α} (wellFormed : (Rule.many rule).WellFormed)
    {bytes rest : List UInt8} {items : List α} :
    (Rule.many rule).read bytes = some (items, rest) ↔
      Repeats (fun bytes item rest => rule.read bytes = some (item, rest)) bytes items rest ∧
        rule.read rest = none := by
  have shorter : ∀ bytes item rest, rule.read bytes = some (item, rest) →
      rest.length < bytes.length := fun bytes item rest foundItem =>
    (consumes_of_read wellFormed.1 wellFormed.2 foundItem).shorter
  constructor
  · intro found
    have same : readMany rule.read bytes = (items, rest) := Option.some.inj found
    have repeats := readMany_repeats shorter bytes
    rwa [same] at repeats
  · rintro ⟨repeats, ends⟩
    exact congrArg some (readMany_eq_of_repeats shorter repeats ends)

/-- A repetition spells what its items spell, if it is known what these spell. -/
theorem read_many_iff {rule : Rule α} (wellFormed : rule.WellFormed) (notNullable : ¬rule.Nullable)
    {step : List UInt8 → α → List UInt8 → Prop}
    (same : ∀ {bytes rest : List UInt8} {item : α},
      rule.read bytes = some (item, rest) ↔ step bytes item rest)
    {bytes rest : List UInt8} {items : List α} :
    (Rule.many rule).read bytes = some (items, rest) ↔
      Repeats step bytes items rest ∧ rule.read rest = none := by
  have sameStep : (fun bytes item rest => rule.read bytes = some (item, rest)) = step := by
    funext bytes item rest
    exact propext same
  have wellFormedMany : (Rule.many rule).WellFormed := ⟨wellFormed, notNullable⟩
  rw [read_many_eq_some_iff wellFormedMany, sameStep]

theorem Repeats.append {step : List UInt8 → α → List UInt8 → Prop}
    {bytes middle rest : List UInt8} {items others : List α} (front : Repeats step bytes items middle)
    (back : Repeats step middle others rest) : Repeats step bytes (items ++ others) rest := by
  induction front with
  | nil bytes => exact back
  | cons first _ ih => exact .cons first (ih back)

/-- Each item was read somewhere. -/
theorem Repeats.exists_step {step : List UInt8 → α → List UInt8 → Prop} {bytes rest : List UInt8}
    {items : List α} (repeats : Repeats step bytes items rest) {item : α} (mem : item ∈ items) :
    ∃ bytes rest, step bytes item rest := by
  induction repeats with
  | nil => cases mem
  | cons first _ ih =>
      rcases List.mem_cons.1 mem with rfl | later
      · exact ⟨_, _, first⟩
      · exact ih later

/-- Items that are weakened one by one, each of them known to be one of these items. -/
theorem Repeats.imp_of_mem {step other : List UInt8 → α → List UInt8 → Prop}
    {bytes rest : List UInt8} {items : List α} (repeats : Repeats step bytes items rest)
    (weaker : ∀ bytes rest, ∀ item ∈ items, step bytes item rest → other bytes item rest) :
    Repeats other bytes items rest := by
  induction repeats with
  | nil bytes => exact .nil bytes
  | cons first _ ih =>
      refine .cons (weaker _ _ _ List.mem_cons_self first) (ih fun bytes rest item mem => ?_)
      exact weaker bytes rest item (List.mem_cons_of_mem _ mem)

/-- Items that are weakened one by one. -/
theorem Repeats.imp {step other : List UInt8 → α → List UInt8 → Prop}
    (weaker : ∀ bytes item rest, step bytes item rest → other bytes item rest)
    {bytes rest : List UInt8} {items : List α} (repeats : Repeats step bytes items rest) :
    Repeats other bytes items rest :=
  repeats.imp_of_mem fun bytes rest item _ => weaker bytes item rest

/--
Items that are replaced one by one where something is known of the bytes behind each of them: of the
last rest because of what follows, and of every other rest because the next item starts there.
-/
theorem Repeats.imp_of_follows {step other : List UInt8 → α → List UInt8 → Prop}
    {follows : List UInt8 → Prop}
    (starts : ∀ bytes item rest, step bytes item rest → follows rest → follows bytes)
    (weaker : ∀ bytes item rest, step bytes item rest → follows rest → other bytes item rest)
    {bytes rest : List UInt8} {items : List α} (repeats : Repeats step bytes items rest)
    (ends : follows rest) : Repeats other bytes items rest ∧ follows bytes := by
  induction repeats with
  | nil bytes => exact ⟨.nil bytes, ends⟩
  | cons first _ ih =>
      obtain ⟨others, middle⟩ := ih ends
      exact ⟨.cons (weaker _ _ _ first middle) others, starts _ _ _ first middle⟩

end Rule

end ThriftIdl
