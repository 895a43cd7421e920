import ThriftIdl.Proofs.Grammar.Parallel
import ThriftIdl.Proofs.Source.Gap

/-!
# The same text further on

A rule knows offsets and lines only by counting on from where it starts. Two runs that start with
the same remaining bytes, one of them in a source with more text in front, are therefore parallel:
every place and every failure they keep is as far apart as at the start, in bytes as well as in line
endings.
-/

namespace ThriftIdl

/-- The text in front of one source that leads up to another, and what more is counted there. -/
structure Front where
  /-- The bytes of the text. -/
  bytes : List UInt8
  /-- How many more line feeds are counted behind the text than without it. -/
  lineFeeds : Int
  /-- How many more carriage returns are counted. -/
  carriageReturns : Int

/-- Whether a place is the same one behind more text. -/
structure Position.Shifted (front : Front) (near far : Position) : Prop where
  offset : far.offset = near.offset + front.bytes.length
  lineFeeds : (far.lineFeeds : Int) = near.lineFeeds + front.lineFeeds
  carriageReturns : (far.carriageReturns : Int) = near.carriageReturns + front.carriageReturns

/-- Whether a place has the same bytes behind it. -/
structure Mark.Shifted (front : Front) (near far : Mark) : Prop where
  position : near.position.Shifted front far.position
  remaining : far.remaining = near.remaining

variable {front : Front}

/-! ### Places -/

namespace Position.Shifted

variable {near far : Position}

theorem advance (shifted : near.Shifted front far) (count : Nat) :
    (near.advance count).Shifted front (far.advance count) := by
  refine { shifted with offset := ?_ }
  have offset := shifted.offset
  simp only [Position.advance]
  omega

theorem record (shifted : near.Shifted front far) (byte : UInt8) :
    (near.record byte).Shifted front (far.record byte) := by
  have lineFeeds := shifted.lineFeeds
  have carriageReturns := shifted.carriageReturns
  unfold Position.record
  split_ifs
  · exact { shifted with lineFeeds := by push_cast; omega }
  · exact { shifted with carriageReturns := by push_cast; omega }
  · exact shifted

theorem pass (shifted : near.Shifted front far) (byte : UInt8) :
    (near.pass byte).Shifted front (far.pass byte) :=
  (shifted.record byte).advance 1

/-- A gap has as many bytes and line endings wherever it is. -/
theorem skip (shifted : near.Shifted front far) (mode : Gap.Mode) (bytes : List UInt8) :
    (Gap.skip mode near bytes).position.Shifted front (Gap.skip mode far bytes).position := by
  -- both runs branch on the bytes alone, so they pass over the gap in the same steps
  fun_induction Gap.skip mode near bytes generalizing far <;> conv_rhs => rw [Gap.skip.eq_def]
  all_goals grind [advance, pass]

end Position.Shifted

namespace Mark.Shifted

variable {near far : Mark}

theorem bump (shifted : near.Shifted front far) (count : Nat) :
    (near.bump count).Shifted front (far.bump count) := by
  constructor
  · simp only [Mark.bump, shifted.remaining]
    exact shifted.position.advance _
  · simp only [Mark.bump, shifted.remaining]

theorem skipGap (shifted : near.Shifted front far) :
    near.skipGap.Shifted front far.skipGap := by
  constructor
  · simp only [Mark.skipGap, shifted.remaining]
    exact shifted.position.skip .between _
  · simp only [Mark.skipGap, Gap.remaining_skip, shifted.remaining]

end Mark.Shifted

/-- Places with the same bytes behind them, one of them behind more text, correspond. -/
def Front.correspondence (front : Front) : Correspondence where
  knows _ := True
  source near far := far = front.bytes ++ near
  position := Position.Shifted front
  mark := Mark.Shifted front
  position_of_mark shifted := shifted.position
  offset_le_iff first second := by
    rw [first.offset, second.offset, Nat.add_le_add_iff_right]
  length_eq shifted := congrArg List.length shifted.remaining
  separator shifted := by rw [shifted.remaining]
  recognize _ shifted := by rw [shifted.remaining]
  bump count shifted := shifted.bump count
  skipGap shifted := shifted.skipGap

/-- Whether a failure is the same one behind more text. -/
abbrev Failure.Shifted (front : Front) (near far : Failure) : Prop :=
  front.correspondence.Failures near far

/-- Whether a state is the same one in a source with more text in front. -/
abbrev State.Shifted (front : Front) (near far : State) : Prop :=
  front.correspondence.States near far

end ThriftIdl
