import ActionReplay.Proofs.Track.Clock
import ActionReplay.Proofs.Track.Contacts
import Mathlib.Tactic.NormNum

/-!
# The clock in machine words

Ticks are natural numbers here, but a clock of 64-bit words would do. `Word` makes the computations
of the compiler in words, which wrap around: it rounds a duration up to whole quanta, adds it to a
tick, and samples the line that starts there. As long as the tick is not past the longest timeline
all of them are exact, for every signed duration (`Word.exact`), and the compiler never comes to an
item of any source at a later tick, whether or not it can carry the item out
(`Source.Reaches.onClock`).
-/

set_option autoImplicit false
set_option relaxedAutoImplicit false

namespace ActionReplay

/-! ### Computations in words -/

namespace Word

/-- The number of quanta that a duration takes, the last one perhaps in part. -/
def quanta (duration : Int64) : UInt64 :=
  if duration ≤ 0 then 0
  else if duration.toUInt64 % quantum.toUInt64 = 0 then duration.toUInt64 / quantum.toUInt64
  else duration.toUInt64 / quantum.toUInt64 + 1

/-- An aligned duration. -/
def aligned (duration : Int64) : UInt64 :=
  quanta duration * quantum.toUInt64

/-- The tick an aligned duration after another one. -/
def tickAfter (tick : Tick) (duration : Int64) : UInt64 :=
  tick.toUInt64 + aligned duration

/-- The tick some steps after another one. -/
def tickAt (tick : Tick) (step : Nat) : UInt64 :=
  tick.toUInt64 + step.toUInt64 * quantum.toUInt64

/-- All that is computed for a duration at a tick is the same in words as it is in natural numbers:
the duration in quanta and aligned, the tick after it, and the line that takes it, step by step. -/
structure Exact (tick : Tick) (duration : Int64) : Prop where
  quanta : (quanta duration).toNat = (duration.toInt.toNat + (quantum - 1)) / quantum
  aligned : (aligned duration).toNat = align duration
  tickAfter : (tickAfter tick duration).toNat = tick + align duration
  steps : (Word.aligned duration / quantum.toUInt64).toNat = align duration / quantum
  samples : ∀ step ≤ align duration / quantum,
    (step.toUInt64 * quantum.toUInt64).toNat = step * quantum ∧
      (tickAt tick step).toNat = tick + step * quantum

theorem toNat_toUInt64 {n : Nat} (hn : n < 2 ^ 64) : n.toUInt64.toNat = n :=
  Nat.mod_eq_of_lt hn

theorem toNat_quantum : quantum.toUInt64.toNat = quantum := rfl

/-- A positive duration is the same number with a sign and without. -/
theorem toNat_of_pos {duration : Int64} (hpos : ¬duration ≤ 0) :
    duration.toUInt64.toNat = duration.toInt.toNat := by
  have hint : 0 < duration.toInt := by
    rw [Int64.le_iff_toInt_le] at hpos
    simpa using hpos
  have hsigned : duration.toInt = duration.toBitVec.toInt := rfl
  have hunsigned : duration.toUInt64.toNat = duration.toBitVec.toNat := rfl
  have hlt := duration.toBitVec.isLt
  rw [hsigned, BitVec.toInt_eq_toNat_cond] at hint
  rw [hsigned, hunsigned, BitVec.toInt_eq_toNat_cond]
  split_ifs at hint ⊢ with hsmall
  · exact (Int.toNat_natCast _).symm
  · omega

theorem toNat_lt (duration : Int64) : duration.toInt.toNat < 2 ^ 63 := by
  have hle := duration.toInt_le
  have hmax : Int64.maxValue.toInt = 2 ^ 63 - 1 := rfl
  omega

theorem toNat_quanta (duration : Int64) :
    (quanta duration).toNat = (duration.toInt.toNat + (quantum - 1)) / quantum := by
  unfold quanta
  split_ifs with hnone hwhole
  · have hint : duration.toInt ≤ 0 := by simpa [Int64.le_iff_toInt_le] using hnone
    rw [Int.toNat_of_nonpos hint]
    rfl
  · have hmod := congrArg UInt64.toNat hwhole
    rw [UInt64.toNat_mod, toNat_of_pos hnone, toNat_quantum, UInt64.toNat_zero] at hmod
    rw [UInt64.toNat_div, toNat_of_pos hnone, toNat_quantum]
    unfold quantum at hmod ⊢
    omega
  · have hmod : ¬duration.toInt.toNat % quantum = 0 := by
      rw [← toNat_of_pos hnone, ← toNat_quantum, ← UInt64.toNat_mod]
      exact fun hzero ↦ hwhole (UInt64.toNat_inj.1 hzero)
    have hlt := toNat_lt duration
    rw [UInt64.toNat_add, UInt64.toNat_div, toNat_of_pos hnone, toNat_quantum, UInt64.toNat_one]
    unfold quantum at hmod ⊢
    omega

theorem toNat_aligned (duration : Int64) : (aligned duration).toNat = align duration := by
  have hlt := toNat_lt duration
  rw [aligned, UInt64.toNat_mul, toNat_quanta, toNat_quantum]
  unfold align quantum
  omega

/-- At a tick that is not past the longest timeline nothing wraps, whatever the duration. -/
theorem exact {tick : Nat} (htick : tick ≤ longestTimeline) (duration : Int64) :
    Exact tick duration := by
  have hshort : tick ≤ 600000 := htick
  have hlt := toNat_lt duration
  have halign : align duration < duration.toInt.toNat + 5 := align_lt duration
  have hword : tick.toUInt64.toNat = tick := toNat_toUInt64 (by omega)
  refine ⟨toNat_quanta duration, toNat_aligned duration, ?_, ?_, ?_⟩
  · rw [tickAfter, UInt64.toNat_add, hword, toNat_aligned]
    exact Nat.mod_eq_of_lt (by omega)
  · rw [UInt64.toNat_div, toNat_aligned, toNat_quantum]
  · intro step hstep
    have hle : step * quantum ≤ align duration :=
      (Nat.mul_le_mul_right quantum hstep).trans (Nat.div_mul_le_self _ _)
    have hsmall : step ≤ step * quantum := Nat.le_mul_of_pos_right step (by decide)
    have hmul : (step.toUInt64 * quantum.toUInt64).toNat = step * quantum := by
      rw [UInt64.toNat_mul, toNat_toUInt64 (by omega), toNat_quantum]
      exact Nat.mod_eq_of_lt (by omega)
    refine ⟨hmul, ?_⟩
    rw [tickAt, UInt64.toNat_add, hword, hmul]
    exact Nat.mod_eq_of_lt (by omega)

end Word

/-! ### Where the compiler comes to an item -/

/-- Where a source of some kind stands before an item. -/
inductive TrackState where
  | rest (tick : Tick)
  | key (state : KeyboardState)
  | pointer (state : PointerState)

def TrackState.tick : TrackState → Tick
  | .rest tick => tick
  | .key state => state.tick
  | .pointer state => state.tick

namespace Source

/-- The compiler comes to the item at a place of a source, or to its end, having carried out all
items before it. -/
inductive Reaches (locate : Locator) (s : Source) (ordinal : Nat) : Nat → TrackState → Prop
  | restStart (hkind : s.kind = .none) : Reaches locate s ordinal 0 (.rest 0)
  | keyStart (hkind : s.kind = .key) : Reaches locate s ordinal 0 (.key {})
  | pointerStart (hkind : s.kind = .pointer) :
      Reaches locate s ordinal 0 (.pointer { memo := PositionMemo.empty s })
  | rest {place : Nat} {tick reached : Tick} {duration : Option Int64}
      (hreaches : Reaches locate s ordinal place (.rest tick))
      (hitem : s.items[place]? = some (.pause duration))
      (hstep : s.pauseEnd place tick duration = .ok reached) :
      Reaches locate s ordinal (place + 1) (.rest reached)
  | key {place : Nat} {state after : KeyboardState} {item : Item} {booking : Booking}
      (hreaches : Reaches locate s ordinal place (.key state))
      (hitem : s.items[place]? = some item)
      (hstep : s.keyStep place state item = .ok (booking, after)) :
      Reaches locate s ordinal (place + 1) (.key after)
  | pointer {place : Nat} {state after : PointerState} {item : Item} {bookings : List Booking}
      (hreaches : Reaches locate s ordinal place (.pointer state))
      (hitem : s.items[place]? = some item)
      (hstep : s.pointerStep locate { id := ordinal, tool := s.tool } place s.items[place + 1]?
        state item = .ok (bookings, after)) :
      Reaches locate s ordinal (place + 1) (.pointer after)

end Source

/-- A source of some kind that is on the clock. -/
def TrackState.OnClock : TrackState → Prop
  | .rest tick => ActionReplay.OnClock tick
  | .key state => state.OnClock
  | .pointer state => state.OnClock

/-- The compiler only ever stands on the clock. -/
theorem Source.Reaches.onClock {locate : Locator} {s : Source} {ordinal place : Nat}
    {state : TrackState} (hreaches : s.Reaches locate ordinal place state) : state.OnClock := by
  induction hreaches with
  | restStart => exact ActionReplay.OnClock.zero
  | keyStart => exact KeyboardState.onClock_start
  | pointerStart => exact PointerState.onClock_start _
  | rest _ _ hstep ih =>
    obtain ⟨span, -, -, hfits, rfl⟩ := pauseEnd_eq_ok.1 hstep
    exact ActionReplay.OnClock.add_align ih hfits
  | key _ _ hstep ih => exact ((keyStep_eq_ok.1 hstep).onClock ih).2
  | pointer _ _ hstep ih => exact ((pointerStep_eq_ok.1 hstep).onClock ih).2

theorem TrackState.OnClock.tick_le {state : TrackState} (hstate : state.OnClock) :
    state.tick ≤ longestTimeline := by
  cases state with
  | rest tick => exact ActionReplay.OnClock.le hstate
  | key state => exact (KeyboardState.OnClock.tick hstate).le
  | pointer state => exact (PointerState.OnClock.tick hstate).le

end ActionReplay
