import ActionReplay.Proofs.Track.KeyAct
import Mathlib.Order.Nat

/-!
# Tracks keep to the clock

A tick is on the clock (`OnClock`) if it is a multiple of the quantum that is not past the longest
timeline. Every source starts at such a tick and every step leads to one, so all bookings of a track
are on the clock, and their cues belong to chains that were entered at multiples of the quantum, no
later than the tick of the cue (`onClock_pointerTrack`, `onClock_keyTrack`, `onClock_restTrack`).
-/

set_option autoImplicit false
set_option relaxedAutoImplicit false

namespace ActionReplay

/-- A tick at which a source can act. -/
structure OnClock (tick : Tick) : Prop where
  dvd : quantum ∣ tick
  le : tick ≤ longestTimeline

/-- A chain that something at a tick can belong to was entered at a multiple of the quantum, no
later. -/
structure EnteredBy (entry tick : Tick) : Prop where
  dvd : quantum ∣ entry
  le : entry ≤ tick

/-- The tick at which the chain of a cue was entered. -/
def Cue.entry : Cue → Tick
  | .motion cue => cue.entry
  | .key cue => cue.entry

/-- A booking on the clock, whose cue belongs to a chain that was entered before. -/
structure Booking.OnClock (booking : Booking) : Prop where
  tick : ActionReplay.OnClock booking.tick
  entry : ∀ cue, booking.cue = some cue → EnteredBy cue.entry booking.tick

theorem OnClock.zero : OnClock 0 := ⟨Nat.dvd_zero _, Nat.zero_le _⟩

/-- An aligned duration that fits leads from one tick of the clock to another. -/
theorem OnClock.add_align {tick : Tick} {duration : Int64} (htick : OnClock tick)
    (hfits : tick + align duration ≤ longestTimeline) : OnClock (tick + align duration) :=
  ⟨(Nat.dvd_add_right htick.dvd).2 (quantum_dvd_align duration), hfits⟩

theorem OnClock.enteredBy {tick : Tick} (htick : OnClock tick) : EnteredBy tick tick :=
  ⟨htick.dvd, le_rfl⟩

theorem EnteredBy.trans {entry tick later : Tick} (hentry : EnteredBy entry tick)
    (hlater : tick ≤ later) : EnteredBy entry later :=
  ⟨hentry.dvd, hentry.le.trans hlater⟩

namespace Booking

theorem onClock_rest {tick : Tick} (htick : ActionReplay.OnClock tick) : (rest tick).OnClock := by
  refine ⟨htick, ?_⟩
  intro cue hcue
  cases hcue

theorem onClock_motion {tick : Tick} {cue : MotionCue} (htick : ActionReplay.OnClock tick)
    (hentry : EnteredBy cue.entry tick) : (motion tick cue).OnClock := by
  refine ⟨htick, ?_⟩
  intro cue hcue
  cases hcue
  exact hentry

theorem onClock_key {tick : Tick} {cue : KeyCue} (htick : ActionReplay.OnClock tick)
    (hentry : EnteredBy cue.entry tick) : (key tick cue).OnClock := by
  refine ⟨htick, ?_⟩
  intro cue hcue
  cases hcue
  exact hentry

/-- The id on a cue says nothing about time. -/
theorem OnClock.withPointer {booking : Booking} (hbooking : booking.OnClock) (id : Nat) :
    (booking.withPointer id).OnClock := by
  refine ⟨hbooking.tick, ?_⟩
  intro cue hcue
  obtain ⟨before, hbefore, rfl⟩ := Option.map_eq_some_iff.1 hcue
  cases before with
  | motion cue => exact hbooking.entry (.motion cue) hbefore
  | key cue => exact hbooking.entry (.key cue) hbefore

end Booking

/-! ### Lines -/

namespace Pointer

variable {p : Pointer} {line : Line} {entry : Tick} {action : CueAction} {button : UInt32}

namespace Line

/-- A line that takes an aligned duration ends that duration after it starts. -/
theorem stopTick_of_steps {duration : Int64} (hsteps : line.steps = align duration / quantum) :
    line.stopTick = line.tick + align duration := by
  rw [stopTick, tickAt, hsteps, Nat.div_mul_cancel (quantum_dvd_align duration)]

theorem tick_le_tickAt (line : Line) (step : Nat) : line.tick ≤ line.tickAt step :=
  Nat.le_add_right _ _

theorem tickAt_le_stopTick {step : Nat} (hstep : step ≤ line.steps) :
    line.tickAt step ≤ line.stopTick :=
  Nat.add_le_add_left (Nat.mul_le_mul_right quantum hstep) line.tick

/-- A line that starts and ends on the clock is on it all the way. -/
theorem onClock_tickAt (hstart : OnClock line.tick) (hstop : line.stopTick ≤ longestTimeline)
    {step : Nat} (hstep : step ≤ line.steps) : OnClock (line.tickAt step) :=
  ⟨(Nat.dvd_add_right hstart.dvd).2 (Nat.dvd_mul_left quantum step),
    (tickAt_le_stopTick hstep).trans hstop⟩

end Line

theorem onClock_samples (hstart : OnClock line.tick) (hstop : line.stopTick ≤ longestTimeline)
    (hentry : EnteredBy entry line.tick) :
    ∀ booking ∈ p.samples line entry action button, booking.OnClock := by
  intro booking hbooking
  obtain ⟨step, hstep, rfl⟩ := List.mem_map.1 hbooking
  exact Booking.onClock_motion (Line.onClock_tickAt hstart hstop (List.mem_range.1 hstep).le)
    (hentry.trans (line.tick_le_tickAt step))

theorem onClock_hover (hstart : OnClock line.tick) (hstop : line.stopTick ≤ longestTimeline) :
    ∀ booking ∈ p.hover line, booking.OnClock := by
  have hend : OnClock line.stopTick := Line.onClock_tickAt hstart hstop le_rfl
  unfold hover
  split_ifs with hshort
  · exact List.forall_mem_singleton.2 (Booking.onClock_rest hend)
  · refine List.forall_mem_append.2 ⟨List.forall_mem_append.2 ⟨?_, ?_⟩, ?_⟩
    · exact List.forall_mem_singleton.2 (Booking.onClock_motion hstart hstart.enteredBy)
    · exact onClock_samples hstart hstop hstart.enteredBy
    · exact List.forall_mem_singleton.2 (Booking.onClock_motion hend
        (hstart.enteredBy.trans (line.tick_le_tickAt line.steps)))

theorem onClock_drag (hstart : OnClock line.tick) (hstop : line.stopTick ≤ longestTimeline)
    (hentry : EnteredBy entry line.tick) (closing : Bool) :
    ∀ booking ∈ p.drag line entry button closing, booking.OnClock := by
  refine List.forall_mem_append.2 ⟨onClock_samples hstart hstop hentry, ?_⟩
  cases closing with
  | true =>
    exact List.forall_mem_singleton.2 (Booking.onClock_motion
      (Line.onClock_tickAt hstart hstop le_rfl)
      (hentry.trans (line.tick_le_tickAt line.steps)))
  | false => exact List.forall_mem_nil _

end Pointer

/-! ### Tracks -/

variable {locate : Locator} {s : Source} {p : Pointer}

/-- A pointer source that is on the clock, in a chain that was entered before. -/
structure PointerState.OnClock (state : PointerState) : Prop where
  tick : ActionReplay.OnClock state.tick
  entry : EnteredBy state.entry state.tick

/-- A key source that is on the clock, in a chain that was entered before. -/
structure KeyboardState.OnClock (state : KeyboardState) : Prop where
  tick : ActionReplay.OnClock state.tick
  entry : EnteredBy state.entry state.tick

theorem PointerState.onClock_start (memo : PositionMemo) :
    PointerState.OnClock { memo } :=
  ⟨OnClock.zero, OnClock.zero.enteredBy⟩

theorem KeyboardState.onClock_start : KeyboardState.OnClock {} :=
  ⟨OnClock.zero, OnClock.zero.enteredBy⟩

namespace Source

/-- An act makes bookings on the clock and leaves the source on it. -/
theorem PointerAct.onClock {place : Nat} {next : Option Item} {state after : PointerState}
    {item : Item} {bookings : List Booking}
    (hact : PointerAct locate s p place next state item bookings after)
    (hstate : state.OnClock) : (∀ booking ∈ bookings, booking.OnClock) ∧ after.OnClock := by
  obtain ⟨htick, hentry⟩ := hstate
  cases hact with
  | pause hspan hfits =>
    have hend := htick.add_align hfits
    exact ⟨List.forall_mem_singleton.2 (Booking.onClock_rest hend),
      hend, hentry.trans (Nat.le_add_right _ _)⟩
  | press =>
    exact ⟨List.forall_mem_singleton.2 (Booking.onClock_motion htick htick.enteredBy),
      htick, htick.enteredBy⟩
  | lift =>
    exact ⟨List.forall_mem_singleton.2 (Booking.onClock_motion htick hentry),
      htick, htick.enteredBy⟩
  | stay => exact ⟨List.forall_mem_nil _, htick, hentry⟩
  | wait hduration hspan hlong hfits =>
    have hend := htick.add_align hfits
    exact ⟨List.forall_mem_singleton.2 (Booking.onClock_rest hend),
      hend, hentry.trans (Nat.le_add_right _ _)⟩
  | hover hduration hspan hlong hfits =>
    refine ⟨Pointer.onClock_hover htick ?_,
      htick.add_align hfits, hentry.trans (Nat.le_add_right _ _)⟩
    rwa [Pointer.Line.stopTick_of_steps rfl]
  | drag hduration hspan hlong hfits =>
    refine ⟨Pointer.onClock_drag htick ?_ hentry _,
      htick.add_align hfits, hentry.trans (Nat.le_add_right _ _)⟩
    rwa [Pointer.Line.stopTick_of_steps rfl]

theorem onClock_pointerTrackFrom {place : Nat} {state : PointerState} {items : List Item}
    {track : List Booking} (htrack : s.pointerTrackFrom locate p place state items = .ok track)
    (hstate : state.OnClock) : ∀ booking ∈ track, booking.OnClock :=
  forall_mem_pointerTrackFrom (fun hact hbefore ↦ hact.onClock hbefore) htrack hstate

/-- The track of a pointer source keeps to the clock. -/
theorem onClock_pointerTrack {ordinal : Nat} {track : List Booking}
    (htrack : s.pointerTrack locate ordinal = .ok track) :
    ∀ booking ∈ track, booking.OnClock := by
  obtain ⟨-, alone, halone, rfl⟩ := pointerTrack_eq_ok.1 htrack
  intro booking hbooking
  obtain ⟨before, hbefore, rfl⟩ := List.mem_map.1 hbooking
  exact (onClock_pointerTrackFrom halone (PointerState.onClock_start _) before
    hbefore).withPointer ordinal

theorem KeyAct.onClock {place : Nat} {state after : KeyboardState} {item : Item}
    {booking : Booking} (hact : KeyAct s place state item booking after)
    (hstate : state.OnClock) : booking.OnClock ∧ after.OnClock := by
  obtain ⟨htick, hentry⟩ := hstate
  cases hact with
  | pause hspan hfits =>
    have hend := htick.add_align hfits
    exact ⟨Booking.onClock_rest hend, hend, hentry.trans (Nat.le_add_right _ _)⟩
  | press => exact ⟨Booking.onClock_key htick htick.enteredBy, htick, htick.enteredBy⟩
  | release => exact ⟨Booking.onClock_key htick hentry, htick, htick.enteredBy⟩

/-- The track of a key source keeps to the clock. -/
theorem onClock_keyTrack {track : List Booking} (htrack : s.keyTrack = .ok track) :
    ∀ booking ∈ track, booking.OnClock :=
  forall_mem_keyTrackFrom (fun hact hbefore ↦ hact.onClock hbefore) htrack
    KeyboardState.onClock_start

/-- The track of a source without input keeps to the clock. -/
theorem onClock_restTrack {track : List Booking} (htrack : s.restTrack = .ok track) :
    ∀ booking ∈ track, booking.OnClock := by
  refine forall_mem_restTrackFrom (fun hfits hbefore ↦ ?_) htrack OnClock.zero
  have hend := OnClock.add_align hbefore hfits
  exact ⟨Booking.onClock_rest hend, hend⟩

end Source

end ActionReplay
