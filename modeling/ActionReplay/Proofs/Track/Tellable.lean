import ActionReplay.Proofs.Track.Origin

/-!
# What tracks can tell

Two kinds of cue would be lost in a replay: the cue of a key that is no character, and hover cues of
several pointers at one tick, which would be told together. Neither comes from a source: a key source
takes its code points from texts, and of the pointer sources only those of a mouse hover
(`Cue.Tellable`, `Source.tellable_keyTrack`, `Source.tellable_pointerTrack`).
-/

set_option autoImplicit false
set_option relaxedAutoImplicit false

namespace ActionReplay

variable {locate : Locator} {s : Source} {p : Pointer}

/-- A key of a character, or a motion that hovers only if it is of the mouse. -/
def Cue.Tellable : Cue → Prop
  | .key cue => cue.codePoint.isValidChar
  | .motion cue => cue.action.isHover = true → cue.tool = .mouse

/-- A booking of such a cue, if of any. -/
def Booking.Tellable (booking : Booking) : Prop :=
  ∀ cue, booking.cue = some cue → cue.Tellable

theorem Booking.tellable_of_none {booking : Booking} (hnone : booking.cue = none) :
    booking.Tellable := by
  intro cue hcue
  rw [hnone] at hcue
  cases hcue

/-- The id on a cue says nothing about its key or its tool. -/
theorem Booking.Tellable.withPointer {booking : Booking} (hbooking : booking.Tellable) (id : Nat) :
    (booking.withPointer id).Tellable := by
  intro cue hcue
  obtain ⟨before, hbefore, rfl⟩ := Option.map_eq_some_iff.1 hcue
  cases before with
  | motion cue => exact hbooking (.motion cue) hbefore
  | key cue => exact hbooking (.key cue) hbefore

namespace Source

/-! ### Pointer sources -/

/-- An act hovers only with a mouse. -/
theorem PointerAct.tellable {place : Nat} {next : Option Item} {state after : PointerState}
    {item : Item} {bookings : List Booking}
    (hact : PointerAct locate s p place next state item bookings after) :
    ∀ booking ∈ bookings, booking.Tellable := by
  intro booking hbooking
  rcases hact.owns_bookings booking hbooking with hnone | ⟨motion, hmotion, -, htool⟩
  · exact Booking.tellable_of_none hnone
  · intro cue hcue
    obtain rfl : .motion motion = cue := Option.some.inj (hmotion.symm.trans hcue)
    intro hhover
    have hsome : booking.motion? = some motion := by
      rw [Booking.motion?, hmotion]
      rfl
    rw [htool]
    cases hact with
    | pause =>
      rw [List.mem_singleton.1 hbooking] at hmotion
      cases hmotion
    | press =>
      rw [List.mem_singleton.1 hbooking] at hmotion
      cases hmotion
      cases hhover
    | lift =>
      rw [List.mem_singleton.1 hbooking] at hmotion
      cases hmotion
      cases hhover
    | stay => exact absurd hbooking List.not_mem_nil
    | wait =>
      rw [List.mem_singleton.1 hbooking] at hmotion
      cases hmotion
    | hover _ _ _ _ _ _ _ _ hmouse => exact hmouse
    | drag =>
      rw [(Pointer.move_drag booking hbooking motion hsome).1] at hhover
      cases hhover

/-- Of the tracks of pointer sources only those of a mouse hover. -/
theorem tellable_pointerTrack {ordinal : Nat} {track : List Booking}
    (htrack : s.pointerTrack locate ordinal = .ok track) : ∀ booking ∈ track, booking.Tellable :=
  forall_mem_pointerTrackFrom (fun hact _ ↦ ⟨hact.tellable, trivial⟩)
    (pointerTrackFrom_of_pointerTrack htrack) trivial

/-! ### Key sources -/

/-- The code point of a key value is that of a character. -/
theorem isValidChar_of_keyCodePoint {place : Nat} {type : ItemType} {value : Option String}
    {codePoint : UInt32} (hvalue : s.keyCodePoint place type value = .ok codePoint) :
    codePoint.isValidChar := by
  obtain ⟨text, first, rest, -, -, rfl⟩ := exists_of_keyCodePoint hvalue
  exact first.valid

theorem KeyAct.tellable {place : Nat} {state after : KeyboardState} {item : Item}
    {booking : Booking} (hact : KeyAct s place state item booking after) : booking.Tellable := by
  cases hact with
  | pause => exact Booking.tellable_of_none rfl
  | press hvalue =>
    intro cue hcue
    cases hcue
    exact isValidChar_of_keyCodePoint hvalue
  | release hvalue =>
    intro cue hcue
    cases hcue
    exact isValidChar_of_keyCodePoint hvalue

/-- The keys of a key source are characters. -/
theorem tellable_keyTrack {track : List Booking} (htrack : s.keyTrack = .ok track) :
    ∀ booking ∈ track, booking.Tellable :=
  forall_mem_keyTrackFrom (fun hact _ ↦ ⟨hact.tellable, trivial⟩) htrack trivial

/-! ### Sources without input -/

theorem tellable_restTrack {track : List Booking} (htrack : s.restTrack = .ok track) :
    ∀ booking ∈ track, booking.Tellable :=
  forall_mem_restTrackFrom (K := fun _ ↦ True)
    (fun _ _ ↦ ⟨Booking.tellable_of_none rfl, trivial⟩) htrack trivial

end Source

end ActionReplay
