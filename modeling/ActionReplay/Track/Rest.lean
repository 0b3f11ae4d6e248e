import ActionReplay.Source.Fault
import ActionReplay.Timeline.Cue

/-!
# The time that items take

The time an item asks for, and the tick it leads to. A duration must be present and must not be negative,
and no source may pass the longest timeline.

A source that drives nothing only pauses, and nothing but this time matters to it: its track waits for the
end of every pause.
-/

set_option autoImplicit false
set_option relaxedAutoImplicit false

namespace ActionReplay.Source

/-! ### The time of an item -/

/-- The duration that the item at a place must have. -/
def requiredDuration (s : Source) (place : Nat) (type : ItemType) (duration : Option Int64) :
    Except Fault Int64 :=
  match duration with
  | none => .error (.missingItemField s.id place type .duration)
  | some duration =>
    if duration < 0 then .error (.negativeDuration s.id place type) else .ok duration

/-- The tick a duration after another one. -/
def advance (s : Source) (place : Nat) (type : ItemType) (tick : Tick) (duration : Nat) :
    Except Fault Tick :=
  if tick + duration ≤ longestTimeline then .ok (tick + duration)
  else .error (.timelineTooLong s.id place type)

/-- The tick at which a pause ends. -/
def pauseEnd (s : Source) (place : Nat) (tick : Tick) (duration : Option Int64) :
    Except Fault Tick := do
  let duration ← s.requiredDuration place .pause duration
  s.advance place .pause tick (align duration)

/-- The fault of an item that a source of this kind does not know. -/
def unexpected (s : Source) (item : Item) : Fault :=
  .unsupportedItem s.id s.kind item.type.name

/-! ### The track of a source without input -/

/-- The bookings of the items from a place on, starting at a tick. -/
def restTrackFrom (s : Source) : Nat → Tick → List Item → Except Fault (List Booking)
  | _, _, [] => .ok []
  | place, tick, .pause duration :: rest => do
    let tick ← s.pauseEnd place tick duration
    let bookings ← restTrackFrom s (place + 1) tick rest
    return .rest tick :: bookings
  | _, _, item :: _ => .error (s.unexpected item)

/-- The bookings of a source without input. -/
def restTrack (s : Source) : Except Fault (List Booking) :=
  s.restTrackFrom 0 0 s.items

end ActionReplay.Source
