import ActionReplay.Source.Accepted
import ActionReplay.Source.Reading
import ActionReplay.Timeline.Basic
import ActionReplay.Track.Keyboard
import ActionReplay.Track.Pointer
import ActionReplay.Track.Rest

/-!
# From sources to a timeline

Each source is compiled into a track by itself. The tracks are then booked on one timeline: those of the
sources without input, then those of the key sources, then those of the pointer sources, each kind in the
order of the payload. Booking a motion that touches replaces its entry tick by the shared one while more
than one pointer is down, so that all fingers of a gesture belong to one chain.
-/

set_option autoImplicit false
set_option relaxedAutoImplicit false

namespace ActionReplay

namespace Timeline

/-- A cue with the entry tick it gets when it joins a timeline. -/
def joined (t : Timeline) (tick : Tick) : Cue → Cue
  | .motion cue =>
    if cue.action.isHover then .motion cue
    else .motion { cue with entry := (t.sharedEntry tick).getD cue.entry }
  | .key cue => .key cue

def book (t : Timeline) (booking : Booking) : Timeline :=
  match booking.cue with
  | none => t.addRest booking.tick
  | some cue => t.add booking.tick (t.joined booking.tick cue)

def bookAll (t : Timeline) (bookings : List Booking) : Timeline :=
  bookings.foldl book t

end Timeline

namespace Source

def ofKind (sources : List Source) (kind : SourceKind) : List Source :=
  sources.filter fun s ↦ s.kind = kind

/-- The tracks of pointer sources, numbered from an ordinal on. -/
def pointerTracksFrom (locate : Locator) : Nat → List Source → Except Fault (List (List Booking))
  | _, [] => .ok []
  | ordinal, s :: rest => do
    let track ← s.pointerTrack locate ordinal
    let tracks ← pointerTracksFrom locate (ordinal + 1) rest
    return track :: tracks

/-- The tracks of all sources in the order in which they are booked. -/
def tracks (locate : Locator) (sources : List Source) : Except Fault (List (List Booking)) := do
  let rests ← (ofKind sources .none).mapM restTrack
  let keys ← (ofKind sources .key).mapM keyTrack
  let pointers ← pointerTracksFrom locate 0 (ofKind sources .pointer)
  return rests ++ keys ++ pointers

end Source

namespace Timeline

/-- The timeline of sources. -/
def ofSources (locate : Locator) (sources : List Source) : Except Fault Timeline := do
  let tracks ← Source.tracks locate sources
  return tracks.foldl bookAll empty

/-- The timeline of the array of sources that a payload carries. -/
def compile (locate : Locator) (actions : Json) : Except Fault Timeline := do
  let sources ← Source.readAll actions
  let accepted ← Source.accept sources
  ofSources locate accepted

end Timeline

end ActionReplay
