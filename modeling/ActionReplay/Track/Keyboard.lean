import ActionReplay.Track.Rest

/-!
# The track of a key source

A key source presses and releases keys and pauses in between. A press enters a chain at its own tick; a
release belongs to the chain of the key event before it. Either way the next key event finds the chain
at the tick of this one.
-/

set_option autoImplicit false
set_option relaxedAutoImplicit false

namespace ActionReplay

/-- Where a key source stands: its tick, and the tick at which the current chain was entered. -/
structure KeyboardState where
  tick : Tick := 0
  entry : Tick := 0
deriving DecidableEq, Inhabited

namespace Source

/-- The code point of a key value: its first character. -/
def keyCodePoint (s : Source) (place : Nat) (type : ItemType) (value : Option String) :
    Except Fault UInt32 :=
  match value with
  | none => .error (.missingItemField s.id place type .value)
  | some value =>
    match value.toList with
    | [] => .error (.invalidItemField s.id place .value .empty)
    | c :: _ => .ok c.val

/-- Books the item at a place. -/
def keyStep (s : Source) (place : Nat) (state : KeyboardState) :
    Item → Except Fault (Booking × KeyboardState)
  | .pause duration => do
    let tick ← s.pauseEnd place state.tick duration
    return (.rest tick, { state with tick })
  | .keyDown value => do
    let codePoint ← s.keyCodePoint place .keyDown value
    return (.key state.tick { entry := state.tick, action := .down, codePoint },
      { state with entry := state.tick })
  | .keyUp value => do
    let codePoint ← s.keyCodePoint place .keyUp value
    return (.key state.tick { entry := state.entry, action := .up, codePoint },
      { state with entry := state.tick })
  | item => .error (s.unexpected item)

/-- The bookings of the items from a place on. -/
def keyTrackFrom (s : Source) : Nat → KeyboardState → List Item → Except Fault (List Booking)
  | _, _, [] => .ok []
  | place, state, item :: rest => do
    let (booking, state) ← s.keyStep place state item
    let bookings ← keyTrackFrom s (place + 1) state rest
    return booking :: bookings

/-- The bookings of a key source. -/
def keyTrack (s : Source) : Except Fault (List Booking) :=
  s.keyTrackFrom 0 {} s.items

end Source

end ActionReplay
