import ActionReplay.Position.Memo
import ActionReplay.Track.Rest

/-!
# The track of a pointer source

A pointer goes down and up and moves. A move of some length is sampled once per quantum on the straight
line from the position before it to its own: as hovering if the pointer is a mouse that is up, and as
dragging otherwise. A hover enters at its first tick and leaves at its last; it needs room for two
samples, and a shorter one only takes time. A drag ends with a sample of its last position unless the
next item, being a pointer action too, shows that position by itself. The first item of a source has
nothing to move from, so a move there only takes time.
-/

set_option autoImplicit false
set_option relaxedAutoImplicit false

namespace ActionReplay

/-! ### Buttons -/

namespace Button

def primary : UInt32 := 1
def secondary : UInt32 := 2
def tertiary : UInt32 := 4
def stylusPrimary : UInt32 := 0x20
def stylusSecondary : UInt32 := 0x40

/-- The flags of a button number that has no name: the number itself, if it fits. -/
def unnamed (number : Int) : UInt32 :=
  if 0 ≤ number ∧ number < UInt32.size then number.toNat.toUInt32 else 0

/-- The flags of a button number on a tool. An absent number is zero. -/
def flags (tool : Tool) (number : Option Int64) : UInt32 :=
  let number := (number.getD 0).toInt
  match tool with
  | .finger => unnamed number
  | .stylus =>
    if number = 0 then stylusPrimary
    else if number = 1 then tertiary
    else if number = 2 then stylusSecondary
    else unnamed number
  | .mouse =>
    if number = 0 then primary
    else if number = 1 then tertiary
    else if number = 2 then secondary
    else unnamed number

end Button

/-! ### Moves -/

/-- A pointer as its cues name it. -/
structure Pointer where
  id : Nat
  tool : Tool
deriving DecidableEq, Inhabited

namespace Pointer

def cue (p : Pointer) (entry : Tick) (action : CueAction) (position : Position)
    (button : UInt32) : MotionCue :=
  { entry, action, position, button, pointer := p.id, tool := p.tool }

/-- A line that a pointer follows, from one position to another in a number of quanta. -/
structure Line where
  tick : Tick
  start : Position
  stop : Position
  steps : Nat

namespace Line

/-- The tick after some steps. -/
def tickAt (line : Line) (step : Nat) : Tick :=
  line.tick + step * quantum

/-- The position after some steps. -/
def positionAt (line : Line) (step : Nat) : Position :=
  line.start.toward line.stop step.toUInt64 line.steps.toUInt64

/-- The tick at which the line ends. -/
def stopTick (line : Line) : Tick :=
  line.tickAt line.steps

end Line

/-- One cue for every step of a line but the last. -/
def samples (p : Pointer) (line : Line) (entry : Tick) (action : CueAction) (button : UInt32) :
    List Booking :=
  (List.range line.steps).map fun step ↦
    .motion (line.tickAt step) (p.cue entry action (line.positionAt step) button)

/-- The fewest steps of a line that is hovered along. -/
def fewestHoverSteps : Nat := 2

def hover (p : Pointer) (line : Line) : List Booking :=
  if line.steps < fewestHoverSteps then [.rest line.stopTick]
  else
    [.motion line.tick (p.cue line.tick .hoverEnter line.start 0)] ++
      p.samples line line.tick .hoverMove 0 ++
      [.motion line.stopTick (p.cue line.tick .hoverExit line.stop 0)]

/-- `closing` says whether the last position gets a sample of its own. -/
def drag (p : Pointer) (line : Line) (entry : Tick) (button : UInt32) (closing : Bool) :
    List Booking :=
  p.samples line entry .move button ++
    if closing then [.motion line.stopTick (p.cue entry .move line.stop button)] else []

end Pointer

/-! ### Items -/

/-- Where a pointer source stands: its tick, the tick at which the current chain was entered, whether the
pointer is down and with which button, the ticks of the last down and the last up, and the positions
found so far. -/
structure PointerState where
  tick : Tick := 0
  entry : Tick := 0
  isDown : Bool := false
  button : UInt32 := 0
  lastDown : Option Tick := none
  lastUp : Option Tick := none
  memo : PositionMemo
deriving Inhabited

namespace Item

/-- Items that show the position they start from. -/
def showsPosition : Item → Bool
  | .pointerMove _ | .pointerDown _ | .pointerUp _ => true
  | _ => false

end Item

namespace Source

/-- The pointer goes down: it must be up, and must not have gone down at this tick before. -/
def pressStep (locate : Locator) (s : Source) (p : Pointer) (place : Nat) (state : PointerState)
    (button : Option Int64) : Except Fault (List Booking × PointerState) :=
  if state.isDown || state.lastDown = some state.tick then
    .error (.simultaneousActions s.id .pointerDown state.tick)
  else do
    let (position, memo) := state.memo.resolve locate s place
    let position ← position
    let button := Button.flags p.tool button
    return ([.motion state.tick (p.cue state.tick .down position button)],
      { state with
        entry := state.tick
        isDown := true
        button
        lastDown := some state.tick
        memo })

/-- The pointer goes up: it must be down, and must not have gone up at this tick before. -/
def liftStep (locate : Locator) (s : Source) (p : Pointer) (place : Nat) (state : PointerState)
    (button : Option Int64) : Except Fault (List Booking × PointerState) :=
  if !state.isDown then .error (.upWithoutDown s.id state.tick)
  else if state.lastUp = some state.tick then
    .error (.simultaneousActions s.id .pointerUp state.tick)
  else do
    let (position, memo) := state.memo.resolve locate s place
    let position ← position
    return ([.motion state.tick (p.cue state.entry .up position (Button.flags p.tool button))],
      { state with
        entry := state.tick
        isDown := false
        button := 0
        lastUp := some state.tick
        memo })

/-- The pointer moves. A move that takes no time books nothing, and does not ask for its position. -/
def moveStep (locate : Locator) (s : Source) (p : Pointer) (place : Nat) (next : Option Item)
    (state : PointerState) (move : PointerMove) : Except Fault (List Booking × PointerState) := do
  let duration := align (← s.requiredDuration place .pointerMove move.duration)
  if duration < quantum then return ([], state)
  let tick ← s.advance place .pointerMove state.tick duration
  match place with
  | 0 => return ([.rest tick], { state with tick })
  | before + 1 =>
    let (start, memo) := state.memo.resolve locate s before
    let start ← start
    let (stop, memo) := memo.resolve locate s place
    let stop ← stop
    let line : Pointer.Line := { tick := state.tick, start, stop, steps := duration / quantum }
    let bookings :=
      if !state.isDown && p.tool = .mouse then p.hover line
      else p.drag line state.entry state.button !(next.any Item.showsPosition)
    return (bookings, { state with tick, memo })

/-- Books the item at a place. -/
def pointerStep (locate : Locator) (s : Source) (p : Pointer) (place : Nat) (next : Option Item)
    (state : PointerState) : Item → Except Fault (List Booking × PointerState)
  | .pause duration => do
    let tick ← s.pauseEnd place state.tick duration
    return ([.rest tick], { state with tick })
  | .pointerDown button => s.pressStep locate p place state button
  | .pointerUp button => s.liftStep locate p place state button
  | .pointerMove move => s.moveStep locate p place next state move
  | item => .error (s.unexpected item)

/-- The bookings of the items from a place on. -/
def pointerTrackFrom (locate : Locator) (s : Source) (p : Pointer) :
    Nat → PointerState → List Item → Except Fault (List Booking)
  | _, _, [] => .ok []
  | place, state, item :: rest => do
    let (bookings, state) ← s.pointerStep locate p place rest.head? state item
    let later ← pointerTrackFrom locate s p (place + 1) state rest
    return bookings ++ later

/-- The bookings of the pointer source with an ordinal among the pointer sources. Only fingers can be
more than one. -/
def pointerTrack (locate : Locator) (ordinal : Nat) (s : Source) : Except Fault (List Booking) :=
  let type := s.effectivePointerType
  if 0 < ordinal && type ≠ .touch then .error (.tooManyPointers type)
  else
    s.pointerTrackFrom locate { id := ordinal, tool := type.tool } 0
      { memo := PositionMemo.empty s } s.items

end Source

end ActionReplay
