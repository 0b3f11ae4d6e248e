import ActionReplay.Clock
import ActionReplay.Source.Basic

/-!
# Cues

A cue is what a source wants to happen at a tick: a step of a pointer, or of a key. It carries the tick
at which the chain of actions it belongs to was entered. A booking puts a cue at a tick, or nothing at
all, in which case the tick is only waited for.

The step of a pointer has a position: where the pointer is, how hard it presses and how large its contact
is. `Position.toward` is the point on the straight line to another position after some of a number of
equal steps; the last step lands exactly on the end, and before it pressure and size stay those of the
start.
-/

set_option autoImplicit false
set_option relaxedAutoImplicit false

namespace ActionReplay

/-! ### Positions -/

structure Position where
  x : Float
  y : Float
  pressure : Float := 1.0
  size : Float := 1.0
deriving BEq, Inhabited

def Position.toward (start stop : Position) (step steps : UInt64) : Position :=
  if steps = 0 || steps ≤ step then stop
  else
    let t := step.toFloat / steps.toFloat
    { start with
      x := start.x + (stop.x - start.x) * t
      y := start.y + (stop.y - start.y) * t }

/-! ### Cues and bookings -/

inductive CueAction where
  | down
  | up
  | move
  | hoverEnter
  | hoverMove
  | hoverExit
deriving DecidableEq, Inhabited

inductive KeyAction where
  | down
  | up
deriving DecidableEq, Inhabited

structure MotionCue where
  entry : Tick
  action : CueAction
  position : Position
  button : UInt32
  pointer : Nat
  tool : Tool
deriving Inhabited

structure KeyCue where
  entry : Tick
  action : KeyAction
  codePoint : UInt32
deriving DecidableEq, Inhabited

inductive Cue where
  | motion (cue : MotionCue)
  | key (cue : KeyCue)
deriving Inhabited

structure Booking where
  tick : Tick
  cue : Option Cue
deriving Inhabited

/-- A hovering pointer touches nothing. -/
def CueAction.isHover : CueAction → Bool
  | .hoverEnter | .hoverMove | .hoverExit => true
  | _ => false

namespace Cue

def motion? : Cue → Option MotionCue
  | .motion cue => some cue
  | .key _ => none

def key? : Cue → Option KeyCue
  | .motion _ => none
  | .key cue => some cue

end Cue

namespace Booking

/-- A tick that is only waited for. -/
def rest (tick : Tick) : Booking := ⟨tick, none⟩

def motion (tick : Tick) (cue : MotionCue) : Booking := ⟨tick, some (.motion cue)⟩

def key (tick : Tick) (cue : KeyCue) : Booking := ⟨tick, some (.key cue)⟩

end Booking

end ActionReplay
