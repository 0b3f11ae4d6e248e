import ActionReplay.Key.Basic
import ActionReplay.Timeline.Cue

/-!
# Input events

What a device is handed: motions of the pointers of one tool, and key strokes. Times are given as the tick
at which the gesture of an event began.
-/

set_option autoImplicit false
set_option relaxedAutoImplicit false

namespace ActionReplay

/-- A pointer that goes down or up while others stay down is named by its place in the event's pointer
list. -/
inductive MotionAction where
  | down
  | up
  | move
  | pointerDown (index : Nat)
  | pointerUp (index : Nat)
  | hoverEnter
  | hoverMove
  | hoverExit
deriving DecidableEq, Inhabited

structure MotionEvent where
  downTick : Tick
  action : MotionAction
  tool : Tool
  pointers : List (Nat × Position)
  metaState : UInt32
  buttonState : UInt32
deriving Inhabited

structure KeyEvent where
  downTick : Tick
  action : KeyAction
  stroke : Stroke
  metaState : UInt32
deriving DecidableEq, Inhabited

inductive InputEvent where
  | motion (event : MotionEvent)
  | key (event : KeyEvent)
deriving Inhabited

namespace MotionEvent

/-- The pointer that a device with a single one follows. -/
def primary? (e : MotionEvent) : Option (Nat × Position) :=
  e.pointers.head?

end MotionEvent

namespace InputEvent

def downTick : InputEvent → Tick
  | .motion e => e.downTick
  | .key e => e.downTick

/-- The flags of the modifiers held at an event. -/
def metaState : InputEvent → UInt32
  | .motion e => e.metaState
  | .key e => e.metaState

end InputEvent

end ActionReplay
