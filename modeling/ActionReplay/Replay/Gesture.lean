import ActionReplay.Replay.Event
import ActionReplay.Table

/-!
# Gestures

The pointers of one tool that are down, with their latest positions, and how many downs are not yet
matched by an up. The first down of a gesture and its last up are plain actions; a down or an up in
between names the pointer that changed. The motion cues of one tool at one tick are replayed together:
the downs, then one event for all moves, then the ups, then one event for each hover action.
-/

set_option autoImplicit false
set_option relaxedAutoImplicit false

namespace ActionReplay

structure Gesture where
  balance : Nat := 0
  live : Table Nat Position := []
deriving Inhabited

namespace Gesture

/-- The place of a pointer among those that are down. -/
def indexOf (live : Table Nat Position) (pointer : Nat) : Nat :=
  (live.findIdx? fun entry ↦ entry.1 = pointer).getD 0

def event (cue : MotionCue) (metaState : UInt32) (action : MotionAction)
    (pointers : List (Nat × Position)) (buttonState : UInt32) : InputEvent :=
  .motion { downTick := cue.entry, action, tool := cue.tool, pointers, metaState, buttonState }

def press (metaState : UInt32) (g : Gesture) (cue : MotionCue) : InputEvent × Gesture :=
  let live := g.live.insert cue.pointer cue.position
  let action := if g.balance = 0 then .down else .pointerDown (indexOf live cue.pointer)
  (event cue metaState action live cue.button, { balance := g.balance + 1, live })

/-- An up that no down is open for is passed over. -/
def lift (metaState : UInt32) (g : Gesture) (cue : MotionCue) : Option InputEvent × Gesture :=
  if g.balance = 0 then (none, g)
  else
    let live := g.live.insert cue.pointer cue.position
    let action := if g.balance = 1 then .up else .pointerUp (indexOf live cue.pointer)
    (some (event cue metaState action live cue.button),
      { balance := g.balance - 1, live := live.erase cue.pointer })

/-- Moves a pointer that is down, and adds its buttons to those of the event. -/
def follow (moved : UInt32 × Table Nat Position) (cue : MotionCue) :
    UInt32 × Table Nat Position :=
  let (buttons, live) := moved
  match live.find? cue.pointer with
  | some _ => (buttons ||| cue.button, live.insert cue.pointer cue.position)
  | none => moved

/-- One event for all moves, if any pointer is down; it begins where the chain of the first move did. -/
def drag (metaState : UInt32) (g : Gesture) (moves : List MotionCue) :
    Option InputEvent × Gesture :=
  match moves with
  | [] => (none, g)
  | first :: _ =>
    let (buttons, live) := moves.foldl follow (0, g.live)
    (if live.isEmpty then none else some (event first metaState .move live buttons),
      { g with live })

/-- One event for all cues of one hover action. -/
def hover (metaState : UInt32) (action : MotionAction) (cues : List MotionCue) :
    Option InputEvent :=
  match cues with
  | [] => none
  | first :: _ =>
    some (event first metaState action (cues.map fun cue ↦ (cue.pointer, cue.position)) 0)

def pressAll (metaState : UInt32) (g : Gesture) : List MotionCue → List InputEvent × Gesture
  | [] => ([], g)
  | cue :: rest =>
    let (event, g) := g.press metaState cue
    let (events, g) := pressAll metaState g rest
    (event :: events, g)

def liftAll (metaState : UInt32) (g : Gesture) : List MotionCue → List InputEvent × Gesture
  | [] => ([], g)
  | cue :: rest =>
    let (event, g) := g.lift metaState cue
    let (events, g) := liftAll metaState g rest
    (event.toList ++ events, g)

/-- Replays the motion cues of this gesture's tool at one tick. -/
def replay (metaState : UInt32) (g : Gesture) (cues : List MotionCue) :
    List InputEvent × Gesture :=
  let having (action : CueAction) := cues.filter fun cue ↦ cue.action = action
  let (downs, g) := g.pressAll metaState (having .down)
  let (move, g) := g.drag metaState (having .move)
  let (ups, g) := g.liftAll metaState (having .up)
  let hovers :=
    (hover metaState .hoverEnter (having .hoverEnter)).toList ++
      (hover metaState .hoverMove (having .hoverMove)).toList ++
      (hover metaState .hoverExit (having .hoverExit)).toList
  (downs ++ move.toList ++ ups ++ hovers, g)

end Gesture

end ActionReplay
