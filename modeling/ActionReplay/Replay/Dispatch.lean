import ActionReplay.Replay.Delivery
import ActionReplay.Timeline.Compile

/-!
# Dispatching a timeline

A dispatcher walks the ticks of a timeline and hands the device every event as soon as it is made, so the
device answers while later events are yet to be made. What the dispatcher remembers from cue to cue, the
outcome so far and the memory of the device change together. If it keeps the time, it waits before each
tick.
-/

set_option autoImplicit false
set_option relaxedAutoImplicit false

namespace ActionReplay

/-- A replay under way, with the outcome so far and the memory of the device. -/
structure Dispatch (σ : Type) where
  state : ReplayState := {}
  sent : Outcome × σ

namespace Dispatch

variable {σ : Type}

def hold (run : Dispatch σ) (held : HeldModifiers) : Dispatch σ :=
  { run with state := { run.state with held } }

def setGesture (run : Dispatch σ) (tool : Tool) (gesture : Gesture) : Dispatch σ :=
  { run with state := { run.state with gestures := run.state.gestures.set tool gesture } }

/-- The gesture of a tool. -/
def gesture (run : Dispatch σ) (tool : Tool) : Gesture :=
  run.state.gestures.get tool

/-- The flags of the modifiers that are held. -/
def flags (run : Dispatch σ) : UInt32 :=
  run.state.held.flags

end Dispatch

namespace Device

variable {σ : Type} (device : Device σ)

/-- Hands over an event and counts the answer. -/
def inject (run : Dispatch σ) (e : InputEvent) : Dispatch σ :=
  { run with sent := device.send run.sent (.event e) }

/-- Hands over an event if there is one. -/
def inject? (run : Dispatch σ) (event? : Option InputEvent) : Dispatch σ :=
  match event? with
  | some e => device.inject run e
  | none => run

/-- Both a press and a release of the release-all key release everything. -/
def dispatchKey (run : Dispatch σ) (cue : KeyCue) : Dispatch σ :=
  match Key.ofCodePoint? cue.codePoint with
  | some .releaseAll => run.hold []
  | some (.modifier m) =>
    match cue.action with
    | .down => run.hold (run.state.held.press m)
    | .up => run.hold (run.state.held.release m)
  | some (.stroke stroke) =>
    device.inject run (.key
      { downTick := cue.entry, action := cue.action, stroke, metaState := run.flags })
  | none => { run with sent := device.send run.sent (.unknownKey cue.codePoint) }

def pointerDown (tool : Tool) (run : Dispatch σ) (cue : MotionCue) : Dispatch σ :=
  let (event, gesture) := (run.gesture tool).press run.flags cue
  device.inject (run.setGesture tool gesture) event

def pointerMove (tool : Tool) (run : Dispatch σ) (cues : List MotionCue) : Dispatch σ :=
  let (event?, gesture) := (run.gesture tool).drag run.flags cues
  device.inject? (run.setGesture tool gesture) event?

def pointerUp (tool : Tool) (run : Dispatch σ) (cue : MotionCue) : Dispatch σ :=
  let (event?, gesture) := (run.gesture tool).lift run.flags cue
  device.inject? (run.setGesture tool gesture) event?

def pointerHover (action : MotionAction) (run : Dispatch σ) (cues : List MotionCue) : Dispatch σ :=
  device.inject? run (Gesture.hover run.flags action cues)

/-- The downs of a tool at one tick, then one event for all moves, then the ups, then one event for each
hover action. -/
def dispatchTool (run : Dispatch σ) (cues : List MotionCue) (tool : Tool) : Dispatch σ :=
  let having (action : CueAction) :=
    (cues.filter fun cue ↦ cue.tool = tool).filter fun cue ↦ cue.action = action
  let run := (having .down).foldl (device.pointerDown tool) run
  let run := device.pointerMove tool run (having .move)
  let run := (having .up).foldl (device.pointerUp tool) run
  let run := device.pointerHover .hoverEnter run (having .hoverEnter)
  let run := device.pointerHover .hoverMove run (having .hoverMove)
  device.pointerHover .hoverExit run (having .hoverExit)

/-- The key cues of one tick, and then its motion cues, tool by tool. -/
def dispatchTick (run : Dispatch σ) (cues : List Cue) : Dispatch σ :=
  let run := (cues.filterMap Cue.key?).foldl device.dispatchKey run
  let motions := cues.filterMap Cue.motion?
  let run := device.dispatchTool run motions .finger
  let run := device.dispatchTool run motions .mouse
  device.dispatchTool run motions .stylus

/-- Lets the time between two ticks pass. -/
def wait (pacing : Bool) (previous tick : Tick) (sent : Outcome × σ) : Outcome × σ :=
  if pacing ∧ previous < tick then (sent.1, device.elapse (tick - previous) sent.2) else sent

/-- Dispatches the ticks that follow a tick. -/
def dispatchFrom (pacing : Bool) (previous : Tick) (run : Dispatch σ) :
    List (Tick × List Cue) → Dispatch σ
  | [] => run
  | (tick, cues) :: rest =>
    let run := { run with sent := device.wait pacing previous tick run.sent }
    dispatchFrom pacing tick (device.dispatchTick run cues) rest

/-- Dispatches a timeline. -/
def dispatch (pacing : Bool) (memory : σ) (t : Timeline) : Outcome × σ :=
  (device.dispatchFrom pacing 0 { sent := ({}, memory) } t.toList).sent

/-- Replays a timeline without keeping the time. -/
def replay (memory : σ) (t : Timeline) : Outcome × σ :=
  device.dispatch false memory t

/-- Compiles the array of sources of a payload and replays its timeline. Nothing reaches the device unless
the whole payload compiles. -/
def perform (memory : σ) (locate : Locator) (actions : Json) : Except Fault (Outcome × σ) := do
  let timeline ← Timeline.compile locate actions
  return device.replay memory timeline

end Device

end ActionReplay
