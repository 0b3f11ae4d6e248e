import ActionReplay.Key.Held
import ActionReplay.Replay.Gesture
import ActionReplay.Timeline.Basic

/-!
# From a timeline to signals

A signal is one attempt to tell a device something: an event, or a key value that is no character and so
cannot be told at all. The signals of a timeline depend on the timeline alone. Ticks are replayed in
order. At each tick the key cues come first, in the order in which they were added, and then the motion
cues, tool by tool. Modifier keys are never told; they set the flags of the events told while they are
held, so a motion sees all key cues of its tick. What is replayed after some ticks depends on them only
through the state they leave (`replay_append`).
-/

set_option autoImplicit false
set_option relaxedAutoImplicit false

namespace ActionReplay

inductive Signal where
  | event (event : InputEvent)
  | unknownKey (codePoint : UInt32)
deriving Inhabited

namespace Signal

def event? : Signal → Option InputEvent
  | .event e => some e
  | .unknownKey _ => none

end Signal

/-- The gestures of all tools. -/
structure Gestures where
  finger : Gesture := {}
  mouse : Gesture := {}
  stylus : Gesture := {}
deriving Inhabited

namespace Gestures

def get (g : Gestures) : Tool → Gesture
  | .finger => g.finger
  | .mouse => g.mouse
  | .stylus => g.stylus

def set (g : Gestures) (tool : Tool) (gesture : Gesture) : Gestures :=
  match tool with
  | .finger => { g with finger := gesture }
  | .mouse => { g with mouse := gesture }
  | .stylus => { g with stylus := gesture }

theorem get_set (g : Gestures) (tool other : Tool) (gesture : Gesture) :
    (g.set tool gesture).get other = if other = tool then gesture else g.get other := by
  cases tool <;> cases other <;> rfl

end Gestures

/-- What the replay remembers from one tick to the next. -/
structure ReplayState where
  held : HeldModifiers := []
  gestures : Gestures := {}
deriving Inhabited

namespace HeldModifiers

/-- What a key cue does to the held modifiers. Both a press and a release of the release-all key release
everything. -/
def after (held : HeldModifiers) (cue : KeyCue) : HeldModifiers :=
  match Key.ofCodePoint? cue.codePoint with
  | some .releaseAll => []
  | some (.modifier m) =>
    match cue.action with
    | .down => held.press m
    | .up => held.release m
  | _ => held

/-- What a key cue tells, with the flags of the modifiers held before it. -/
def signal? (held : HeldModifiers) (cue : KeyCue) : Option Signal :=
  match Key.ofCodePoint? cue.codePoint with
  | some (.stroke stroke) =>
    some (.event (.key
      { downTick := cue.entry, action := cue.action, stroke, metaState := held.flags }))
  | some _ => none
  | none => some (.unknownKey cue.codePoint)

/-- The signals of key cues in order, and the modifiers held after them. -/
def signals (held : HeldModifiers) : List KeyCue → List Signal × HeldModifiers
  | [] => ([], held)
  | cue :: rest =>
    let (later, last) := signals (held.after cue) rest
    ((held.signal? cue).toList ++ later, last)

end HeldModifiers

namespace ReplayState

/-- Replays the motion cues of one tool at one tick. -/
def replayTool (state : ReplayState) (cues : List MotionCue) (tool : Tool) :
    List Signal × ReplayState :=
  let (events, gesture) := (state.gestures.get tool).replay state.held.flags
    (cues.filter fun cue ↦ cue.tool = tool)
  (events.map .event, { state with gestures := state.gestures.set tool gesture })

/-- Replays the cues of one tick. -/
def replayTick (state : ReplayState) (cues : List Cue) : List Signal × ReplayState :=
  let (keys, held) := state.held.signals (cues.filterMap Cue.key?)
  let state := { state with held }
  let motions := cues.filterMap Cue.motion?
  let (fingers, state) := state.replayTool motions .finger
  let (mice, state) := state.replayTool motions .mouse
  let (styluses, state) := state.replayTool motions .stylus
  (keys ++ fingers ++ mice ++ styluses, state)

/-- Replays one tick and puts its signals before those already sent, which are held in reverse. -/
def send (sent : ReplayState × List (Tick × List Signal)) (tick : Tick × List Cue) :
    ReplayState × List (Tick × List Signal) :=
  let (signals, state) := sent.1.replayTick tick.2
  (state, (tick.1, signals) :: sent.2)

/-- The signals of every tick. -/
def replay (state : ReplayState) (ticks : List (Tick × List Cue)) : List (Tick × List Signal) :=
  (ticks.foldl send (state, [])).2.reverse

/-- What the replay remembers after some ticks. -/
def after (state : ReplayState) (ticks : List (Tick × List Cue)) : ReplayState :=
  ticks.foldl (fun state (_, cues) ↦ (state.replayTick cues).2) state

theorem foldl_send (state : ReplayState) (ticks : List (Tick × List Cue))
    (sent : List (Tick × List Signal)) :
    (ticks.foldl send (state, sent)).2.reverse = sent.reverse ++ state.replay ticks := by
  induction ticks generalizing state sent with
  | nil => simp [replay]
  | cons tick rest ih =>
    rw [replay, List.foldl_cons, List.foldl_cons, send, send, ih, ih]
    simp

@[simp]
theorem replay_nil (state : ReplayState) : state.replay [] = [] := rfl

theorem replay_cons (state : ReplayState) (tick : Tick) (cues : List Cue)
    (rest : List (Tick × List Cue)) :
    state.replay ((tick, cues) :: rest) =
      (tick, (state.replayTick cues).1) :: (state.replayTick cues).2.replay rest := by
  rw [replay, List.foldl_cons, send, foldl_send]
  rfl

theorem replay_append (state : ReplayState) (before later : List (Tick × List Cue)) :
    state.replay (before ++ later) = state.replay before ++ (state.after before).replay later := by
  induction before generalizing state with
  | nil => rfl
  | cons tick rest ih =>
    rw [List.cons_append, replay_cons, replay_cons, ih]
    rfl

end ReplayState

namespace Timeline

/-- Every tick with its signals, in increasing order. -/
def signalsByTick (t : Timeline) : List (Tick × List Signal) :=
  ReplayState.replay {} t.toList

/-- How long a replay that keeps the time waits before each tick, starting at `previous`. -/
def waitsFrom (previous : Tick) : List Tick → List Nat
  | [] => []
  | tick :: rest => (tick - previous) :: waitsFrom tick rest

/-- How long a replay that keeps the time waits before each tick. -/
def waits (t : Timeline) : List Nat :=
  waitsFrom 0 t.ticks

/-- All signals in the order in which they are sent. -/
def signals (t : Timeline) : List Signal :=
  t.signalsByTick.flatMap fun (_, signals) ↦ signals

end Timeline

end ActionReplay
