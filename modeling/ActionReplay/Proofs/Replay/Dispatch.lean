import ActionReplay.Replay.Dispatch

/-!
# A dispatch sends the signals of its timeline

A dispatcher makes every event in front of the device, and what it remembers and what the device
remembers change together. Yet nothing that the device answers comes back: every step sends some
signals, which what the dispatcher remembers decides, and remembers something else
(`Dispatch.tell`). Steps in a row send their signals in a row (`Dispatch.tell_tell`), so a tick sends
what the replay of the tick says (`Device.dispatchTick_eq`), and the whole dispatch sends the signals
of the timeline tick by tick, with the waits in between (`Device.dispatch_eq`). Without the waits
these are all signals in a row (`Device.replay_eq_sendAll`). What every delivery and every wait keep of
the memory of a device, a dispatch keeps (`Device.dispatch_keeps`).
-/

set_option autoImplicit false
set_option relaxedAutoImplicit false

namespace ActionReplay

variable {σ : Type} {device : Device σ} {run : Dispatch σ}

theorem Gestures.set_get (g : Gestures) (tool : Tool) : g.set tool (g.get tool) = g := by
  cases tool with
  | finger => rfl
  | mouse => rfl
  | stylus => rfl

theorem Gestures.set_set (g : Gestures) (tool : Tool) (first second : Gesture) :
    (g.set tool first).set tool second = g.set tool second := by
  cases tool with
  | finger => rfl
  | mouse => rfl
  | stylus => rfl

namespace Dispatch

/-- Sends signals, and remembers something else. -/
def tell (device : Device σ) (run : Dispatch σ) (told : List Signal × ReplayState) : Dispatch σ :=
  { state := told.2, sent := told.1.foldl device.send run.sent }

theorem state_tell (told : List Signal × ReplayState) : (run.tell device told).state = told.2 := rfl

theorem tell_tell (first second : List Signal × ReplayState) :
    (run.tell device first).tell device second =
      run.tell device (first.1 ++ second.1, second.2) := by
  rw [tell, tell, tell, List.foldl_append]

/-- Sends the events of one tool, and remembers its gesture. -/
def play (device : Device σ) (tool : Tool) (run : Dispatch σ)
    (played : List InputEvent × Gesture) : Dispatch σ :=
  (run.setGesture tool played.2).tell device
    (played.1.map .event, (run.setGesture tool played.2).state)

theorem flags_play (tool : Tool) (played : List InputEvent × Gesture) :
    (run.play device tool played).flags = run.flags := rfl

theorem gesture_play (tool : Tool) (played : List InputEvent × Gesture) :
    (run.play device tool played).gesture tool = played.2 := by
  change (run.state.gestures.set tool played.2).get tool = played.2
  rw [Gestures.get_set, if_pos rfl]

/-- Playing nothing leaves everything as it is. -/
theorem play_nil (tool : Tool) : run.play device tool ([], run.gesture tool) = run := by
  rw [play, setGesture, gesture, Gestures.set_get]
  rfl

theorem play_play (tool : Tool) (first second : List InputEvent × Gesture) :
    (run.play device tool first).play device tool second =
      run.play device tool (first.1 ++ second.1, second.2) := by
  have hgestures : (run.state.gestures.set tool first.2).set tool second.2 =
      run.state.gestures.set tool second.2 := Gestures.set_set ..
  calc (run.play device tool first).play device tool second
      = { state := { run.state with
            gestures := (run.state.gestures.set tool first.2).set tool second.2 },
          sent := (second.1.map Signal.event).foldl device.send
            ((first.1.map Signal.event).foldl device.send run.sent) } := rfl
    _ = run.play device tool (first.1 ++ second.1, second.2) := by
        rw [hgestures, ← List.foldl_append, ← List.map_append]
        rfl

end Dispatch

namespace Device

/-! ### Key cues -/

theorem dispatchKey_eq (cue : KeyCue) :
    device.dispatchKey run cue = run.tell device
      ((run.state.held.signal? cue).toList,
        { run.state with held := run.state.held.after cue }) := by
  unfold dispatchKey HeldModifiers.signal? HeldModifiers.after
  cases Key.ofCodePoint? cue.codePoint with
  | none => rfl
  | some key =>
    cases key with
    | releaseAll => rfl
    | stroke => rfl
    | modifier m =>
      cases cue.action with
      | down => rfl
      | up => rfl

theorem foldl_dispatchKey (cues : List KeyCue) :
    cues.foldl device.dispatchKey run = run.tell device
      ((run.state.held.signals cues).1,
        { run.state with held := (run.state.held.signals cues).2 }) := by
  induction cues generalizing run with
  | nil => rfl
  | cons cue rest ih =>
    rw [List.foldl_cons, ih, dispatchKey_eq, Dispatch.tell_tell]
    rfl

/-! ### Motion cues -/

section Tool

variable (tool : Tool)

theorem inject?_setGesture (event? : Option InputEvent) (gesture : Gesture) :
    device.inject? (run.setGesture tool gesture) event? =
      run.play device tool (event?.toList, gesture) := by
  cases event? with
  | none => rfl
  | some e => rfl

theorem foldl_pointerDown (cues : List MotionCue) :
    cues.foldl (device.pointerDown tool) run =
      run.play device tool ((run.gesture tool).pressAll run.flags cues) := by
  induction cues generalizing run with
  | nil => exact (Dispatch.play_nil tool).symm
  | cons cue rest ih =>
    have hfirst : device.pointerDown tool run cue = run.play device tool
        ([((run.gesture tool).press run.flags cue).1],
          ((run.gesture tool).press run.flags cue).2) := rfl
    rw [List.foldl_cons, ih, hfirst, Dispatch.gesture_play, Dispatch.flags_play,
      Dispatch.play_play]
    rfl

theorem pointerMove_eq (cues : List MotionCue) :
    device.pointerMove tool run cues = run.play device tool
      (((run.gesture tool).drag run.flags cues).1.toList,
        ((run.gesture tool).drag run.flags cues).2) :=
  inject?_setGesture ..

theorem foldl_pointerUp (cues : List MotionCue) :
    cues.foldl (device.pointerUp tool) run =
      run.play device tool ((run.gesture tool).liftAll run.flags cues) := by
  induction cues generalizing run with
  | nil => exact (Dispatch.play_nil tool).symm
  | cons cue rest ih =>
    have hfirst : device.pointerUp tool run cue = run.play device tool
        (((run.gesture tool).lift run.flags cue).1.toList,
          ((run.gesture tool).lift run.flags cue).2) := inject?_setGesture ..
    rw [List.foldl_cons, ih, hfirst, Dispatch.gesture_play, Dispatch.flags_play,
      Dispatch.play_play]
    rfl

theorem pointerHover_eq (action : MotionAction) (cues : List MotionCue) :
    device.pointerHover action run cues = run.play device tool
      ((Gesture.hover run.flags action cues).toList, run.gesture tool) := by
  rw [← inject?_setGesture, Dispatch.setGesture, Dispatch.gesture, Gestures.set_get]
  rfl

theorem dispatchTool_eq (cues : List MotionCue) :
    device.dispatchTool run cues tool = run.tell device (run.state.replayTool cues tool) := by
  have hreplay : run.tell device (run.state.replayTool cues tool) = run.play device tool
      ((run.gesture tool).replay run.flags (cues.filter fun cue ↦ cue.tool = tool)) := rfl
  rw [hreplay, Gesture.replay, dispatchTool, foldl_pointerDown, pointerMove_eq, foldl_pointerUp,
    pointerHover_eq tool, pointerHover_eq tool, pointerHover_eq tool]
  simp only [Dispatch.play_play, Dispatch.gesture_play, Dispatch.flags_play, List.append_assoc]

end Tool

/-! ### Ticks -/

theorem dispatchTick_eq (cues : List Cue) :
    device.dispatchTick run cues = run.tell device (run.state.replayTick cues) := by
  rw [dispatchTick, ReplayState.replayTick, foldl_dispatchKey, dispatchTool_eq, dispatchTool_eq,
    dispatchTool_eq]
  simp only [Dispatch.tell_tell, Dispatch.state_tell, List.append_assoc]

/-- Sends the signals of ticks that follow a tick, with the waits between the ticks. -/
def sendFrom (device : Device σ) (pacing : Bool) (previous : Tick) (sent : Outcome × σ) :
    List (Tick × List Signal) → Outcome × σ
  | [] => sent
  | (tick, signals) :: rest =>
    sendFrom device pacing tick (signals.foldl device.send (device.wait pacing previous tick sent))
      rest

theorem dispatchFrom_eq (pacing : Bool) (previous : Tick) (ticks : List (Tick × List Cue)) :
    (device.dispatchFrom pacing previous run ticks).sent =
      device.sendFrom pacing previous run.sent (run.state.replay ticks) := by
  induction ticks generalizing previous run with
  | nil => rfl
  | cons entry rest ih =>
    obtain ⟨tick, cues⟩ := entry
    rw [dispatchFrom, dispatchTick_eq, ih, ReplayState.replay_cons]
    rfl

/-- Whatever the device answers, a dispatch remembers what a replay of the same ticks remembers. -/
theorem state_dispatchFrom (pacing : Bool) (previous : Tick) (ticks : List (Tick × List Cue)) :
    (device.dispatchFrom pacing previous run ticks).state = run.state.after ticks := by
  induction ticks generalizing previous run with
  | nil => rfl
  | cons entry rest ih =>
    obtain ⟨tick, cues⟩ := entry
    rw [dispatchFrom, dispatchTick_eq, ih, Dispatch.state_tell]
    rfl

/-- A dispatch sends the signals of the timeline, tick by tick. -/
theorem dispatch_eq (device : Device σ) (pacing : Bool) (memory : σ) (t : Timeline) :
    device.dispatch pacing memory t =
      device.sendFrom pacing 0 ({}, memory) t.signalsByTick :=
  dispatchFrom_eq ..

theorem sendFrom_false (previous : Tick) (sent : Outcome × σ) (ticks : List (Tick × List Signal)) :
    device.sendFrom false previous sent ticks =
      (ticks.flatMap Prod.snd).foldl device.send sent := by
  induction ticks generalizing previous sent with
  | nil => rfl
  | cons entry rest ih =>
    rw [sendFrom, wait, if_neg (fun hpacing ↦ Bool.false_ne_true hpacing.1), ih,
      List.flatMap_cons, List.foldl_append]

/-- Replayed without keeping the time, a timeline sends all its signals in a row. -/
theorem replay_eq_sendAll (device : Device σ) (memory : σ) (t : Timeline) :
    device.replay memory t = device.sendAll memory t.signals := by
  rw [replay, dispatch_eq, sendFrom_false]
  rfl

/-! ### What a device keeps -/

section Keeping

variable {Keeps : σ → Prop} (hdeliver : ∀ memory e, Keeps memory → Keeps (device.deliver memory e).2)
  (helapse : ∀ time memory, Keeps memory → Keeps (device.elapse time memory)) {sent : Outcome × σ}

include hdeliver

theorem send_keeps (hsent : Keeps sent.2) (signal : Signal) : Keeps (device.send sent signal).2 := by
  cases signal with
  | event e => exact hdeliver sent.2 e hsent
  | unknownKey => exact hsent

theorem foldl_send_keeps (hsent : Keeps sent.2) (signals : List Signal) :
    Keeps (signals.foldl device.send sent).2 := by
  induction signals generalizing sent with
  | nil => exact hsent
  | cons signal rest ih => exact ih (send_keeps hdeliver hsent signal)

include helapse

theorem sendFrom_keeps (hsent : Keeps sent.2) (pacing : Bool) (previous : Tick)
    (ticks : List (Tick × List Signal)) : Keeps (device.sendFrom pacing previous sent ticks).2 := by
  induction ticks generalizing previous sent with
  | nil => exact hsent
  | cons entry rest ih =>
    have hwaited : Keeps (device.wait pacing previous entry.1 sent).2 := by
      rw [wait]
      by_cases hlate : pacing = true ∧ previous < entry.1
      · rw [if_pos hlate]
        exact helapse _ sent.2 hsent
      · rwa [if_neg hlate]
    exact ih (foldl_send_keeps hdeliver hwaited entry.2) entry.1

/-- Assumes: what every delivery and every wait keep of the memory. A dispatch keeps it. -/
theorem dispatch_keeps {memory : σ} (hmemory : Keeps memory) (pacing : Bool) (t : Timeline) :
    Keeps (device.dispatch pacing memory t).2 := by
  rw [dispatch_eq]
  exact sendFrom_keeps hdeliver helapse hmemory pacing 0 t.signalsByTick

end Keeping

end Device

end ActionReplay
