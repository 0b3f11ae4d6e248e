import ActionReplay.Proofs.Replay.Ticks

/-!
# What is told of one tool

The motion events of a tool that do not hover (`Timeline.touches`) depend on its own gesture and its
own cues alone: at every tick they are told by replaying the gesture on the cues of the tool, with
the flags that all key cues of the tick leave (`touchesAt_eq`, `gestureBefore_succ`).
-/

set_option autoImplicit false
set_option relaxedAutoImplicit false

namespace ActionReplay

/-! ### Events of a tool -/

namespace MotionAction

def isHover : MotionAction → Bool
  | .hoverEnter | .hoverMove | .hoverExit => true
  | _ => false

/-- Whether a pointer goes down. -/
def isPress : MotionAction → Bool
  | .down | .pointerDown _ => true
  | _ => false

/-- Whether a pointer goes up. -/
def isLift : MotionAction → Bool
  | .up | .pointerUp _ => true
  | _ => false

theorem isHover_of_isPress {action : MotionAction} (hpress : action.isPress = true) :
    action.isHover = false := by
  cases action with
  | hoverEnter | hoverMove | hoverExit => cases hpress
  | _ => rfl

theorem isHover_of_isLift {action : MotionAction} (hlift : action.isLift = true) :
    action.isHover = false := by
  cases action with
  | hoverEnter | hoverMove | hoverExit => cases hlift
  | _ => rfl

theorem isLift_of_isPress {action : MotionAction} (hpress : action.isPress = true) :
    action.isLift = false := by
  cases action with
  | down | pointerDown => rfl
  | _ => cases hpress

end MotionAction

namespace InputEvent

/-- The motion of an event, if it is one of a tool and does not hover. -/
def touch? (tool : Tool) : InputEvent → Option MotionEvent
  | .motion e => if e.tool = tool ∧ e.action.isHover = false then some e else none
  | .key _ => none

/-- A reading of events that sees motions of one tool only. -/
structure SeesOnly {α : Type} (tool : Tool) (read? : InputEvent → Option α) : Prop where
  key : ∀ e, read? (.key e) = none
  other : ∀ e : MotionEvent, e.tool ≠ tool → read? (.motion e) = none

theorem seesOnly_touch? (tool : Tool) : SeesOnly tool (touch? tool) :=
  ⟨fun _ ↦ rfl, fun _ hother ↦ if_neg fun htouch ↦ hother htouch.1⟩

/-- The motions of a tool among events, without those that hover. -/
def touches (tool : Tool) (events : List InputEvent) : List MotionEvent :=
  events.filterMap (touch? tool)

theorem touches_append (tool : Tool) (before later : List InputEvent) :
    touches tool (before ++ later) = touches tool before ++ touches tool later :=
  List.filterMap_append

theorem touches_cons (tool : Tool) (event : InputEvent) (rest : List InputEvent) :
    touches tool (event :: rest) = touches tool [event] ++ touches tool rest :=
  touches_append tool [event] rest

end InputEvent

namespace Timeline

/-- The motion events of a tool that do not hover, in the order in which they are sent. -/
def touches (t : Timeline) (tool : Tool) : List MotionEvent :=
  InputEvent.touches tool (t.signals.filterMap Signal.event?)

/-- Those sent at a tick. -/
def touchesAt (t : Timeline) (tool : Tool) (tick : Tick) : List MotionEvent :=
  InputEvent.touches tool ((t.signalsAt tick).filterMap Signal.event?)

/-- The motion cues of a tool at a tick. -/
def motionsAt (t : Timeline) (tool : Tool) (tick : Tick) : List MotionCue :=
  ((t.cuesAt tick).filterMap Cue.motion?).filter fun cue ↦ cue.tool = tool

/-- The gesture of a tool before a tick. -/
def gestureBefore (t : Timeline) (tool : Tool) (tick : Tick) : Gesture :=
  (t.stateBefore tick).gestures.get tool

/-- The flags of the modifiers that are held once all key cues of a tick have been replayed. -/
def flagsAt (t : Timeline) (tick : Tick) : UInt32 :=
  ((t.stateBefore tick).held.signals ((t.cuesAt tick).filterMap Cue.key?)).2.flags

end Timeline

/-! ### The tools one by one -/

namespace Gesture

theorem pressAll_cons (flags : UInt32) (g : Gesture) (cue : MotionCue) (rest : List MotionCue) :
    g.pressAll flags (cue :: rest) =
      ((g.press flags cue).1 :: ((g.press flags cue).2.pressAll flags rest).1,
        ((g.press flags cue).2.pressAll flags rest).2) := rfl

theorem liftAll_cons (flags : UInt32) (g : Gesture) (cue : MotionCue) (rest : List MotionCue) :
    g.liftAll flags (cue :: rest) =
      ((g.lift flags cue).1.toList ++ ((g.lift flags cue).2.liftAll flags rest).1,
        ((g.lift flags cue).2.liftAll flags rest).2) := rfl

theorem lift_of_zero {g : Gesture} (hbalance : g.balance = 0) (flags : UInt32) (cue : MotionCue) :
    g.lift flags cue = (none, g) :=
  if_pos hbalance

theorem lift_of_ne_zero {g : Gesture} (hbalance : g.balance ≠ 0) (flags : UInt32)
    (cue : MotionCue) :
    g.lift flags cue =
      (some (event cue flags
          (if g.balance = 1 then .up
            else .pointerUp (indexOf (g.live.insert cue.pointer cue.position) cue.pointer))
          (g.live.insert cue.pointer cue.position) cue.button),
        { balance := g.balance - 1
          live := (g.live.insert cue.pointer cue.position).erase cue.pointer }) :=
  if_neg hbalance

/-- An event that a gesture makes of one of its cues with some flags, with an action of a kind. -/
def Tells (flags : UInt32) (kind : MotionAction → Prop) (cues : List MotionCue)
    (event : InputEvent) : Prop :=
  ∃ cue ∈ cues, ∃ action pointers button,
    kind action ∧ event = Gesture.event cue flags action pointers button

theorem Tells.mono {flags : UInt32} {kind more : MotionAction → Prop}
    {cues others : List MotionCue} {event : InputEvent} (htells : Tells flags kind cues event)
    (hkind : ∀ action, kind action → more action) (hcues : ∀ cue ∈ cues, cue ∈ others) :
    Tells flags more others event := by
  obtain ⟨cue, hcue, action, pointers, button, haction, hevent⟩ := htells
  exact ⟨cue, hcues cue hcue, action, pointers, button, hkind action haction, hevent⟩

theorem tells_pressAll (flags : UInt32) (g : Gesture) (cues : List MotionCue) :
    ∀ event ∈ (g.pressAll flags cues).1, Tells flags (·.isPress = true) cues event := by
  induction cues generalizing g with
  | nil => exact List.forall_mem_nil _
  | cons cue rest ih =>
    rw [pressAll_cons]
    refine List.forall_mem_cons.2 ⟨⟨cue, List.mem_cons_self, _, _, _, ?_, rfl⟩, ?_⟩
    · split_ifs with hfirst
      · rfl
      · rfl
    · intro event hevent
      exact (ih _ event hevent).mono (fun _ ↦ id) fun _ hmem ↦ List.mem_cons_of_mem _ hmem

theorem tells_liftAll (flags : UInt32) (g : Gesture) (cues : List MotionCue) :
    ∀ event ∈ (g.liftAll flags cues).1, Tells flags (·.isLift = true) cues event := by
  induction cues generalizing g with
  | nil => exact List.forall_mem_nil _
  | cons cue rest ih =>
    rw [liftAll_cons]
    refine List.forall_mem_append.2 ⟨?_, ?_⟩
    · intro event hevent
      by_cases hbalance : g.balance = 0
      · rw [lift_of_zero hbalance] at hevent
        exact absurd hevent List.not_mem_nil
      · rw [lift_of_ne_zero hbalance] at hevent
        obtain rfl := List.mem_singleton.1 hevent
        refine ⟨cue, List.mem_cons_self, _, _, _, ?_, rfl⟩
        split_ifs with hlast
        · rfl
        · rfl
    · intro event hevent
      exact (ih _ event hevent).mono (fun _ ↦ id) fun _ hmem ↦ List.mem_cons_of_mem _ hmem

theorem tells_drag (flags : UInt32) (g : Gesture) (cues : List MotionCue) :
    ∀ event ∈ (g.drag flags cues).1.toList, Tells flags (· = .move) cues event := by
  cases cues with
  | nil => exact List.forall_mem_nil _
  | cons first rest =>
    intro event hevent
    simp only [drag] at hevent
    split_ifs at hevent with hempty
    · exact absurd hevent List.not_mem_nil
    · obtain rfl := List.mem_singleton.1 hevent
      exact ⟨first, List.mem_cons_self, _, _, _, rfl, rfl⟩

theorem tells_hover (flags : UInt32) (action : MotionAction) (cues : List MotionCue) :
    ∀ event ∈ (hover flags action cues).toList, Tells flags (· = action) cues event := by
  cases cues with
  | nil => exact List.forall_mem_nil _
  | cons first rest =>
    intro event hevent
    obtain rfl := List.mem_singleton.1 hevent
    exact ⟨first, List.mem_cons_self, _, _, _, rfl, rfl⟩

/-- The events of a gesture that do not hover: those of the downs, of all moves, and of the ups. -/
def touchEvents (metaState : UInt32) (g : Gesture) (cues : List MotionCue) : List InputEvent :=
  let having (action : CueAction) := cues.filter fun cue ↦ cue.action = action
  let (downs, g) := g.pressAll metaState (having .down)
  let (move, g) := g.drag metaState (having .move)
  downs ++ move.toList ++ (g.liftAll metaState (having .up)).1

/-- The events of a gesture that hover: one for each hover action. -/
def hoverEvents (metaState : UInt32) (cues : List MotionCue) : List InputEvent :=
  let having (action : CueAction) := cues.filter fun cue ↦ cue.action = action
  (hover metaState .hoverEnter (having .hoverEnter)).toList ++
    (hover metaState .hoverMove (having .hoverMove)).toList ++
    (hover metaState .hoverExit (having .hoverExit)).toList

theorem replay_fst (flags : UInt32) (g : Gesture) (cues : List MotionCue) :
    (g.replay flags cues).1 = g.touchEvents flags cues ++ hoverEvents flags cues := rfl

theorem tells_touchEvents (flags : UInt32) (g : Gesture) (cues : List MotionCue) :
    ∀ event ∈ g.touchEvents flags cues, Tells flags (·.isHover = false) cues event := by
  have hcues : ∀ (action : CueAction), ∀ cue ∈ cues.filter (fun cue ↦ cue.action = action),
      cue ∈ cues := fun _ _ hmem ↦ (List.mem_filter.1 hmem).1
  refine List.forall_mem_append.2 ⟨List.forall_mem_append.2 ⟨?_, ?_⟩, ?_⟩
  · intro event hevent
    exact (tells_pressAll _ _ _ event hevent).mono
      (fun _ ↦ MotionAction.isHover_of_isPress) (hcues _)
  · intro event hevent
    refine (tells_drag _ _ _ event hevent).mono ?_ (hcues _)
    rintro _ rfl
    rfl
  · intro event hevent
    exact (tells_liftAll _ _ _ event hevent).mono
      (fun _ ↦ MotionAction.isHover_of_isLift) (hcues _)

theorem tells_hoverEvents (flags : UInt32) (cues : List MotionCue) :
    ∀ event ∈ hoverEvents flags cues, Tells flags (·.isHover = true) cues event := by
  have hmono : ∀ {action : CueAction} {told : MotionAction} {event : InputEvent},
      told.isHover = true → Tells flags (· = told) (cues.filter fun cue ↦ cue.action = action) event →
        Tells flags (·.isHover = true) cues event := fun hhover htells ↦
    htells.mono (fun _ hsame ↦ hsame ▸ hhover) fun _ hmem ↦ (List.mem_filter.1 hmem).1
  refine List.forall_mem_append.2 ⟨List.forall_mem_append.2 ⟨?_, ?_⟩, ?_⟩
  · exact fun event hevent ↦ hmono rfl (tells_hover _ _ _ event hevent)
  · exact fun event hevent ↦ hmono rfl (tells_hover _ _ _ event hevent)
  · exact fun event hevent ↦ hmono rfl (tells_hover _ _ _ event hevent)

/-- Every event of a gesture is made of one of its cues. -/
theorem tells_replay (flags : UInt32) (g : Gesture) (cues : List MotionCue) :
    ∀ event ∈ (g.replay flags cues).1, Tells flags (fun _ ↦ True) cues event := by
  rw [replay_fst]
  refine List.forall_mem_append.2 ⟨?_, ?_⟩
  · exact fun event hevent ↦ (tells_touchEvents _ _ _ event hevent).mono (fun _ _ ↦ trivial)
      fun _ ↦ id
  · exact fun event hevent ↦ (tells_hoverEvents _ _ event hevent).mono (fun _ _ ↦ trivial)
      fun _ ↦ id

/-- A reading that sees one tool sees nothing of another one. -/
theorem filterMap_replay_of_ne {α : Type} {tool : Tool} {read? : InputEvent → Option α}
    (hread : InputEvent.SeesOnly tool read?) (other : Tool) (hother : other ≠ tool)
    (flags : UInt32) (g : Gesture) (cues : List MotionCue) :
    (g.replay flags (cues.filter fun cue ↦ cue.tool = other)).1.filterMap read? = [] := by
  rw [List.filterMap_eq_nil_iff]
  intro event hevent
  obtain ⟨cue, hcue, _, _, _, -, rfl⟩ := tells_replay _ _ _ event hevent
  have htool : cue.tool = other := by simpa using (List.mem_filter.1 hcue).2
  exact hread.other _ fun hsame ↦ hother (htool.symm.trans hsame)

end Gesture

namespace HeldModifiers

/-- Key cues tell no motion. -/
theorem filterMap_signals {α : Type} {tool : Tool} {read? : InputEvent → Option α}
    (hread : InputEvent.SeesOnly tool read?) (held : HeldModifiers) (cues : List KeyCue) :
    ((held.signals cues).1.filterMap Signal.event?).filterMap read? = [] := by
  induction cues generalizing held with
  | nil => rfl
  | cons cue rest ih =>
    have hfirst : ((held.signal? cue).toList.filterMap Signal.event?).filterMap read? = [] := by
      unfold signal?
      match Key.ofCodePoint? cue.codePoint with
      | some (.stroke _) => exact List.filterMap_cons_none (hread.key _)
      | some (.modifier _) => rfl
      | some .releaseAll => rfl
      | none => rfl
    rw [signals, List.filterMap_append, List.filterMap_append, hfirst]
    exact ih _

end HeldModifiers

namespace ReplayState

theorem event?_replayTool (state : ReplayState) (cues : List MotionCue) (tool : Tool) :
    (state.replayTool cues tool).1.filterMap Signal.event? =
      ((state.gestures.get tool).replay state.held.flags
        (cues.filter fun cue ↦ cue.tool = tool)).1 := by
  rw [replayTool, List.filterMap_map]
  exact List.filterMap_some

end ReplayState

namespace Timeline

variable (t : Timeline) (tool : Tool)

theorem gestureBefore_zero : t.gestureBefore tool 0 = {} := by
  rw [gestureBefore, stateBefore_zero]
  cases tool <;> rfl

/-- The gesture of a tool replays the cues of the tool. -/
theorem gestureBefore_succ (tick : Tick) :
    t.gestureBefore tool (tick + 1) =
      ((t.gestureBefore tool tick).replay (t.flagsAt tick) (t.motionsAt tool tick)).2 := by
  rw [gestureBefore, stateBefore_succ]
  cases tool <;> rfl

theorem tool_motionsAt (tick : Tick) : ∀ cue ∈ t.motionsAt tool tick, cue.tool = tool :=
  fun cue hcue ↦ by simpa using (List.mem_filter.1 hcue).2

/-- What is told of a tool at a tick is told by its own gesture. -/
theorem filterMap_signalsAt {α : Type} {tool : Tool} {read? : InputEvent → Option α}
    (hread : InputEvent.SeesOnly tool read?) (tick : Tick) :
    ((t.signalsAt tick).filterMap Signal.event?).filterMap read? =
      ((t.gestureBefore tool tick).replay (t.flagsAt tick)
        (t.motionsAt tool tick)).1.filterMap read? := by
  unfold signalsAt ReplayState.replayTick
  simp only [List.filterMap_append, HeldModifiers.filterMap_signals hread,
    ReplayState.event?_replayTool, List.nil_append]
  cases tool with
  | finger =>
    rw [Gesture.filterMap_replay_of_ne hread .mouse (by decide),
      Gesture.filterMap_replay_of_ne hread .stylus (by decide), List.append_nil, List.append_nil]
    rfl
  | mouse =>
    rw [Gesture.filterMap_replay_of_ne hread .finger (by decide),
      Gesture.filterMap_replay_of_ne hread .stylus (by decide), List.append_nil, List.nil_append]
    rfl
  | stylus =>
    rw [Gesture.filterMap_replay_of_ne hread .finger (by decide),
      Gesture.filterMap_replay_of_ne hread .mouse (by decide), List.nil_append, List.nil_append]
    rfl

theorem touchesAt_eq (tick : Tick) :
    t.touchesAt tool tick = InputEvent.touches tool
      ((t.gestureBefore tool tick).replay (t.flagsAt tick) (t.motionsAt tool tick)).1 :=
  t.filterMap_signalsAt (InputEvent.seesOnly_touch? tool) tick

/-- The motion events of a tool are those of all ticks, one after another, up to any tick that is
late enough. -/
theorem exists_touches_eq :
    ∃ last, ∀ bound, last ≤ bound →
      t.touches tool = (List.range bound).flatMap (t.touchesAt tool) := by
  obtain ⟨last, hlast⟩ := t.exists_signals_eq
  refine ⟨last, ?_⟩
  intro bound hbound
  rw [touches, InputEvent.touches, hlast bound hbound, List.filterMap_flatMap,
    List.filterMap_flatMap]
  rfl

end Timeline

end ActionReplay
