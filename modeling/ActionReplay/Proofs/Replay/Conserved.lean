import ActionReplay.Proofs.Replay.Down
import ActionReplay.Proofs.Replay.Hover
import ActionReplay.Proofs.Replay.Watched
import ActionReplay.Proofs.Timeline.Clock
import ActionReplay.Proofs.Timeline.Keys
import ActionReplay.Proofs.Track.Tellable

/-!
# A replay loses and doubles nothing

A dispatch regroups the cues of every tick, and several of its steps can pass a cue over. On a compiled
timeline they never do. Keys are characters, so every key cue that is neither a modifier nor the
release-all key is told by a stroke of its own (`HeldModifiers.exists_strokes`). No up comes without an
open down, so every down and every up of a tool is told by a motion of its own
(`Gesture.exists_pressAll`, `Gesture.Keeps.exists_liftAll`). Hover cues of one action at one tick would
be told together, but there is one at most (`Timeline.length_having_le_one`). Moves are told together, if
any pointer is live once the downs are told, and otherwise not at all (`Gesture.exists_moves`). Nothing
else is told, and ticks follow one another (`Timeline.conserved_of_compile`).
-/

set_option autoImplicit false
set_option relaxedAutoImplicit false

namespace ActionReplay

variable {locate : Locator} {sources : List Source} {t : Timeline}

/-! ### Keys -/

/-- Neither a modifier nor the release-all key. -/
def KeyCue.isPlain (cue : KeyCue) : Bool :=
  match Key.ofCodePoint? cue.codePoint with
  | some .releaseAll | some (.modifier _) => false
  | _ => true

/-- A stroke of the key of a cue, in its chain. -/
structure KeyEvent.IsOf (e : KeyEvent) (cue : KeyCue) : Prop where
  downTick : e.downTick = cue.entry
  action : e.action = cue.action
  stroke : Key.ofCodePoint? cue.codePoint = some (.stroke e.stroke)

/-- Assumes: keys that are characters. Every one that is neither a modifier nor the release-all key is
told by one stroke, and the others by none. -/
theorem HeldModifiers.exists_strokes (held : HeldModifiers) {cues : List KeyCue}
    (hvalid : ∀ cue ∈ cues, cue.codePoint.isValidChar) :
    ∃ strokes : List KeyEvent,
      (held.signals cues).1.filterMap Signal.event? = strokes.map .key ∧
        List.Forall₂ (fun cue e ↦ e.IsOf cue) (cues.filter KeyCue.isPlain) strokes := by
  induction cues generalizing held with
  | nil => exact ⟨[], rfl, .nil⟩
  | cons cue rest ih =>
    obtain ⟨hcue, hrest⟩ := List.forall_mem_cons.1 hvalid
    obtain ⟨strokes, htold, hstrokes⟩ := ih (held.after cue) hrest
    have hsplit : (held.signals (cue :: rest)).1.filterMap Signal.event? =
        (held.signal? cue).toList.filterMap Signal.event? ++ strokes.map .key := by
      rw [← htold, ← List.filterMap_append]
      rfl
    rw [hsplit, List.filter_cons, KeyCue.isPlain, signal?]
    cases hkey : Key.ofCodePoint? cue.codePoint with
    | none => exact absurd hcue (Key.ofCodePoint?_eq_none_iff.1 hkey)
    | some key =>
      cases key with
      | releaseAll => exact ⟨strokes, rfl, hstrokes⟩
      | modifier m => exact ⟨strokes, rfl, hstrokes⟩
      | stroke stroke =>
        exact ⟨{ downTick := cue.entry, action := cue.action, stroke, metaState := held.flags } ::
          strokes, rfl, .cons ⟨rfl, rfl, hkey⟩ hstrokes⟩

/-! ### Motions -/

/-- A motion of the tool of a cue, in its chain, with its pointer where the cue puts it. -/
structure MotionEvent.IsOf (e : MotionEvent) (cue : MotionCue) : Prop where
  downTick : e.downTick = cue.entry
  tool : e.tool = cue.tool
  pointer : (cue.pointer, cue.position) ∈ e.pointers

namespace MotionCue

/-- The cues that hover, action by action. -/
def hovering (cues : List MotionCue) : List MotionCue :=
  having .hoverEnter cues ++ having .hoverMove cues ++ having .hoverExit cues

/-- Assumes: `live`, the pointers that are live once the downs are told. What tells the cues of a tool
at one tick: every down one press, every up one lift, every hover cue one hover of its pointer alone,
and all moves together one move, if any pointer is live. -/
structure ToldBy (tool : Tool) (cues : List MotionCue) (live : Table Nat Position)
    (presses moves lifts hovers : List MotionEvent) : Prop where
  presses : List.Forall₂ (fun cue e ↦ e.IsOf cue ∧ e.action.isPress = true) (having .down cues) presses
  moves : moves.map (fun e ↦ (e.tool, e.action)) =
    if having .move cues ≠ [] ∧ live ≠ [] then [(tool, .move)] else []
  lifts : List.Forall₂ (fun cue e ↦ e.IsOf cue ∧ e.action.isLift = true) (having .up cues) lifts
  hovers : List.Forall₂ (fun cue e ↦ e.IsOf cue ∧ e.action.mark = cue.action.mark ∧
    e.pointers = [(cue.pointer, cue.position)]) (hovering cues) hovers

end MotionCue

namespace Gesture

open MotionCue

variable {g : Gesture} {down : Multiset Nat} {cues : List MotionCue}

/-- Every down is told by one press. -/
theorem exists_pressAll (flags : UInt32) (g : Gesture) (cues : List MotionCue) :
    ∃ presses : List MotionEvent, (g.pressAll flags cues).1 = presses.map .motion ∧
      List.Forall₂ (fun cue e ↦ e.IsOf cue ∧ e.action.isPress = true) cues presses := by
  induction cues generalizing g with
  | nil => exact ⟨[], rfl, .nil⟩
  | cons cue rest ih =>
    obtain ⟨presses, htold, hpresses⟩ := ih (g.press flags cue).2
    rw [pressAll_cons, htold]
    refine ⟨_ :: presses, rfl, .cons ⟨⟨rfl, rfl, Table.mem_insert_self _ _ _⟩, ?_⟩ hpresses⟩
    dsimp only
    split_ifs with hfirst
    · rfl
    · rfl

/-- Assumes: ups of pointers that are down. Every one is told by one lift. -/
theorem Keeps.exists_liftAll (hkeeps : g.Keeps down) (hle : pointers cues ≤ down) (flags : UInt32) :
    ∃ lifts : List MotionEvent, (g.liftAll flags cues).1 = lifts.map .motion ∧
      List.Forall₂ (fun cue e ↦ e.IsOf cue ∧ e.action.isLift = true) cues lifts := by
  induction cues generalizing g down with
  | nil => exact ⟨[], rfl, .nil⟩
  | cons cue rest ih =>
    obtain ⟨hmem, hrest⟩ := erase_le hle
    obtain ⟨lifts, htold, hlifts⟩ := ih (hkeeps.lift hmem flags) hrest
    rw [liftAll_cons, htold, lift_of_ne_zero (hkeeps.balance_ne_zero hmem)]
    refine ⟨_ :: lifts, rfl, .cons ⟨⟨rfl, rfl, Table.mem_insert_self _ _ _⟩, ?_⟩ hlifts⟩
    dsimp only
    split_ifs with hlast
    · rfl
    · rfl

/-- Moves are told by one event if any pointer is live, and otherwise by none. -/
theorem exists_moves {tool : Tool} (htool : ∀ cue ∈ cues, cue.tool = tool) (flags : UInt32)
    (g : Gesture) :
    ∃ moves : List MotionEvent, (g.drag flags cues).1.toList = moves.map .motion ∧
      moves.map (fun e ↦ (e.tool, e.action)) =
        if cues ≠ [] ∧ g.live ≠ [] then [(tool, .move)] else [] := by
  cases cues with
  | nil => exact ⟨[], rfl, (if_neg fun hsome ↦ hsome.1 rfl).symm⟩
  | cons first rest =>
    have hempty : ((first :: rest).foldl follow (0, g.live)).2 = [] ↔ g.live = [] :=
      foldl_follow_eq_nil_iff (first :: rest) (0, g.live)
    unfold drag
    dsimp only
    by_cases hlive : g.live = []
    · rw [if_pos (List.isEmpty_iff.2 (hempty.2 hlive)), if_neg fun hsome ↦ hsome.2 hlive]
      exact ⟨[], rfl, rfl⟩
    · rw [if_neg fun hnone ↦ hlive (hempty.1 (List.isEmpty_iff.1 hnone)),
        if_pos ⟨List.cons_ne_nil _ _, hlive⟩]
      refine ⟨[_], rfl, ?_⟩
      rw [← htool first List.mem_cons_self]
      rfl

/-- Assumes: one hover cue of an action at most. It is told by one hover of its pointer alone. -/
theorem exists_hover (action : CueAction) (told : MotionAction) (hmark : told.mark = action.mark)
    (hone : (having action cues).length ≤ 1) (flags : UInt32) :
    ∃ hovers : List MotionEvent,
      (hover flags told (having action cues)).toList = hovers.map .motion ∧
        List.Forall₂ (fun cue e ↦ e.IsOf cue ∧ e.action.mark = cue.action.mark ∧
          e.pointers = [(cue.pointer, cue.position)]) (having action cues) hovers := by
  match hhaving : having action cues with
  | [] => exact ⟨[], rfl, .nil⟩
  | [cue] =>
    have hcue : cue ∈ having action cues := by
      rw [hhaving]
      exact List.mem_cons_self
    have haction : cue.action = action := of_decide_eq_true (List.mem_filter.1 hcue).2
    refine ⟨[_], rfl, .cons ⟨⟨rfl, rfl, List.mem_cons_self⟩, ?_, rfl⟩ .nil⟩
    rw [haction]
    exact hmark
  | first :: second :: rest =>
    rw [hhaving, List.length_cons, List.length_cons] at hone
    omega

/-- Assumes: cues of a tool, with no ups but those of pointers that are down before the tick or go down
at it, and one hover cue of every action at most. They are told one by one, and the moves together. -/
theorem Keeps.exists_toldBy {tool : Tool} (hkeeps : g.Keeps down)
    (hle : pointers (having .up cues) ≤ down + pointers (having .down cues))
    (htool : ∀ cue ∈ cues, cue.tool = tool)
    (hone : ∀ action : CueAction, action.isHover = true → (having action cues).length ≤ 1)
    (flags : UInt32) :
    ∃ presses moves lifts hovers,
      (g.replay flags cues).1 = (presses ++ moves ++ lifts ++ hovers).map .motion ∧
        ToldBy tool cues (g.pressed flags cues).live presses moves lifts hovers := by
  have htools : ∀ cue ∈ having .move cues, cue.tool = tool := fun cue hcue ↦
    htool cue (List.mem_filter.1 hcue).1
  obtain ⟨presses, hpresses, hdowns⟩ := exists_pressAll flags g (having .down cues)
  obtain ⟨moves, hmoves, hmove⟩ := exists_moves htools flags (g.pressed flags cues)
  obtain ⟨lifts, hlifts, hups⟩ := (hkeeps.dragged flags cues).exists_liftAll hle flags
  obtain ⟨enters, henters, henter⟩ := exists_hover .hoverEnter .hoverEnter rfl (hone _ rfl) flags
  obtain ⟨glides, hglides, hglide⟩ := exists_hover .hoverMove .hoverMove rfl (hone _ rfl) flags
  obtain ⟨exits, hexits, hexit⟩ := exists_hover .hoverExit .hoverExit rfl (hone _ rfl) flags
  refine ⟨presses, moves, lifts, enters ++ glides ++ exits, ?_, hdowns, hmove, hups,
    List.rel_append (List.rel_append henter hglide) hexit⟩
  have htouches : g.touchEvents flags cues = (presses ++ moves ++ lifts).map .motion := by
    rw [List.map_append, List.map_append, ← hpresses, ← hmoves, ← hlifts]
    rfl
  have hhovers : hoverEvents flags cues = (enters ++ glides ++ exits).map .motion := by
    rw [List.map_append, List.map_append, ← henters, ← hglides, ← hexits]
    rfl
  rw [replay_fst, htouches, hhovers, ← List.map_append]

end Gesture

/-! ### Hover cues -/

namespace HoverMark

theorem count_approach_le {mark : HoverMark} (hmark : mark ≠ .touch) (touches : Nat)
    (hovers : Bool) : (approach touches hovers).count mark ≤ 1 := by
  rw [approach, List.count_append, List.count_replicate, if_neg (by simpa using hmark.symm)]
  cases hovers with
  | false => exact Nat.zero_le 1
  | true => cases mark <;> decide

/-- In a turn a pointer enters, moves and exits a hover once at most. -/
theorem Turn.count_le {before after : Bool} {marks : List HoverMark}
    (hturn : Turn before marks after) {mark : HoverMark} (hmark : mark ≠ .touch) :
    marks.count mark ≤ 1 := by
  cases hturn with
  | start touches => exact count_approach_le hmark touches after
  | wait => exact Nat.zero_le 1
  | glide => exact List.count_le_length
  | leave touches =>
    by_cases hexit : mark = .exit
    · rw [hexit, List.count_cons_self,
        List.count_eq_zero_of_not_mem (exit_not_mem_approach touches after)]
    · rw [List.count_cons_of_ne (Ne.symm hexit)]
      exact count_approach_le hmark touches after

end HoverMark

theorem CueAction.isHover_iff {action : CueAction} : action.isHover = true ↔ action.mark ≠ .touch := by
  cases action <;> decide

theorem MotionCue.length_having {action : CueAction} (hhover : action.isHover = true)
    (cues : List MotionCue) :
    (having action cues).length = (cues.map fun cue ↦ cue.action.mark).count action.mark := by
  rw [having, ← List.countP_eq_length_filter, List.count, List.countP_map]
  apply List.countP_congr
  intro cue _
  rw [decide_eq_true_iff, Function.comp_apply, beq_iff_eq]
  constructor
  · exact congrArg CueAction.mark
  · exact fun hsame ↦ CueAction.eq_of_mark_eq hsame (CueAction.isHover_iff.1 hhover)

/-! ### Compiled timelines -/

/-- The action of an event, if it is a motion. -/
def InputEvent.motionAction? : InputEvent → Option MotionAction
  | .motion e => some e.action
  | .key _ => none

theorem Cue.Rejoins.tellable {booked standing : Cue} (hrejoins : booked.Rejoins standing)
    (hbooked : booked.Tellable) : standing.Tellable := by
  cases booked with
  | key booked =>
    cases standing with
    | key standing =>
      obtain rfl : standing = booked := hrejoins
      exact hbooked
    | motion standing => exact hrejoins.elim
  | motion booked =>
    cases standing with
    | key standing => exact hrejoins.elim
    | motion standing =>
      obtain ⟨hsame, -⟩ := hrejoins
      rw [hsame]
      exact hbooked

theorem Source.tellable_soloTrack {s : Source} {track : List Booking}
    (htrack : s.soloTrack locate = .ok track) : ∀ booking ∈ track, booking.Tellable :=
  soloTrack_elim htrack (fun _ ↦ tellable_restTrack) (fun _ ↦ tellable_keyTrack)
    fun _ ↦ tellable_pointerTrack

namespace Timeline

open MotionCue

/-- Every cue of a timeline of sources can be told. -/
theorem tellable_of_ofSources (ht : ofSources locate sources = .ok t) (tick : Tick) :
    ∀ cue ∈ t.cuesAt tick, cue.Tellable := by
  obtain ⟨track, hsolo, rfl⟩ := exists_track_of_ofSources ht
  have hbookings : ∀ booking ∈ (Source.orderedTracks track sources).flatten, booking.Tellable :=
    Source.forall_mem_orderedTracks (fun booking id hbooking ↦ hbooking.withPointer id)
      fun s hs ↦ Source.tellable_soloTrack (hsolo s hs)
  obtain ⟨standing, hstanding, hrejoins⟩ :=
    empty.cuesAt_bookAll (Source.orderedTracks track sources).flatten tick
  have hbooked : ∀ cue ∈ Booking.cuesAt (Source.orderedTracks track sources).flatten tick,
      cue.Tellable := by
    intro cue hcue
    obtain ⟨booking, hbooking, -, hsome⟩ := Booking.mem_cuesAt hcue
    exact hbookings booking hbooking cue hsome
  rw [hstanding, cuesAt_empty, List.nil_append]
  intro cue hcue
  obtain ⟨place, hplace, rfl⟩ := List.mem_iff_getElem.1 hcue
  have hlength := hrejoins.length_eq
  exact (hrejoins.get (hlength ▸ hplace) hplace).tellable (hbooked _ (List.getElem_mem _))

/-- At most one cue of a tool at a tick has a given hover action. -/
theorem length_having_le_one (ht : ofSources locate sources = .ok t) (tool : Tool) (tick : Tick)
    {action : CueAction} (hhover : action.isHover = true) :
    (having action (t.motionsAt tool tick)).length ≤ 1 := by
  by_cases hmouse : tool = .mouse
  · obtain ⟨bookings, hhovers, hmarks⟩ := exists_hovers_of_ofSources ht
    rw [hmouse, length_having hhover, hmarks]
    exact (hhovers.turn tick).count_le (CueAction.isHover_iff.1 hhover)
  · have hnone : having action (t.motionsAt tool tick) = [] := by
      apply List.filter_eq_nil_iff.2
      intro cue hcue hsame
      obtain rfl := of_decide_eq_true hsame
      obtain ⟨other, hother, hmotion⟩ := List.mem_filterMap.1 (List.mem_filter.1 hcue).1
      cases other with
      | key => cases hmotion
      | motion =>
        cases hmotion
        have htool := tellable_of_ofSources ht tick _ hother hhover
        exact hmouse ((t.tool_motionsAt tool tick cue hcue).symm.trans htool)
    rw [hnone]
    exact Nat.zero_le 1

/-- The events that a replay sends at a tick. -/
def eventsAt (t : Timeline) (tick : Tick) : List InputEvent :=
  (t.signalsAt tick).filterMap Signal.event?

/-- The pointers of a tool that are live once the downs of a tick are told, with their positions. -/
def liveAt (t : Timeline) (tool : Tool) (tick : Tick) : Table Nat Position :=
  ((t.gestureBefore tool tick).pressed (t.flagsAt tick) (t.motionsAt tool tick)).live

/-- A tick sends the events of its key cues, and then those of its motion cues, tool by tool. -/
theorem eventsAt_eq (t : Timeline) (tick : Tick) :
    t.eventsAt tick =
      ((t.stateBefore tick).held.signals ((t.cuesAt tick).filterMap Cue.key?)).1.filterMap
          Signal.event? ++
        [.finger, .mouse, .stylus].flatMap fun tool ↦
          ((t.gestureBefore tool tick).replay (t.flagsAt tick) (t.motionsAt tool tick)).1 := by
  unfold eventsAt signalsAt ReplayState.replayTick
  simp only [List.filterMap_append, ReplayState.event?_replayTool, List.append_assoc,
    List.flatMap_cons, List.flatMap_nil, List.append_nil]
  rfl

theorem filterMap_signals (t : Timeline) :
    t.signals.filterMap Signal.event? = t.ticks.flatMap t.eventsAt := by
  rw [signals, signalsByTick_eq, List.flatMap_map, List.filterMap_flatMap]
  rfl

/-- Assumes: a payload that compiles. Any device is handed the events of the ticks one after another,
whether the time is kept or not. At a tick these are one stroke for each key cue that is neither a
modifier nor the release-all key, in the order of the cues, and after them the motions, tool by tool:
one for each down, one for all moves together if any pointer of the tool is live after the downs, one
for each up, and one for each hover cue, which lists the pointer of that cue alone. Nothing else is
handed over. -/
theorem conserved_of_compile {actions : Json} (ht : compile locate actions = .ok t) {σ : Type}
    (device : Device σ) (pacing : Bool) (memory : σ) :
    (device.answers pacing memory t).map Prod.fst = t.ticks.flatMap t.eventsAt ∧
      t.ticks.Pairwise (· < ·) ∧
      ∀ tick, ∃ (strokes : List KeyEvent) (motions : Tool → List MotionEvent),
        t.eventsAt tick = strokes.map .key ++
          (motions .finger ++ motions .mouse ++ motions .stylus).map .motion ∧
        List.Forall₂ (fun cue e ↦ e.IsOf cue)
          (((t.cuesAt tick).filterMap Cue.key?).filter KeyCue.isPlain) strokes ∧
        ∀ tool, ∃ presses moves lifts hovers,
          motions tool = presses ++ moves ++ lifts ++ hovers ∧
            ToldBy tool (t.motionsAt tool tick) (t.liveAt tool tick) presses moves lifts hovers := by
  obtain ⟨sources, -, hsources⟩ := exists_sources_of_compile ht
  have hshows := shows_of_ofSources hsources
  refine ⟨?_, t.ticks_pairwise, fun tick ↦ ?_⟩
  · rw [device.map_fst_answers, filterMap_signals]
  have hvalid : ∀ cue ∈ (t.cuesAt tick).filterMap Cue.key?, cue.codePoint.isValidChar := by
    intro cue hcue
    obtain ⟨other, hother, hkey⟩ := List.mem_filterMap.1 hcue
    cases other with
    | motion => cases hkey
    | key =>
      cases hkey
      exact tellable_of_ofSources hsources tick _ hother
  have htold := fun tool ↦ (hshows.keeps_gestureBefore tool tick).exists_toldBy
    (hshows.ups_le tool tick) (t.tool_motionsAt tool tick)
    (fun _ hhover ↦ length_having_le_one hsources tool tick hhover) (t.flagsAt tick)
  obtain ⟨strokes, hstrokes, hkeys⟩ := (t.stateBefore tick).held.exists_strokes hvalid
  choose presses moves lifts hovers hreplay htold using htold
  refine ⟨strokes, fun tool ↦ presses tool ++ moves tool ++ lifts tool ++ hovers tool, ?_, hkeys,
    fun tool ↦ ⟨_, _, _, _, rfl, htold tool⟩⟩
  rw [eventsAt_eq, hstrokes]
  simp only [List.flatMap_cons, List.flatMap_nil, List.append_nil, hreplay, List.map_append,
    List.append_assoc]

/-- A letter typed with shift, while a mouse hovers, and then drags. -/
def shiftedLetter : Json :=
  .array [
    .object [("id", .string "k"), ("type", .string SourceKind.key.name), ("actions", .array [
      keyItem .keyDown "\ue008",
      keyItem .keyDown "a",
      keyItem .keyUp "a",
      keyItem .keyUp "\ue008"])],
    Json.typedPointerSource "m" .mouse [
      Json.item .pointerMove [(.duration, 0), (.x, 1), (.y, 2)],
      Json.item .pointerMove [(.duration, 10), (.x, 3), (.y, 2)],
      Json.item .pointerDown [],
      Json.item .pointerMove [(.duration, 10), (.x, 9), (.y, 2)],
      Json.item .pointerUp []]]

/-- The letter makes two strokes and shift none. The hover, the down, the moves and the up of the mouse
are told one by one. -/
theorem conserved_shiftedLetter :
    ∃ t, compile (fun _ ↦ none) shiftedLetter = .ok t ∧
      (t.ticks.map fun tick ↦ (t.eventsAt tick).map InputEvent.motionAction?) =
        [[none, none, some .hoverEnter, some .hoverMove], [some .hoverMove],
          [some .down, some .move, some .hoverExit], [some .move], [some .up]] ∧
      ((Device.recorder fun _ _ ↦ false).answers true [] t).map Prod.fst =
        t.ticks.flatMap t.eventsAt := by
  have hevents : (compile (fun _ ↦ none) shiftedLetter).toOption.map
      (fun t ↦ t.ticks.map fun tick ↦ (t.eventsAt tick).map InputEvent.motionAction?) =
      some [[none, none, some .hoverEnter, some .hoverMove], [some .hoverMove],
        [some .down, some .move, some .hoverExit], [some .move], [some .up]] := by
    decide +kernel
  have hcompile : ∃ t, compile (fun _ ↦ none) shiftedLetter = .ok t := ⟨_, rfl⟩
  obtain ⟨t, ht⟩ := hcompile
  rw [ht] at hevents
  exact ⟨t, ht, Option.some.inj hevents,
    (conserved_of_compile ht (Device.recorder fun _ _ ↦ false) true []).1⟩

end Timeline

end ActionReplay
