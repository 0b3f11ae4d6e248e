import ActionReplay.Proofs.Replay.Touches
import ActionReplay.Proofs.Replay.Watched
import ActionReplay.Proofs.Timeline.Pointers
import ActionReplay.Proofs.Track.Hover

/-!
# What is told of hovers

Only a first pointer source hovers, and only if it is a mouse, so the cues of the mouse make a turn
at every tick (`Timeline.exists_hovers_of_ofSources`). A replay tells the downs, moves and ups of a
tick before its hovers, and an exit after the enter and the move of the next hover. What is told of
the mouse therefore holds complete hovers if the exit of every tick is put first, and it does so as
it is told exactly if an exit is always alone at its tick (`Timeline.hovers_of_compile`).
-/

set_option autoImplicit false
set_option relaxedAutoImplicit false

namespace ActionReplay

variable {locate : Locator} {s : Source} {sources : List Source} {t : Timeline}

/-! ### Marks -/

/-- What an action of a tool has to do with hovering. -/
def MotionAction.mark : MotionAction → HoverMark
  | .hoverEnter => .enter
  | .hoverMove => .move
  | .hoverExit => .exit
  | _ => .touch

theorem MotionAction.mark_eq_touch {action : MotionAction} (htouch : action.isHover = false) :
    action.mark = .touch := by
  cases action with
  | hoverEnter | hoverMove | hoverExit => cases htouch
  | _ => rfl

/-- The mark of an event, if it is a motion of a tool. -/
def InputEvent.mark? (tool : Tool) : InputEvent → Option HoverMark
  | .motion e => if e.tool = tool then some e.action.mark else none
  | .key _ => none

theorem InputEvent.seesOnly_mark? (tool : Tool) : SeesOnly tool (mark? tool) :=
  ⟨fun _ ↦ rfl, fun _ hother ↦ if_neg hother⟩

/-- The marks of the motions of a tool among signals. -/
def Signal.marks (tool : Tool) (signals : List Signal) : List HoverMark :=
  (signals.filterMap event?).filterMap (InputEvent.mark? tool)

/-- The mark of a cue, if it is a motion of a tool. -/
def Cue.markOf? (tool : Tool) : Cue → Option HoverMark
  | .motion cue => if cue.tool = tool then some cue.action.mark else none
  | .key _ => none

theorem Cue.seesMotions_markOf? (tool : Tool) : SeesMotions (markOf? tool) :=
  ⟨fun _ ↦ rfl, fun _ _ ↦ rfl⟩

/-- A hover action is known by its mark. -/
theorem CueAction.eq_of_mark_eq {action other : CueAction} (hsame : other.mark = action.mark)
    (hhover : action.mark ≠ .touch) : other = action := by
  cases action <;> cases other <;> simp_all [mark]

/-! ### Events -/

namespace Gesture

variable {tool : Tool} {cues : List MotionCue}

theorem mark?_of_tells {flags : UInt32} {kind : MotionAction → Prop} {event : InputEvent}
    {mark : HoverMark} (htells : Tells flags kind cues event) (htool : ∀ cue ∈ cues, cue.tool = tool)
    (hmark : ∀ action, kind action → action.mark = mark) : event.mark? tool = some mark := by
  obtain ⟨cue, hcue, action, pointers, button, haction, rfl⟩ := htells
  rw [← hmark action haction]
  exact if_pos (htool cue hcue)

/-- Assumes: cues of a tool. What is told of their downs, moves and ups are touches, and there are
none without such cues. -/
theorem marks_touchEvents (htool : ∀ cue ∈ cues, cue.tool = tool) (flags : UInt32) (g : Gesture) :
    ∃ touches, (g.touchEvents flags cues).filterMap (InputEvent.mark? tool) =
        List.replicate touches .touch ∧
      (.touch ∉ cues.map (fun cue ↦ cue.action.mark) → touches = 0) := by
  refine ⟨(g.touchEvents flags cues).length, ?_, ?_⟩
  · have hmarks : ∀ event ∈ g.touchEvents flags cues, event.mark? tool = some .touch :=
      fun event hevent ↦ mark?_of_tells (tells_touchEvents flags g cues event hevent) htool
        fun _ ↦ MotionAction.mark_eq_touch
    rw [List.filterMap_congr hmarks, List.filterMap_eq_map', List.map_const']
  · intro hnone
    have hhaving : ∀ action : CueAction, action.mark = .touch →
        (cues.filter fun cue ↦ cue.action = action) = [] := by
      intro action htouch
      apply List.filter_eq_nil_iff.2
      intro cue hcue hsame
      obtain rfl := of_decide_eq_true hsame
      exact hnone (List.mem_map.2 ⟨cue, hcue, htouch⟩)
    have hdowns := hhaving .down rfl
    have hmoves := hhaving .move rfl
    have hups := hhaving .up rfl
    simp only [touchEvents, hdowns, hmoves, hups]
    rfl

/-- One event is told for a hover action that cues have, and none for another one. -/
theorem marks_hover (action : CueAction) (told : MotionAction) (mark : HoverMark)
    (haction : action.mark = mark) (htold : told.mark = mark) (hhover : mark ≠ .touch)
    (htool : ∀ cue ∈ cues, cue.tool = tool) (flags : UInt32) :
    (hover flags told (cues.filter fun cue ↦ cue.action = action)).toList.filterMap
        (InputEvent.mark? tool) =
      if mark ∈ cues.map (fun cue ↦ cue.action.mark) then [mark] else [] := by
  subst haction
  match hhaving : cues.filter fun cue ↦ cue.action = action with
  | [] =>
    have hnone : action.mark ∉ cues.map fun cue ↦ cue.action.mark := by
      intro hmem
      obtain ⟨cue, hcue, hmark⟩ := List.mem_map.1 hmem
      have hsame := List.filter_eq_nil_iff.1 hhaving cue hcue
      exact hsame (decide_eq_true (CueAction.eq_of_mark_eq hmark hhover))
    rw [hhaving, if_neg hnone]
    rfl
  | first :: rest =>
    have hfirst : first ∈ cues.filter fun cue ↦ cue.action = action := by
      rw [hhaving]
      exact List.mem_cons_self
    obtain ⟨hcue, hsame⟩ := List.mem_filter.1 hfirst
    have hmem : action.mark ∈ cues.map fun cue ↦ cue.action.mark :=
      List.mem_map.2 ⟨first, hcue, congrArg CueAction.mark (of_decide_eq_true hsame)⟩
    have hmark : InputEvent.mark? tool (event first flags told
        ((first :: rest).map fun cue ↦ (cue.pointer, cue.position)) 0) = some told.mark :=
      if_pos (htool first hcue)
    rw [hhaving, if_pos hmem, ← htold]
    exact List.filterMap_cons_some hmark

theorem marks_hoverEvents (htool : ∀ cue ∈ cues, cue.tool = tool) (flags : UInt32) :
    (hoverEvents flags cues).filterMap (InputEvent.mark? tool) =
      [.enter, .move, .exit].filter (· ∈ cues.map fun cue ↦ cue.action.mark) := by
  have henter := marks_hover .hoverEnter .hoverEnter .enter rfl rfl (by decide) htool flags
  have hmove := marks_hover .hoverMove .hoverMove .move rfl rfl (by decide) htool flags
  have hexit := marks_hover .hoverExit .hoverExit .exit rfl rfl (by decide) htool flags
  unfold hoverEvents
  dsimp only
  rw [List.filterMap_append, List.filterMap_append, henter, hmove, hexit]
  simp only [List.filter_cons, List.filter_nil, decide_eq_true_eq]
  split_ifs <;> rfl

/-- Assumes: cues of a tool that make a turn. What is told of it is told of such a turn. -/
theorem told_replay {before after : Bool} (htool : ∀ cue ∈ cues, cue.tool = tool)
    (hturn : HoverMark.Turn before (cues.map fun cue ↦ cue.action.mark) after) (flags : UInt32)
    (g : Gesture) :
    HoverMark.Told before ((g.replay flags cues).1.filterMap (InputEvent.mark? tool)) after := by
  obtain ⟨touches, htouches, hnone⟩ := marks_touchEvents htool flags g
  rw [replay_fst, List.filterMap_append, htouches, marks_hoverEvents htool]
  exact hturn.told hnone

end Gesture

/-! ### Cues -/

theorem Timeline.marks_motionsAt (t : Timeline) (tool : Tool) (tick : Tick) :
    (t.motionsAt tool tick).map (fun cue ↦ cue.action.mark) =
      (t.cuesAt tick).filterMap (Cue.markOf? tool) := by
  rw [motionsAt, List.filter_filterMap, List.map_filterMap]
  apply List.filterMap_congr
  intro cue _
  cases cue with
  | key cue => rfl
  | motion cue =>
    by_cases htool : cue.tool = tool
    · simp [Cue.motion?, Cue.markOf?, htool]
    · simp [Cue.motion?, Cue.markOf?, htool]

/-- Assumes: the track of a pointer source. Under any ordinal it shows its marks to its tool, and to
no other one. -/
theorem Source.filterMap_markOf? {track : List Booking}
    (htrack : s.pointerTrack locate 0 = .ok track) (tool : Tool) (ordinal : Nat) (tick : Tick) :
    (Booking.cuesAt (track.map (Booking.withPointer ordinal)) tick).filterMap (Cue.markOf? tool) =
      if s.tool = tool then Booking.marksAt track tick else [] := by
  have hmarks : ∀ cue ∈ Booking.cuesAt track tick,
      (cue.withPointer ordinal).markOf? tool =
        if s.tool = tool then cue.motion?.map fun cue ↦ cue.action.mark else none := by
    intro cue hcue
    obtain ⟨booking, hbooking, -, hsome⟩ := Booking.mem_cuesAt hcue
    rcases owns_pointerTrack htrack booking hbooking with hnone | ⟨motion, hmotion, -, htool⟩
    · rw [hnone] at hsome
      cases hsome
    · rw [hmotion] at hsome
      cases hsome
      have hsame : motion.tool = s.tool := htool
      rw [← hsame]
      rfl
  rw [Booking.cuesAt_withPointer, List.filterMap_map, Booking.marksAt, List.map_filterMap]
  change (Booking.cuesAt track tick).filterMap
    (fun cue ↦ (cue.withPointer ordinal).markOf? tool) = _
  rw [List.filterMap_congr hmarks]
  split_ifs with htool
  · rfl
  · exact List.filterMap_none _

namespace Timeline

/-- Only the first pointer source can be a mouse, so the marks of the mouse are those of one
track. -/
theorem exists_hovers_of_ofSources (ht : ofSources locate sources = .ok t) :
    ∃ bookings, Booking.Hovers false 0 bookings ∧ ∀ tick,
      (t.motionsAt .mouse tick).map (fun cue ↦ cue.action.mark) =
        Booking.marksAt bookings tick := by
  obtain ⟨tracks, htracks, -⟩ := ofSources_eq_ok.1 ht
  obtain ⟨-, htouch⟩ := Source.exists_of_tracks htracks
  obtain ⟨track, hsolo, rfl⟩ := exists_track_of_ofSources ht
  have htrack : ∀ s ∈ Source.ofKind sources .pointer, s.pointerTrack locate 0 = .ok (track s) :=
    fun s hs ↦ Source.pointerTrack_of_mem hsolo hs
  have hmarks : ∀ tick, ((empty.bookAll (Source.orderedTracks track sources).flatten).motionsAt
      .mouse tick).map (fun cue ↦ cue.action.mark) =
        (Source.ofKind sources .pointer).zipIdx.flatMap fun x ↦
          if x.1.tool = .mouse then Booking.marksAt (track x.1) tick else [] := by
    intro tick
    rw [marks_motionsAt, filterMap_cuesAt_orderedTracks (Cue.seesMotions_markOf? .mouse) hsolo]
    apply List.flatMap_congr
    intro x hx
    exact Source.filterMap_markOf? (htrack x.1 (List.fst_mem_of_mem_zipIdx hx)) .mouse x.2 tick
  match hpointers : Source.ofKind sources .pointer with
  | [] =>
    rw [hpointers] at hmarks
    exact ⟨[], .done 0, hmarks⟩
  | first :: others =>
    rw [Source.TouchAfterFirst, hpointers, List.tail_cons] at htouch
    have hfingers : ∀ tick, ((others.zipIdx 1).flatMap fun x ↦
        if x.1.tool = .mouse then Booking.marksAt (track x.1) tick else []) = [] := by
      intro tick
      rw [List.flatMap_eq_nil_iff]
      intro x hx
      have htool : x.1.tool = .finger :=
        congrArg PointerType.tool (htouch x.1 (List.fst_mem_of_mem_zipIdx hx))
      rw [htool]
      rfl
    simp only [hpointers, List.zipIdx_cons, List.flatMap_cons, Nat.zero_add, hfingers,
      List.append_nil] at hmarks
    by_cases hmouse : first.tool = .mouse
    · have hfirst := htrack first (hpointers ▸ List.mem_cons_self)
      simp only [if_pos hmouse] at hmarks
      exact ⟨track first, Source.hovers_pointerTrack hfirst, hmarks⟩
    · simp only [if_neg hmouse] at hmarks
      exact ⟨[], .done 0, hmarks⟩

/-! ### What is told of the mouse -/

/-- Assumes: hovers one after another, whose marks are those of the mouse. -/
theorem told_marks {bookings : List Booking} (hhovers : Booking.Hovers false 0 bookings)
    (hmarks : ∀ tick, (t.motionsAt .mouse tick).map (fun cue ↦ cue.action.mark) =
      Booking.marksAt bookings tick) (tick : Tick) :
    HoverMark.Told (Booking.hoversBefore bookings tick)
      (Signal.marks .mouse (t.signalsAt tick)) (Booking.hoversBefore bookings (tick + 1)) := by
  have hturn := hhovers.turn tick
  rw [← hmarks] at hturn
  rw [Signal.marks, t.filterMap_signalsAt (InputEvent.seesOnly_mark? .mouse)]
  exact Gesture.told_replay (t.tool_motionsAt .mouse tick) hturn _ _

theorem marks_signals (t : Timeline) (tool : Tool) :
    Signal.marks tool t.signals =
      t.signalsByTick.flatMap fun entry ↦ Signal.marks tool entry.2 := by
  rw [Signal.marks, signals, List.filterMap_flatMap, List.filterMap_flatMap]
  rfl

/-- Assumes: a payload that compiles. Any device is handed the events of one tick after another. At a
tick at which the mouse stops to hover, the exit is told after everything else of the mouse. If the exit of every tick is put first instead, all that is told
of the mouse holds complete hovers: an enter, one or more moves, and an exit, with nothing else of
the mouse in between, and no part of a hover elsewhere. As it is told it does so if and only if
every exit is all that is told of the mouse at its tick. -/
theorem hovers_of_compile {actions : Json} (ht : compile locate actions = .ok t) :
    (∀ (σ : Type) (device : Device σ) (pacing : Bool) (memory : σ),
      (device.answers pacing memory t).map Prod.fst =
          t.signalsByTick.flatMap (fun entry ↦ entry.2.filterMap Signal.event?) ∧
        ((device.answers pacing memory t).map Prod.fst).filterMap (InputEvent.mark? .mouse) =
          Signal.marks .mouse t.signals) ∧
    (∀ tick signals, (tick, signals) ∈ t.signalsByTick → .exit ∈ Signal.marks .mouse signals →
      ∃ others, Signal.marks .mouse signals = others ++ [.exit] ∧ .exit ∉ others) ∧
    HoverMark.Brackets false (t.signalsByTick.flatMap fun entry ↦
      HoverMark.exitsFirst (Signal.marks .mouse entry.2)) ∧
    (HoverMark.Brackets false (Signal.marks .mouse t.signals) ↔
      ∀ tick signals, (tick, signals) ∈ t.signalsByTick →
        .exit ∈ Signal.marks .mouse signals → Signal.marks .mouse signals = [.exit]) := by
  obtain ⟨sources, -, hsources⟩ := exists_sources_of_compile ht
  obtain ⟨bookings, hhovers, hmarks⟩ := exists_hovers_of_ofSources hsources
  have htold := told_marks hhovers hmarks
  obtain ⟨bound, hbound⟩ := exists_bound (t.ticks ++ bookings.map Booking.tick)
  obtain ⟨hticks, hbookings⟩ := List.forall_mem_append.1 hbound
  have hfirst := hhovers.hoversBefore_zero
  have hlast : Booking.hoversBefore bookings bound = false :=
    Booking.hoversBefore_eq_false (List.forall_mem_map.1 hbookings)
  refine ⟨?_, ?_, ?_, ?_⟩
  · intro σ device pacing memory
    refine ⟨device.map_fst_answers_byTick pacing memory t, ?_⟩
    rw [device.map_fst_answers, Signal.marks]
  · intro tick signals hmem
    rw [eq_signalsAt_of_mem hmem]
    exact (htold tick).exists_append_exit
  · have hbrackets := HoverMark.brackets_flatMap_range htold (hlast ▸ HoverMark.Brackets.done)
    rw [List.append_nil, hfirst] at hbrackets
    rwa [flatMap_signalsByTick (HoverMark.exitsFirst <| Signal.marks .mouse ·) rfl hticks]
  · rw [marks_signals, flatMap_signalsByTick (Signal.marks .mouse) rfl hticks,
      HoverMark.brackets_iff htold hfirst hlast]
    constructor
    · intro halone tick signals hmem
      obtain ⟨htick, rfl⟩ := mem_signalsByTick.1 hmem
      exact halone tick (hticks tick htick)
    · intro halone tick _ hexit
      by_cases htick : tick ∈ t.ticks
      · exact halone tick _ (mem_signalsByTick.2 ⟨htick, rfl⟩) hexit
      · rw [signalsAt_eq_nil htick] at hexit
        cases hexit

/-- A mouse that hovers, perhaps does something else, and then goes down and up. -/
def hoverThenTap (between : List Json) : Json :=
  .array [
    Json.typedPointerSource "m" .mouse ([
      Json.item .pointerMove [(.duration, 0), (.x, 1), (.y, 2)],
      Json.item .pointerMove [(.duration, 10), (.x, 3), (.y, 2)]] ++ between ++ [
      Json.item .pointerDown [],
      Json.item .pointerUp []])]

/-- A mouse that rests after its hover is told of in complete hovers. -/
theorem hovers_restThenTap :
    ∃ t, compile (fun _ ↦ none) (hoverThenTap [Json.item .pause [(.duration, 10)]]) = .ok t ∧
      Signal.marks .mouse t.signals = [.enter, .move, .move, .exit, .touch, .touch] ∧
      HoverMark.Brackets false (Signal.marks .mouse t.signals) := by
  have hmarks : (compile (fun _ ↦ none)
      (hoverThenTap [Json.item .pause [(.duration, 10)]])).toOption.map
        (fun t ↦ t.signalsByTick.map fun entry ↦ Signal.marks .mouse entry.2) =
          some [[.enter, .move], [.move], [.exit], [.touch, .touch]] := by
    decide +kernel
  have hcompile : ∃ t, compile (fun _ ↦ none)
      (hoverThenTap [Json.item .pause [(.duration, 10)]]) = .ok t := ⟨_, rfl⟩
  obtain ⟨t, ht⟩ := hcompile
  rw [ht] at hmarks
  have hticks : t.signalsByTick.map (fun entry ↦ Signal.marks .mouse entry.2) =
      [[.enter, .move], [.move], [.exit], [.touch, .touch]] := Option.some.inj hmarks
  have halone : ∀ marks ∈ t.signalsByTick.map (fun entry ↦ Signal.marks .mouse entry.2),
      .exit ∈ marks → marks = [.exit] := by
    rw [hticks]
    decide
  obtain ⟨-, -, -, hbrackets⟩ := hovers_of_compile ht
  refine ⟨t, ht, ?_, hbrackets.2 fun tick signals hmem ↦ ?_⟩
  · rw [marks_signals, List.flatMap_def, hticks]
    rfl
  · exact halone _ (List.mem_map.2 ⟨_, hmem, rfl⟩)

/-- A mouse that goes down where its hover ends is told to go down and up inside of the hover. -/
theorem not_brackets_hoverThenTap :
    ¬∀ t, compile (fun _ ↦ none) (hoverThenTap []) = .ok t →
      HoverMark.Brackets false (Signal.marks .mouse t.signals) := by
  have hmarks : (compile (fun _ ↦ none) (hoverThenTap [])).toOption.map
      (fun t ↦ Signal.marks .mouse t.signals) =
        some [.enter, .move, .move, .touch, .touch, .exit] := by
    decide +kernel
  have hcompile : ∃ t, compile (fun _ ↦ none) (hoverThenTap []) = .ok t := ⟨_, rfl⟩
  obtain ⟨t, ht⟩ := hcompile
  rw [ht] at hmarks
  have htold : Signal.marks .mouse t.signals = [.enter, .move, .move, .touch, .touch, .exit] :=
    Option.some.inj hmarks
  intro hall
  have hbrackets := hall t ht
  rw [htold] at hbrackets
  cases hbrackets with
  | enter hinside =>
    cases hinside with
    | move hdown => cases hdown

end Timeline

end ActionReplay
