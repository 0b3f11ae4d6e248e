import ActionReplay.Proofs.Desktop.Calls
import ActionReplay.Proofs.Replay.Settled
import ActionReplay.Session

/-!
# What fails in a dry run

A desktop in a dry run refuses an event for one of three reasons: it lists no pointers, it is of a pointer
beyond the first, or its key has no equivalent (`Desktop.deliver_fst_of_dryRun`). It stays in its dry run
whatever it is handed, so this holds of every answer of a replay (`Device.forall_answers`). The first
reason never applies: a press and a lift list their own pointer, moves are told of some pointers or not
at all, and hovers list those that hover (`Timeline.points_eventsAt`). A payload that compiles has no
keys that are no characters. So the failures of a dry run are the events of further pointers and those of
keys without an equivalent (`Session.failures_of_dryRun`).
-/

set_option autoImplicit false
set_option relaxedAutoImplicit false

namespace ActionReplay

/-! ### Reasons -/

/-- A pointer beyond the first goes down or up. -/
def MotionAction.isSecondary : MotionAction → Bool
  | .pointerDown _ | .pointerUp _ => true
  | _ => false

/-- The named keys without an equivalent on a desktop. -/
def NamedKey.unmapped : List NamedKey :=
  [.cancel, .help, .clear, .pause, .insert, .zenkakuHankaku]

/-- A named key without an equivalent on a desktop. -/
def Stroke.isUnmapped : Stroke → Bool
  | .named key => key ∈ NamedKey.unmapped
  | .char _ => false

namespace InputEvent

/-- Whether an event is of a pointer beyond the first. -/
def isSecondary : InputEvent → Bool
  | .motion e => e.action.isSecondary
  | .key _ => false

/-- Whether an event is of a key without an equivalent on a desktop. -/
def isUnmapped : InputEvent → Bool
  | .motion _ => false
  | .key e => e.stroke.isUnmapped

/-- Motions list some pointers. -/
def Points : InputEvent → Prop
  | .motion e => e.pointers ≠ []
  | .key _ => True

/-- The two reasons exclude each other. -/
theorem countP_isSecondary_or_isUnmapped (events : List InputEvent) :
    events.countP (fun e ↦ e.isSecondary || e.isUnmapped) =
      events.countP isSecondary + events.countP isUnmapped := by
  induction events with
  | nil => rfl
  | cons e rest ih =>
    rw [List.countP_cons, List.countP_cons, List.countP_cons, ih]
    cases e with
    | motion e =>
      simp only [isUnmapped, Bool.or_false, Bool.false_eq_true, if_false]
      omega
    | key e =>
      simp only [isSecondary, Bool.false_or, Bool.false_eq_true, if_false]
      omega

end InputEvent

theorem MotionAction.isSome_index? (action : MotionAction) :
    action.index?.isSome = action.isSecondary := by
  cases action <;> rfl

theorem Stroke.isNone_desktopName? (stroke : Stroke) :
    stroke.desktopName?.isNone = stroke.isUnmapped := by
  cases stroke with
  | char => rfl
  | named key => cases key <;> rfl

/-! ### The desktop -/

namespace Desktop

variable {d : Desktop}

/-- Assumes: a dry run. The desktop pretends, and goes on with its dry run. -/
theorem act_delivers_of_dryRun (hdry : d.dryRun = true) (metaState : UInt32) (said : LogRecord) :
    (d.act metaState said).1 = .ok true ∧ (d.act metaState said).2.2.dryRun = true := by
  obtain ⟨records, hsynced⟩ := syncEach_of_dryRun hdry metaState DesktopModifier.all
  rw [act, sync, hsynced]
  dsimp only
  rw [if_pos hdry]
  exact ⟨rfl, hdry⟩

theorem motion_fst_of_dryRun (hdry : d.dryRun = true) {e : MotionEvent} (hpoints : e.pointers ≠ []) :
    (d.motion e).1 = .ok (!e.action.isSecondary) := by
  rw [motion, ← e.action.isSome_index?]
  cases hprimary : e.primary? with
  | none => exact absurd (List.head?_eq_none_iff.1 hprimary) hpoints
  | some pointer =>
    cases e.action.index? with
    | none => exact (act_delivers_of_dryRun hdry _ _).1
    | some index => rfl

theorem key_fst_of_dryRun (hdry : d.dryRun = true) (e : KeyEvent) :
    (d.key e).1 = .ok (!e.stroke.isUnmapped) := by
  rw [key, ← e.stroke.isNone_desktopName?]
  cases e.stroke.desktopName? with
  | none => rfl
  | some name => exact (act_delivers_of_dryRun hdry _ _).1

/-- Assumes: a dry run, and an event that lists some pointers if it is a motion. It is refused exactly if
it is of a pointer beyond the first or of a key without an equivalent. -/
theorem deliver_fst_of_dryRun (hdry : d.dryRun = true) {e : InputEvent} (hpoints : e.Points) :
    (d.deliver e).1 = !(e.isSecondary || e.isUnmapped) := by
  have hattempt : (d.attempt e).1 = .ok (!(e.isSecondary || e.isUnmapped)) := by
    cases e with
    | motion e =>
      exact (Bool.or_false e.action.isSecondary).symm ▸ motion_fst_of_dryRun hdry hpoints
    | key e => exact key_fst_of_dryRun hdry e
  unfold deliver
  generalize d.attempt e = attempted at hattempt
  obtain ⟨result, records, after⟩ := attempted
  obtain rfl : result = .ok (!(e.isSecondary || e.isUnmapped)) := hattempt
  rfl

/-- A dry run goes on, whatever the desktop is handed. -/
theorem dryRun_deliver (hdry : d.dryRun = true) (e : InputEvent) :
    (d.deliver e).2.2.dryRun = true := by
  rw [deliver_snd_snd]
  obtain ⟨r, hwarned, -⟩ | ⟨said, hacted, -⟩ := d.attempt_cases e
  · rwa [hwarned]
  · rw [hacted]
    exact (act_delivers_of_dryRun hdry e.metaState said).2

end Desktop

/-- Assumes: what every delivery and every wait keep of the memory, and what it says of each answer. It
holds of all answers of a dispatch. -/
theorem Device.forall_answers {σ : Type} (device : Device σ) (Keeps : σ → Prop)
    (Fits : InputEvent → Bool → Prop)
    (hdeliver : ∀ memory e, Keeps memory →
      Keeps (device.deliver memory e).2 ∧ Fits e (device.deliver memory e).1)
    (helapse : ∀ time memory, Keeps memory → Keeps (device.elapse time memory)) (memory : σ)
    (hmemory : Keeps memory) (pacing : Bool) (t : Timeline) :
    ∀ answer ∈ device.answers pacing memory t, Fits answer.1 answer.2 := by
  have hkept : Keeps (device.watched.dispatch pacing ([], memory) t).2.2 ∧
      ∀ answer ∈ (device.watched.dispatch pacing ([], memory) t).2.1, Fits answer.1 answer.2 := by
    refine @dispatch_keeps _ device.watched
      (fun watched ↦ Keeps watched.2 ∧ ∀ answer ∈ watched.1, Fits answer.1 answer.2)
      ?_ ?_ ([], memory) ⟨hmemory, List.forall_mem_nil _⟩ pacing t
    · rintro ⟨log, memory⟩ e ⟨hkeeps, hlog⟩
      obtain ⟨hkept, hfits⟩ := hdeliver memory e hkeeps
      exact ⟨hkept, List.forall_mem_cons.2 ⟨hfits, hlog⟩⟩
    · rintro time ⟨log, memory⟩ ⟨hkeeps, hlog⟩
      exact ⟨helapse time memory hkeeps, hlog⟩
  exact fun answer hanswer ↦ hkept.2 answer (List.mem_reverse.1 hanswer)

/-! ### The events of a replay -/

theorem HeldModifiers.points_signals (held : HeldModifiers) (cues : List KeyCue) :
    ∀ event ∈ (held.signals cues).1.filterMap Signal.event?, event.Points := by
  induction cues generalizing held with
  | nil => exact List.forall_mem_nil _
  | cons cue rest ih =>
    rw [signals, List.filterMap_append]
    refine List.forall_mem_append.2 ⟨?_, ih _⟩
    rw [signal?]
    split
    · exact List.forall_mem_singleton.2 trivial
    · exact List.forall_mem_nil _
    · exact List.forall_mem_nil _

namespace Gesture

theorem points_pressAll (flags : UInt32) (g : Gesture) (cues : List MotionCue) :
    ∀ event ∈ (g.pressAll flags cues).1, event.Points := by
  induction cues generalizing g with
  | nil => exact List.forall_mem_nil _
  | cons cue rest ih =>
    exact List.forall_mem_cons.2 ⟨List.ne_nil_of_mem (Table.mem_insert_self _ _ _), ih _⟩

theorem points_drag (flags : UInt32) (g : Gesture) (moves : List MotionCue) :
    ∀ event ∈ (g.drag flags moves).1.toList, event.Points := by
  cases moves with
  | nil => exact List.forall_mem_nil _
  | cons first rest =>
    unfold drag
    dsimp only
    split_ifs with hempty
    · exact List.forall_mem_nil _
    · exact List.forall_mem_singleton.2 (mt List.isEmpty_iff.2 hempty)

theorem points_liftAll (flags : UInt32) (g : Gesture) (cues : List MotionCue) :
    ∀ event ∈ (g.liftAll flags cues).1, event.Points := by
  induction cues generalizing g with
  | nil => exact List.forall_mem_nil _
  | cons cue rest ih =>
    rw [liftAll_cons]
    refine List.forall_mem_append.2 ⟨?_, ih _⟩
    by_cases hbalance : g.balance = 0
    · rw [lift_of_zero hbalance]
      exact List.forall_mem_nil _
    · rw [lift_of_ne_zero hbalance]
      exact List.forall_mem_singleton.2 (List.ne_nil_of_mem (Table.mem_insert_self _ _ _))

theorem points_hover (flags : UInt32) (action : MotionAction) (cues : List MotionCue) :
    ∀ event ∈ (hover flags action cues).toList, event.Points := by
  cases cues with
  | nil => exact List.forall_mem_nil _
  | cons first rest => exact List.forall_mem_singleton.2 (List.cons_ne_nil _ _)

/-- All that a gesture tells lists some pointers. -/
theorem points_replay (flags : UInt32) (g : Gesture) (cues : List MotionCue) :
    ∀ event ∈ (g.replay flags cues).1, event.Points := by
  have htouches : ∀ event ∈ g.touchEvents flags cues, event.Points :=
    List.forall_mem_append.2 ⟨List.forall_mem_append.2
      ⟨points_pressAll flags g _, points_drag flags _ _⟩, points_liftAll flags _ _⟩
  have hhovers : ∀ event ∈ hoverEvents flags cues, event.Points :=
    List.forall_mem_append.2 ⟨List.forall_mem_append.2
      ⟨points_hover flags _ _, points_hover flags _ _⟩, points_hover flags _ _⟩
  exact List.forall_mem_append.2 ⟨htouches, hhovers⟩

end Gesture

theorem Timeline.points_eventsAt (t : Timeline) (tick : Tick) :
    ∀ event ∈ t.eventsAt tick, event.Points := by
  rw [eventsAt_eq]
  refine List.forall_mem_append.2 ⟨HeldModifiers.points_signals _ _, fun event hevent ↦ ?_⟩
  obtain ⟨tool, -, hevent⟩ := List.mem_flatMap.1 hevent
  exact Gesture.points_replay _ _ _ event hevent

/-! ### The failures of a dry run -/

namespace Session

variable {s : Session} {t : Timeline}

/-- A payload that compiles is replayed, and its outcome is the answer. -/
theorem fst_perform {actions : Json} (ht : Timeline.compile s.elements.locate actions = .ok t) :
    (s.perform actions).1 = .ok (Desktop.device.dispatch s.pacing ([], s.desktop) t).1 := by
  rw [perform, ht]
  rfl

/-- Assumes: a dry run, and a timeline that is told by events that list pointers. Each answer is that
of the event alone. -/
theorem answers_of_dryRun (hdry : s.desktop.dryRun = true)
    (hpoints : ∀ e ∈ t.ticks.flatMap t.eventsAt, e.Points) :
    Desktop.device.answers s.pacing ([], s.desktop) t =
      (t.ticks.flatMap t.eventsAt).map fun e ↦ (e, !(e.isSecondary || e.isUnmapped)) := by
  have hfits := Desktop.device.forall_answers (fun memory ↦ memory.2.dryRun = true)
    (fun e delivered ↦ e.Points → delivered = !(e.isSecondary || e.isUnmapped))
    (fun memory e hkeeps ↦ ⟨Desktop.dryRun_deliver hkeeps e, Desktop.deliver_fst_of_dryRun hkeeps⟩)
    (fun _ _ hkeeps ↦ hkeeps) ([], s.desktop) hdry s.pacing t
  have hhanded := Desktop.device.map_fst_answers s.pacing ([], s.desktop) t
  rw [Timeline.filterMap_signals] at hhanded
  rw [← hhanded] at hpoints ⊢
  rw [List.map_map]
  refine (List.map_id _).symm.trans (List.map_congr_left fun answer hanswer ↦ ?_)
  exact Prod.ext rfl (hfits answer hanswer (hpoints answer.1 (List.mem_map_of_mem hanswer)))

/-- Assumes: a dry run, and a payload that compiles. The desktop is handed the events of the timeline tick
by tick, and the motions among them list some pointers. It refuses those of pointers beyond the first and
those of keys without an equivalent, and no other. The outcome counts all events, and as failed those of
the two sorts. -/
theorem failures_of_dryRun (hdry : s.desktop.dryRun = true) {actions : Json}
    (ht : Timeline.compile s.elements.locate actions = .ok t) :
    ∃ outcome, (s.perform actions).1 = .ok outcome ∧
      outcome.injected = (t.ticks.flatMap t.eventsAt).length ∧
      outcome.failed = (t.ticks.flatMap t.eventsAt).countP InputEvent.isSecondary +
        (t.ticks.flatMap t.eventsAt).countP InputEvent.isUnmapped ∧
      Desktop.device.answers s.pacing ([], s.desktop) t =
        (t.ticks.flatMap t.eventsAt).map (fun e ↦ (e, !(e.isSecondary || e.isUnmapped))) ∧
      ∀ e ∈ t.ticks.flatMap t.eventsAt, e.Points := by
  obtain ⟨sources, -, hsources⟩ := Timeline.exists_sources_of_compile ht
  have hpoints : ∀ e ∈ t.ticks.flatMap t.eventsAt, e.Points := by
    intro e he
    obtain ⟨tick, -, he⟩ := List.mem_flatMap.1 he
    exact t.points_eventsAt tick e he
  have hanswers := answers_of_dryRun hdry hpoints
  refine ⟨_, fst_perform ht, ?_, ?_, hanswers, hpoints⟩
  · rw [Device.injected_dispatch, Timeline.strayKeys_eq_zero hsources, hanswers, List.length_map]
    rfl
  · rw [Device.failed_dispatch, Timeline.strayKeys_eq_zero hsources, hanswers, List.countP_map,
      ← InputEvent.countP_isSecondary_or_isUnmapped]
    exact List.countP_congr fun e _ ↦ by rw [Function.comp_apply, Bool.not_not]

/-- Two fingers that tap together, and a letter and a key without an equivalent. -/
def tapsAndKeys : Json :=
  .array [
    Json.pointerSource "first" [
      Json.item .pointerMove [(.duration, 0), (.x, 0), (.y, 0)],
      Json.item .pointerDown [],
      Json.item .pause [(.duration, 5)],
      Json.item .pointerUp []],
    Json.pointerSource "second" [
      Json.item .pointerMove [(.duration, 0), (.x, 10), (.y, 0)],
      Json.item .pointerDown [],
      Json.item .pause [(.duration, 5)],
      Json.item .pointerUp []],
    .object [("id", .string "k"), ("type", .string SourceKind.key.name), ("actions", .array [
      Timeline.keyItem .keyDown "a",
      Timeline.keyItem .keyUp "a",
      Timeline.keyItem .keyDown "\ue016"])]]

/-- A session in a dry run that knows no elements. -/
def dry : Session :=
  { pacing := false, elements := [], desktop := { dryRun := true } }

/-- Of the seven events fail the second finger's two, and that of the key without an equivalent. -/
theorem failures_tapsAndKeys :
    ∃ outcome, (dry.perform tapsAndKeys).1 = .ok outcome ∧ outcome.injected = 7 ∧
      outcome.failed = 3 := by
  have hcounts : (Timeline.compile dry.elements.locate tapsAndKeys).toOption.map
      (fun t ↦ ((t.ticks.flatMap t.eventsAt).length,
        (t.ticks.flatMap t.eventsAt).countP InputEvent.isSecondary,
        (t.ticks.flatMap t.eventsAt).countP InputEvent.isUnmapped)) = some (7, 2, 1) := by
    decide +kernel
  have hcompile : ∃ t, Timeline.compile dry.elements.locate tapsAndKeys = .ok t := ⟨_, rfl⟩
  obtain ⟨t, ht⟩ := hcompile
  rw [ht] at hcounts
  obtain ⟨hlength, hfailures⟩ := Prod.mk.inj (Option.some.inj hcounts)
  obtain ⟨hsecondary, hunmapped⟩ := Prod.mk.inj hfailures
  obtain ⟨outcome, hperform, hinjected, hfailed, -⟩ := failures_of_dryRun rfl ht
  refine ⟨outcome, hperform, hinjected.trans hlength, ?_⟩
  rw [hfailed, hsecondary, hunmapped]

end Session

end ActionReplay
