import ActionReplay.Proofs.Replay.Dispatch
import Mathlib.Data.List.Basic

/-!
# What a device answers changes nothing that it is handed

A device is watched by keeping a log of the events it is handed and of its answers (`Device.watched`).
Beside the same device that nobody watches, it runs in step (`Watches`): the outcome and the memory
are the same, the log holds the events among the signals sent so far, and the outcome counts what the
log holds and the key values that are no character. One signal keeps this (`Watches.send`), and so do
the waits and a whole dispatch (`Device.watches_dispatch`). What the log lists are therefore the events
among the signals of the timeline (`Device.map_fst_answers`), tick by tick
(`Device.map_fst_answers_byTick`), and the outcome counts its entries (`Device.injected_dispatch`, `Device.failed_dispatch`), whichever the device, whatever it answers and
whether the time is kept or not (`Device.dispatch_independent`).
-/

set_option autoImplicit false
set_option relaxedAutoImplicit false

namespace ActionReplay

variable {σ τ : Type} {device : Device σ}

/-- A key value that cannot be told. -/
def Signal.isUnknown : Signal → Bool
  | .event _ => false
  | .unknownKey _ => true

/-! ### Key values that are no character -/

namespace Timeline

/-- The key cues of all ticks, in order. -/
def keyCues (t : Timeline) : List KeyCue :=
  t.toList.flatMap fun entry ↦ entry.2.filterMap Cue.key?

/-- How many key cues have a code point that is no Unicode scalar value. -/
def strayKeys (t : Timeline) : Nat :=
  t.keyCues.countP fun cue ↦ ¬cue.codePoint.isValidChar

end Timeline

theorem HeldModifiers.countP_signal? (held : HeldModifiers) (cue : KeyCue) :
    (held.signal? cue).toList.countP Signal.isUnknown =
      if ¬cue.codePoint.isValidChar then 1 else 0 := by
  unfold signal?
  cases hkey : Key.ofCodePoint? cue.codePoint with
  | none =>
    rw [if_pos (Key.ofCodePoint?_eq_none_iff.1 hkey)]
    rfl
  | some key =>
    have hvalid : ¬¬cue.codePoint.isValidChar := by
      intro hinvalid
      rw [Key.ofCodePoint?_eq_none_iff.2 hinvalid] at hkey
      cases hkey
    rw [if_neg hvalid]
    cases key with
    | releaseAll => rfl
    | modifier => rfl
    | stroke => rfl

theorem HeldModifiers.countP_signals (held : HeldModifiers) (cues : List KeyCue) :
    (held.signals cues).1.countP Signal.isUnknown =
      cues.countP fun cue ↦ ¬cue.codePoint.isValidChar := by
  induction cues generalizing held with
  | nil => rfl
  | cons cue rest ih =>
    have hsplit : (held.signals (cue :: rest)).1 =
        (held.signal? cue).toList ++ ((held.after cue).signals rest).1 := rfl
    rw [hsplit, List.countP_append, countP_signal?, ih, List.countP_cons, Nat.add_comm]
    simp only [decide_eq_true_eq]

namespace ReplayState

theorem countP_replayTool (state : ReplayState) (cues : List MotionCue) (tool : Tool) :
    (state.replayTool cues tool).1.countP Signal.isUnknown = 0 := by
  rw [List.countP_eq_zero]
  intro signal hsignal
  obtain ⟨e, -, rfl⟩ := List.mem_map.1 hsignal
  exact Bool.false_ne_true

theorem countP_replayTick (state : ReplayState) (cues : List Cue) :
    (state.replayTick cues).1.countP Signal.isUnknown =
      (cues.filterMap Cue.key?).countP fun cue ↦ ¬cue.codePoint.isValidChar := by
  rw [replayTick]
  simp only [List.countP_append, countP_replayTool, HeldModifiers.countP_signals, Nat.add_zero]

theorem countP_replay (state : ReplayState) (ticks : List (Tick × List Cue)) :
    ((state.replay ticks).flatMap Prod.snd).countP Signal.isUnknown =
      (ticks.flatMap fun entry ↦ entry.2.filterMap Cue.key?).countP
        fun cue ↦ ¬cue.codePoint.isValidChar := by
  induction ticks generalizing state with
  | nil => rfl
  | cons entry rest ih =>
    rw [replay_cons, List.flatMap_cons, List.flatMap_cons, List.countP_append, List.countP_append,
      countP_replayTick, ih]

end ReplayState

/-- Exactly the key cues that are no character are told as unknown keys. -/
theorem Timeline.countP_signals (t : Timeline) :
    t.signals.countP Signal.isUnknown = t.strayKeys :=
  ReplayState.countP_replay {} t.toList

/-! ### The watched device -/

/-- The device with a log of the events it is handed and of its answers, the latest first. -/
def Device.watched (device : Device σ) : Device (List (InputEvent × Bool) × σ) where
  deliver := fun (log, memory) e ↦
    let (delivered, memory) := device.deliver memory e
    (delivered, (e, delivered) :: log, memory)
  elapse := fun time (log, memory) ↦ (log, device.elapse time memory)

/-- What a device was sent, beside what the watched device was: `told` are the signals. -/
structure Watches (sent : Outcome × σ) (watched : Outcome × List (InputEvent × Bool) × σ)
    (told : List Signal) : Prop where
  sameOutcome : watched.1 = sent.1
  sameMemory : watched.2.2 = sent.2
  handed : watched.2.1.reverse.map Prod.fst = told.filterMap Signal.event?
  injected : sent.1.injected = watched.2.1.length + told.countP Signal.isUnknown
  failed : sent.1.failed =
    watched.2.1.countP (fun answer ↦ !answer.2) + told.countP Signal.isUnknown

namespace Watches

variable {sent : Outcome × σ} {watched : Outcome × List (InputEvent × Bool) × σ}
  {told : List Signal}

/-- Assumes: a device and the watched one in step. One more signal keeps them in step. -/
theorem send (hwatches : Watches sent watched told) (signal : Signal) :
    Watches (device.send sent signal) (device.watched.send watched signal) (told ++ [signal]) := by
  obtain ⟨_, _⟩ := sent
  obtain ⟨outcome, log, memory⟩ := watched
  obtain ⟨rfl, rfl, hhanded, hinjected, hfailed⟩ := hwatches
  cases signal with
  | event e =>
    refine ⟨rfl, rfl, ?_, ?_, ?_⟩
    · change (((e, (device.deliver memory e).1) :: log).reverse.map Prod.fst) = _
      rw [List.reverse_cons, List.map_append, hhanded, List.filterMap_append]
      rfl
    · change outcome.injected + 1 = log.length + 1 + _
      rw [hinjected, List.countP_append]
      exact Nat.add_right_comm ..
    · change (if (device.deliver memory e).1 then outcome.failed else outcome.failed + 1) =
        ((e, (device.deliver memory e).1) :: log).countP _ + _
      rw [List.countP_cons, List.countP_append, hfailed]
      cases (device.deliver memory e).1 with
      | true => rfl
      | false => exact Nat.add_right_comm ..
  | unknownKey codePoint =>
    refine ⟨rfl, rfl, ?_, ?_, ?_⟩
    · rw [List.filterMap_append, ← hhanded]
      exact (List.append_nil _).symm
    · change outcome.injected + 1 = log.length + _
      rw [hinjected, List.countP_append]
      rfl
    · change outcome.failed + 1 = log.countP _ + _
      rw [hfailed, List.countP_append]
      rfl

theorem foldl_send (hwatches : Watches sent watched told) (signals : List Signal) :
    Watches (signals.foldl device.send sent) (signals.foldl device.watched.send watched)
      (told ++ signals) := by
  induction signals generalizing sent watched told with
  | nil => rwa [List.append_nil]
  | cons signal rest ih =>
    have hfirst : Watches (device.send sent signal) (device.watched.send watched signal)
        (told ++ [signal]) := hwatches.send signal
    rw [List.append_cons]
    exact ih hfirst

theorem wait (hwatches : Watches sent watched told) (pacing : Bool) (previous tick : Tick) :
    Watches (device.wait pacing previous tick sent) (device.watched.wait pacing previous tick watched)
      told := by
  unfold Device.wait
  by_cases hlate : pacing = true ∧ previous < tick
  · rw [if_pos hlate, if_pos hlate]
    exact { hwatches with
      sameMemory := congrArg (device.elapse (tick - previous)) hwatches.sameMemory }
  · rw [if_neg hlate, if_neg hlate]
    exact hwatches

theorem sendFrom (hwatches : Watches sent watched told) (pacing : Bool) (previous : Tick)
    (ticks : List (Tick × List Signal)) :
    Watches (device.sendFrom pacing previous sent ticks)
      (device.watched.sendFrom pacing previous watched ticks)
      (told ++ ticks.flatMap Prod.snd) := by
  induction ticks generalizing sent watched told previous with
  | nil => rwa [List.flatMap_nil, List.append_nil]
  | cons entry rest ih =>
    obtain ⟨tick, signals⟩ := entry
    have hfirst : Watches (signals.foldl device.send (device.wait pacing previous tick sent))
        (signals.foldl device.watched.send (device.watched.wait pacing previous tick watched))
        (told ++ signals) := (hwatches.wait pacing previous tick).foldl_send signals
    rw [List.flatMap_cons, ← List.append_assoc]
    exact ih hfirst tick

end Watches

namespace Device

/-- A whole dispatch keeps a device and the watched one in step. -/
theorem watches_dispatch (device : Device σ) (pacing : Bool) (memory : σ) (t : Timeline) :
    Watches (device.dispatch pacing memory t) (device.watched.dispatch pacing ([], memory) t)
      t.signals := by
  have hstart : Watches (({}, memory) : Outcome × σ) ({}, [], memory) [] :=
    ⟨rfl, rfl, rfl, rfl, rfl⟩
  rw [dispatch_eq, dispatch_eq]
  exact hstart.sendFrom pacing 0 t.signalsByTick

/-- The events that a device is handed in a dispatch, in order, each with its answer. -/
def answers (device : Device σ) (pacing : Bool) (memory : σ) (t : Timeline) :
    List (InputEvent × Bool) :=
  (device.watched.dispatch pacing ([], memory) t).2.1.reverse

/-- A device is handed the events among the signals of the timeline. -/
theorem map_fst_answers (device : Device σ) (pacing : Bool) (memory : σ) (t : Timeline) :
    (device.answers pacing memory t).map Prod.fst = t.signals.filterMap Signal.event? :=
  (watches_dispatch device pacing memory t).handed

/-- A device is handed the events of one tick after another. -/
theorem map_fst_answers_byTick (device : Device σ) (pacing : Bool) (memory : σ) (t : Timeline) :
    (device.answers pacing memory t).map Prod.fst =
      t.signalsByTick.flatMap fun entry ↦ entry.2.filterMap Signal.event? := by
  rw [map_fst_answers, Timeline.signals, List.filterMap_flatMap]

/-- The outcome counts the answers and the key cues that are no character. -/
theorem injected_dispatch (device : Device σ) (pacing : Bool) (memory : σ) (t : Timeline) :
    (device.dispatch pacing memory t).1.injected =
      (device.answers pacing memory t).length + t.strayKeys := by
  rw [(watches_dispatch device pacing memory t).injected, Timeline.countP_signals, answers,
    List.length_reverse]

theorem failed_dispatch (device : Device σ) (pacing : Bool) (memory : σ) (t : Timeline) :
    (device.dispatch pacing memory t).1.failed =
      (device.answers pacing memory t).countP (fun answer ↦ !answer.2) + t.strayKeys := by
  rw [(watches_dispatch device pacing memory t).failed, Timeline.countP_signals, answers,
    List.countP_reverse]

/-- Any two devices are handed the same events in the same order, whatever each answers and whether
the time is kept or not. The outcome counts the answers, and as failed those that were no, and both
counts include the key cues that are no character. Keeping the log changes neither the outcome nor
what the device remembers. -/
theorem dispatch_independent (t : Timeline) (first : Device σ) (second : Device τ)
    (pacing other : Bool) (memory : σ) (start : τ) :
    (first.answers pacing memory t).map Prod.fst = (second.answers other start t).map Prod.fst ∧
      (first.dispatch pacing memory t).1.injected =
        (first.answers pacing memory t).length + t.strayKeys ∧
      (first.dispatch pacing memory t).1.failed =
        (first.answers pacing memory t).countP (fun answer ↦ !answer.2) + t.strayKeys ∧
      first.watched.dispatch pacing ([], memory) t =
        ((first.dispatch pacing memory t).1, (first.answers pacing memory t).reverse,
          (first.dispatch pacing memory t).2) := by
  have hwatches := watches_dispatch first pacing memory t
  refine ⟨?_, injected_dispatch first pacing memory t, failed_dispatch first pacing memory t, ?_⟩
  · rw [map_fst_answers, map_fst_answers]
  · rw [answers, List.reverse_reverse, ← hwatches.sameOutcome, ← hwatches.sameMemory]

end Device

end ActionReplay
