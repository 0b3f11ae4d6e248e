import ActionReplay.Proofs.Replay.Ticks
import ActionReplay.Proofs.Replay.Watched

/-!
# Ticks that are only waited for

A tick without cues sends nothing, so of a timeline a device is told only the ticks that have signals
(`Timeline.told`), and these depend on the cues of the timeline alone (`Timeline.told_eq_of_cuesAt_eq`).
What is left of the other ticks is that they cut a wait in two. A device for which two waits in a row
are one wait as long as both (`Device.Steady`) cannot tell (`Device.wait_wait`), so a dispatch is the
dispatch of the ticks that are told, and perhaps one more wait at the end (`Device.exists_dispatch_eq`).
Timelines with the same cues are therefore dispatched alike (`Timeline.PlaysLike.of_cuesAt_eq`), and a
timeline can drop every tick that has no cues (`Timeline.withoutRests`).
-/

set_option autoImplicit false
set_option relaxedAutoImplicit false

namespace ActionReplay

variable {σ : Type} {device : Device σ}

/-! ### Waits in a row -/

namespace Device

/-- Two waits in a row are one wait as long as both. -/
def Steady (device : Device σ) : Prop :=
  ∀ first second memory,
    device.elapse (first + second) memory = device.elapse second (device.elapse first memory)

/-- A device that only delivers does not notice that time passes. -/
example (deliver : σ → InputEvent → Bool × σ) : ({ deliver } : Device σ).Steady := by
  intro first second memory
  rfl

/-- A device that is watched waits as it does when nobody watches. -/
theorem Steady.watched (hsteady : device.Steady) : device.watched.Steady := fun first second memory ↦
  congrArg (Prod.mk memory.1) (hsteady first second memory.2)

variable {pacing : Bool} {previous reached tick : Tick} {sent : Outcome × σ}

theorem wait_self : device.wait pacing tick tick sent = sent :=
  if_neg fun hlate ↦ lt_irrefl tick hlate.2

/-- Assumes: if the time is kept, a device that cannot tell two waits from one. Waiting for a tick on
the way changes nothing. -/
theorem wait_wait (hsteady : pacing = true → device.Steady) (hreached : previous ≤ reached)
    (htick : reached ≤ tick) :
    device.wait pacing reached tick (device.wait pacing previous reached sent) =
      device.wait pacing previous tick sent := by
  rcases hreached.eq_or_lt with rfl | hreached
  · rw [wait_self]
  rcases htick.eq_or_lt with rfl | htick
  · rw [wait_self]
  unfold wait
  cases pacing with
  | false => rfl
  | true =>
    have hsplit : (reached - previous) + (tick - reached) = tick - previous := by
      rw [Nat.add_comm, Nat.sub_add_sub_cancel htick.le hreached.le]
    rw [if_pos ⟨rfl, htick⟩, if_pos ⟨rfl, hreached⟩, if_pos ⟨rfl, hreached.trans htick⟩, ← hsplit,
      hsteady rfl]

theorem fst_wait : (device.wait pacing previous tick sent).1 = sent.1 := by
  rw [wait]
  split_ifs with hlate
  · rfl
  · rfl

/-- Waiting hands nothing to a device. -/
theorem log_wait {sent : Outcome × List (InputEvent × Bool) × σ} :
    (device.watched.wait pacing previous tick sent).2.1 = sent.2.1 := by
  rw [wait]
  split_ifs with hlate
  · rfl
  · rfl

/-- Assumes: if the time is kept, a device that cannot tell two waits from one; ticks in order, none
earlier than a tick that was waited for. Without the ticks that have no signals the same is sent, and
only the last wait may differ: once something is sent at a tick, the waits to come start there. -/
theorem exists_sendFrom_eq (hsteady : pacing = true → device.Steady) (hreached : previous ≤ reached)
    {ticks : List (Tick × List Signal)}
    (hordered : (reached :: ticks.map Prod.fst).Pairwise (· ≤ ·)) :
    ∃ last final, device.sendFrom pacing reached (device.wait pacing previous reached sent) ticks =
      device.wait pacing last final
        (device.sendFrom pacing previous sent (ticks.filter fun entry ↦ !entry.2.isEmpty)) := by
  induction ticks generalizing previous reached sent with
  | nil => exact ⟨previous, reached, rfl⟩
  | cons entry rest ih =>
    obtain ⟨tick, signals⟩ := entry
    obtain ⟨hfirst, hrest⟩ := List.pairwise_cons.1 hordered
    have htick : reached ≤ tick := hfirst tick List.mem_cons_self
    rw [sendFrom, wait_wait hsteady hreached htick]
    cases signals with
    | nil => exact ih (hreached.trans htick) hrest
    | cons signal later =>
      have hself : (signal :: later).foldl device.send (device.wait pacing previous tick sent) =
          device.wait pacing tick tick
            ((signal :: later).foldl device.send (device.wait pacing previous tick sent)) :=
        wait_self.symm
      rw [hself]
      exact ih le_rfl hrest

end Device

/-! ### What is told -/

namespace Timeline

variable {t u : Timeline}

/-- The ticks that have signals, with their signals. -/
def told (t : Timeline) : List (Tick × List Signal) :=
  t.signalsByTick.filter fun entry ↦ !entry.2.isEmpty

theorem stateBefore_eq_of_cuesAt_eq (hcues : ∀ tick, t.cuesAt tick = u.cuesAt tick) (tick : Tick) :
    t.stateBefore tick = u.stateBefore tick := by
  induction tick with
  | zero => rw [stateBefore_zero, stateBefore_zero]
  | succ tick ih => rw [stateBefore_succ, stateBefore_succ, ih, hcues tick]

theorem signalsAt_eq_of_cuesAt_eq (hcues : ∀ tick, t.cuesAt tick = u.cuesAt tick) (tick : Tick) :
    t.signalsAt tick = u.signalsAt tick := by
  rw [signalsAt, signalsAt, stateBefore_eq_of_cuesAt_eq hcues tick, hcues tick]

theorem told_eq (t : Timeline) :
    t.told = (t.ticks.filter fun tick ↦ !(t.signalsAt tick).isEmpty).map fun tick ↦
      (tick, t.signalsAt tick) := by
  rw [told, signalsByTick_eq, List.filter_map]
  rfl

theorem mem_filter_signalsAt {tick : Tick} :
    tick ∈ (t.ticks.filter fun tick ↦ !(t.signalsAt tick).isEmpty) ↔ t.signalsAt tick ≠ [] := by
  rw [List.mem_filter, Bool.not_eq_true', List.isEmpty_eq_false_iff]
  refine ⟨And.right, fun hsome ↦ ⟨?_, hsome⟩⟩
  by_contra htick
  exact hsome (signalsAt_eq_nil htick)

/-- Only the cues matter to what is told, not the ticks that are waited for beside them. -/
theorem told_eq_of_cuesAt_eq (hcues : ∀ tick, t.cuesAt tick = u.cuesAt tick) : t.told = u.told := by
  have hsignals := signalsAt_eq_of_cuesAt_eq hcues
  have hticks : (t.ticks.filter fun tick ↦ !(t.signalsAt tick).isEmpty) =
      u.ticks.filter fun tick ↦ !(u.signalsAt tick).isEmpty := by
    refine (t.ticks_pairwise.filter _).eq_of_mem_iff (u.ticks_pairwise.filter _) fun tick ↦ ?_
    rw [mem_filter_signalsAt, mem_filter_signalsAt, hsignals tick]
  rw [told_eq, told_eq, hticks]
  exact List.map_congr_left fun tick _ ↦ congrArg (Prod.mk tick) (hsignals tick)

theorem signals_eq_flatMap_told (t : Timeline) : t.signals = t.told.flatMap Prod.snd := by
  rw [signals, told]
  induction t.signalsByTick with
  | nil => rfl
  | cons entry rest ih =>
    obtain ⟨tick, signals⟩ := entry
    rw [List.flatMap_cons, ih]
    cases signals with
    | nil => rfl
    | cons => rfl

end Timeline

namespace Device

variable {pacing : Bool} (hsteady : pacing = true → device.Steady) (memory : σ) (t : Timeline)

include hsteady

/-- Assumes: if the time is kept, a device that cannot tell two waits from one. A dispatch sends what is
told of the timeline, and then perhaps waits once more. -/
theorem exists_dispatch_eq :
    ∃ last final, device.dispatch pacing memory t =
      device.wait pacing last final (device.sendFrom pacing 0 ({}, memory) t.told) := by
  have hordered : ((0 : Tick) :: t.signalsByTick.map Prod.fst).Pairwise (· ≤ ·) := by
    have hticks : t.signalsByTick.map Prod.fst = t.ticks := by
      rw [Timeline.signalsByTick_eq, List.map_map]
      exact List.map_id _
    rw [hticks]
    exact List.pairwise_cons.2 ⟨fun tick _ ↦ Nat.zero_le tick, t.ticks_pairwise.imp le_of_lt⟩
  obtain ⟨last, final, hsend⟩ := exists_sendFrom_eq hsteady le_rfl hordered
  rw [wait_self] at hsend
  exact ⟨last, final, (dispatch_eq device pacing memory t).trans hsend⟩

theorem fst_dispatch_eq :
    (device.dispatch pacing memory t).1 = (device.sendFrom pacing 0 ({}, memory) t.told).1 := by
  obtain ⟨last, final, hdispatch⟩ := exists_dispatch_eq hsteady memory t
  rw [hdispatch, fst_wait]

theorem answers_eq :
    device.answers pacing memory t =
      (device.watched.sendFrom pacing 0 ({}, [], memory) t.told).2.1.reverse := by
  obtain ⟨last, final, hdispatch⟩ :=
    exists_dispatch_eq (fun hpacing ↦ (hsteady hpacing).watched) ([], memory) t
  rw [answers, hdispatch, log_wait]

end Device

/-! ### Timelines that are dispatched alike -/

namespace Timeline

variable {t u : Timeline}

/-- No device can tell two timelines apart. Whatever a device answers and whether the time is kept or
not, it is handed the same events, and as many deliveries are attempted. If it cannot tell two waits in
a row from one, it also answers alike, and the outcome is the same. Replayed without keeping the time, it
ends in the same state as well. -/
structure PlaysLike (t u : Timeline) : Prop where
  handed : ∀ {σ : Type} (device : Device σ) (pacing : Bool) (memory : σ),
    (device.answers pacing memory t).map Prod.fst = (device.answers pacing memory u).map Prod.fst
  attempted : ∀ {σ : Type} (device : Device σ) (pacing : Bool) (memory : σ),
    (device.dispatch pacing memory t).1.injected = (device.dispatch pacing memory u).1.injected
  answers : ∀ {σ : Type} (device : Device σ) (pacing : Bool) (memory : σ),
    (pacing = true → device.Steady) →
      device.answers pacing memory t = device.answers pacing memory u
  outcome : ∀ {σ : Type} (device : Device σ) (pacing : Bool) (memory : σ),
    (pacing = true → device.Steady) →
      (device.dispatch pacing memory t).1 = (device.dispatch pacing memory u).1
  replay : ∀ {σ : Type} (device : Device σ) (memory : σ),
    device.replay memory t = device.replay memory u

/-- Timelines with the same cues are dispatched alike, whatever other ticks they wait for. -/
theorem PlaysLike.of_cuesAt_eq (hcues : ∀ tick, t.cuesAt tick = u.cuesAt tick) : t.PlaysLike u := by
  have htold : t.told = u.told := told_eq_of_cuesAt_eq hcues
  have hsignals : t.signals = u.signals := by
    rw [signals_eq_flatMap_told, signals_eq_flatMap_told, htold]
  constructor
  case handed =>
    intro σ device pacing memory
    rw [Device.map_fst_answers, Device.map_fst_answers, hsignals]
  case attempted =>
    intro σ device pacing memory
    have hlength : (device.answers pacing memory t).length = (device.answers pacing memory u).length := by
      rw [← List.length_map Prod.fst, ← List.length_map Prod.fst, Device.map_fst_answers,
        Device.map_fst_answers, hsignals]
    rw [Device.injected_dispatch, Device.injected_dispatch, hlength, ← countP_signals,
      ← countP_signals, hsignals]
  case answers =>
    intro σ device pacing memory hsteady
    rw [Device.answers_eq hsteady, Device.answers_eq hsteady, htold]
  case outcome =>
    intro σ device pacing memory hsteady
    rw [Device.fst_dispatch_eq hsteady, Device.fst_dispatch_eq hsteady, htold]
  case replay =>
    intro σ device memory
    rw [Device.replay_eq_sendAll, Device.replay_eq_sendAll, hsignals]

/-! ### Dropping the ticks without cues -/

/-- A timeline without the ticks that have no cues. -/
def withoutRests (t : Timeline) : Timeline :=
  { t with cues := t.cues.filter fun _ cues ↦ !cues.isEmpty }

/-- What is dropped has no cues, and all the rest stays. -/
theorem toList_withoutRests (t : Timeline) :
    t.withoutRests.toList = t.toList.filter fun entry ↦ !entry.2.isEmpty := by
  rw [toList, withoutRests, Std.TreeMap.toList_filter, toList, List.filter_map]
  refine congrArg _ (List.filter_congr fun entry _ ↦ ?_)
  rw [Function.comp_apply, Array.isEmpty_toList]

theorem cuesAt_withoutRests (t : Timeline) (tick : Tick) :
    t.withoutRests.cuesAt tick = t.cuesAt tick := by
  rw [cuesAt, withoutRests, Std.TreeMap.getD_filter', cuesAt, Std.TreeMap.getD_eq_getD_getElem?]
  cases t.cues[tick]? with
  | none => rfl
  | some cues =>
    rw [Option.filter_some]
    split_ifs with hsome
    · rfl
    · rw [Bool.not_eq_true', Bool.not_eq_false, Array.isEmpty_iff] at hsome
      rw [hsome]
      rfl

end Timeline

end ActionReplay
