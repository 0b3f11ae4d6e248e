import ActionReplay.Replay.Signal
import Mathlib.Data.List.Sort
import Mathlib.Order.Bounds.Basic
import Mathlib.Data.Set.Finite.Lattice

/-!
# Replaying one tick after another

A replay visits only the ticks that are waited for, but nothing would change if it visited every
tick: a tick without cues sends nothing and leaves the state as it is. So the state before a tick is
a function of the tick (`Timeline.stateBefore`) that starts from nothing and takes one step per tick
(`stateBefore_succ`), and the signals of a timeline are those of the ticks one after another
(`exists_signals_eq`).
-/

set_option autoImplicit false
set_option relaxedAutoImplicit false

namespace ActionReplay

/-! ### Runs -/

namespace ReplayState

theorem after_append (state : ReplayState) (before later : List (Tick × List Cue)) :
    state.after (before ++ later) = (state.after before).after later :=
  List.foldl_append

/-- A tick without cues changes nothing. -/
theorem replayTick_nil (state : ReplayState) : state.replayTick [] = ([], state) := rfl

/-- Assumes: ticks in increasing order. Each is replayed from the state that the earlier ones
leave. -/
theorem replay_eq_map {ticks : List (Tick × List Cue)}
    (hordered : ticks.Pairwise fun a b ↦ a.1 < b.1) (state : ReplayState) :
    state.replay ticks = ticks.map fun entry ↦ (entry.1,
      ((state.after (ticks.filter fun other ↦ other.1 < entry.1)).replayTick entry.2).1) := by
  induction ticks generalizing state with
  | nil => rfl
  | cons first rest ih =>
    obtain ⟨tick, cues⟩ := first
    obtain ⟨hlater, hrest⟩ := List.pairwise_cons.1 hordered
    have hnone : (((tick, cues) :: rest).filter fun other ↦ other.1 < tick) = [] := by
      rw [List.filter_eq_nil_iff]
      intro other hother
      rcases List.mem_cons.1 hother with rfl | hmem
      · simp
      · have hlt := hlater other hmem
        simpa using hlt.le
    rw [replay_cons, List.map_cons, ih hrest, hnone]
    refine congrArg _ (List.map_congr_left ?_)
    intro entry hentry
    rw [List.filter_cons_of_pos (by simpa using hlater entry hentry)]
    rfl

end ReplayState

namespace Timeline

variable (t : Timeline)

/-- The ticks before a tick, with their cues. -/
def entriesBefore (tick : Tick) : List (Tick × List Cue) :=
  t.toList.filter fun entry ↦ entry.1 < tick

/-- What a replay remembers before a tick. -/
def stateBefore (tick : Tick) : ReplayState :=
  ReplayState.after {} (t.entriesBefore tick)

/-- The signals that a replay sends at a tick. -/
def signalsAt (tick : Tick) : List Signal :=
  ((t.stateBefore tick).replayTick (t.cuesAt tick)).1

theorem cuesAt_eq_nil {t : Timeline} {tick : Tick} (htick : tick ∉ t.ticks) :
    t.cuesAt tick = [] := by
  have hnone : tick ∉ t.cues := fun hmem ↦ htick (Std.TreeMap.mem_keys.2 hmem)
  rw [cuesAt, Std.TreeMap.getD_eq_fallback hnone]

theorem entriesBefore_eq (tick : Tick) :
    t.entriesBefore tick =
      (t.ticks.filter fun reached ↦ reached < tick).map fun reached ↦
        (reached, t.cuesAt reached) := by
  rw [entriesBefore, toList_eq, List.filter_map]
  rfl

/-- Ticks in increasing order, up to one: the earlier ones, and then perhaps this one. -/
theorem filter_lt_succ {ticks : List Nat} (hordered : ticks.Pairwise (· < ·)) (tick : Nat) :
    (ticks.filter fun reached ↦ reached < tick + 1) =
      (ticks.filter fun reached ↦ reached < tick) ++ if tick ∈ ticks then [tick] else [] := by
  induction ticks with
  | nil => rfl
  | cons first rest ih =>
    obtain ⟨hlater, hrest⟩ := List.pairwise_cons.1 hordered
    have hkept : ∀ bound, first < bound →
        ((first :: rest).filter fun reached ↦ reached < bound) =
          first :: rest.filter fun reached ↦ reached < bound := fun bound hbound ↦
      List.filter_cons_of_pos (decide_eq_true hbound)
    have hlate : ∀ bound ≤ first + 1, (rest.filter fun reached ↦ reached < bound) = [] := by
      intro bound hbound
      rw [List.filter_eq_nil_iff]
      intro reached hreached
      have hlt := hlater reached hreached
      rw [decide_eq_true_iff]
      omega
    have hnone : ∀ bound ≤ first, ((first :: rest).filter fun reached ↦ reached < bound) = [] := by
      intro bound hbound
      rw [List.filter_cons_of_neg (by rw [decide_eq_true_iff]; omega)]
      exact hlate bound (Nat.le_succ_of_le hbound)
    rcases lt_trichotomy first tick with hlt | rfl | hgt
    · have hmem : tick ∈ first :: rest ↔ tick ∈ rest := by
        rw [List.mem_cons, or_iff_right hlt.ne']
      rw [hkept _ (Nat.lt_succ_of_lt hlt), hkept _ hlt, ih hrest]
      simp only [hmem, List.cons_append]
    · rw [hkept _ (Nat.lt_succ_self first), hlate _ le_rfl, hnone _ le_rfl,
        if_pos List.mem_cons_self]
      rfl
    · have hmem : tick ∉ first :: rest := by
        intro hmem
        rcases List.mem_cons.1 hmem with rfl | hmem
        · exact lt_irrefl _ hgt
        · exact lt_asymm hgt (hlater tick hmem)
      rw [hnone _ hgt, hnone _ hgt.le, if_neg hmem]
      rfl

theorem entriesBefore_succ (tick : Tick) :
    t.entriesBefore (tick + 1) =
      t.entriesBefore tick ++ if tick ∈ t.ticks then [(tick, t.cuesAt tick)] else [] := by
  rw [entriesBefore_eq, entriesBefore_eq, filter_lt_succ t.ticks_pairwise, List.map_append]
  by_cases htick : tick ∈ t.ticks
  · rw [if_pos htick, if_pos htick]
    rfl
  · rw [if_neg htick, if_neg htick]
    rfl

theorem stateBefore_zero : t.stateBefore 0 = {} := by
  have hnone : t.entriesBefore 0 = [] := by simp [entriesBefore]
  rw [stateBefore, hnone]
  rfl

/-- The state before a tick becomes the state before the next one by replaying the cues of the tick,
whether it is waited for or not. -/
theorem stateBefore_succ (tick : Tick) :
    t.stateBefore (tick + 1) = ((t.stateBefore tick).replayTick (t.cuesAt tick)).2 := by
  rw [stateBefore, entriesBefore_succ, ReplayState.after_append]
  by_cases htick : tick ∈ t.ticks
  · rw [if_pos htick]
    rfl
  · rw [if_neg htick, cuesAt_eq_nil htick, ReplayState.replayTick_nil]
    rfl

theorem signalsAt_eq_nil {t : Timeline} {tick : Tick} (htick : tick ∉ t.ticks) :
    t.signalsAt tick = [] := by
  rw [signalsAt, cuesAt_eq_nil htick, ReplayState.replayTick_nil]

theorem signalsByTick_eq : t.signalsByTick = t.ticks.map fun tick ↦ (tick, t.signalsAt tick) := by
  have hordered : t.toList.Pairwise fun a b ↦ a.1 < b.1 := by
    rw [toList_eq, List.pairwise_map]
    exact t.ticks_pairwise
  calc t.signalsByTick
      = t.toList.map fun entry ↦ (entry.1, ((t.stateBefore entry.1).replayTick entry.2).1) :=
        ReplayState.replay_eq_map hordered {}
    _ = t.ticks.map fun tick ↦ (tick, t.signalsAt tick) := by
        rw [toList_eq, List.map_map]
        rfl

theorem mem_signalsByTick {t : Timeline} {tick : Tick} {signals : List Signal} :
    (tick, signals) ∈ t.signalsByTick ↔ tick ∈ t.ticks ∧ signals = t.signalsAt tick := by
  rw [signalsByTick_eq, List.mem_map]
  constructor
  · rintro ⟨reached, hreached, hsame⟩
    obtain ⟨rfl, rfl⟩ := Prod.mk.inj hsame
    exact ⟨hreached, rfl⟩
  · rintro ⟨htick, rfl⟩
    exact ⟨tick, htick, rfl⟩

/-- The signals of a tick that is waited for. -/
theorem eq_signalsAt_of_mem {t : Timeline} {tick : Tick} {signals : List Signal}
    (hmem : (tick, signals) ∈ t.signalsByTick) : signals = t.signalsAt tick :=
  (mem_signalsByTick.1 hmem).2

theorem exists_bound (ticks : List Tick) : ∃ bound, ∀ tick ∈ ticks, tick < bound := by
  obtain ⟨last, hlast⟩ := ticks.toFinset.bddAbove
  exact ⟨last + 1, fun tick htick ↦ Nat.lt_succ_of_le (hlast (List.mem_toFinset.2 htick))⟩

/-- Assumes: something that is empty at ticks that are not waited for. Going through the ticks of a
timeline before a tick is going through all ticks before it. -/
theorem flatMap_ticks_before {t : Timeline} {α : Type} {atTick : Tick → List α}
    (hnone : ∀ tick, tick ∉ t.ticks → atTick tick = []) (bound : Nat) :
    (t.ticks.filter fun tick ↦ tick < bound).flatMap atTick =
      (List.range bound).flatMap atTick := by
  induction bound with
  | zero => simp
  | succ bound ih =>
    rw [filter_lt_succ t.ticks_pairwise, List.flatMap_append, ih, List.range_succ,
      List.flatMap_append]
    by_cases htick : bound ∈ t.ticks
    · rw [if_pos htick]
    · rw [if_neg htick, List.flatMap_singleton, hnone bound htick]
      rfl

/-- Assumes: something that is empty at ticks that are not waited for. Going through the ticks of a
timeline is going through all ticks up to one that is late enough. -/
theorem flatMap_ticks {t : Timeline} {α : Type} {atTick : Tick → List α}
    (hnone : ∀ tick, tick ∉ t.ticks → atTick tick = []) {bound : Nat}
    (hbound : ∀ tick ∈ t.ticks, tick < bound) :
    t.ticks.flatMap atTick = (List.range bound).flatMap atTick := by
  rw [← flatMap_ticks_before hnone bound,
    List.filter_eq_self.2 fun tick htick ↦ decide_eq_true (hbound tick htick)]

/-- Assumes: a reading that finds nothing where there are no signals. It finds in the signals of a
timeline, tick by tick, what it finds in those of all ticks up to one that is late enough. -/
theorem flatMap_signalsByTick {t : Timeline} {α : Type} (read : List Signal → List α)
    (hnil : read [] = []) {bound : Nat} (hbound : ∀ tick ∈ t.ticks, tick < bound) :
    t.signalsByTick.flatMap (fun entry ↦ read entry.2) =
      (List.range bound).flatMap fun tick ↦ read (t.signalsAt tick) := by
  rw [signalsByTick_eq, List.flatMap_map]
  apply flatMap_ticks _ hbound
  intro tick htick
  rw [signalsAt_eq_nil htick]
  exact hnil

/-- The signals of a timeline are those of all ticks, one after another, up to any tick that is late
enough. -/
theorem exists_signals_eq :
    ∃ last, ∀ bound, last ≤ bound → t.signals = (List.range bound).flatMap t.signalsAt := by
  obtain ⟨last, hlast⟩ := exists_bound t.ticks
  refine ⟨last, fun bound hbound ↦ ?_⟩
  exact flatMap_signalsByTick id rfl fun tick htick ↦ (hlast tick htick).trans_le hbound

end Timeline

end ActionReplay
