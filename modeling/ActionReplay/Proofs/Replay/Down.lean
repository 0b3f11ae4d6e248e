import ActionReplay.Proofs.Replay.Grip
import ActionReplay.Proofs.Timeline.Pointers
import Mathlib.Data.Multiset.Filter
import Mathlib.Data.Multiset.Range

/-!
# The pointers that are down

On a timeline that shows the contacts of its pointers, the gesture of a tool keeps, before every
tick, the pointers whose last contact is a down (`keeps_gestureBefore`). Its table however holds
only those of them that it grips (`mem_keys_gestureBefore`): a pointer that goes up and down again
at one tick is taken out of the table by its lift, since lifts come last.
-/

set_option autoImplicit false
set_option relaxedAutoImplicit false

namespace ActionReplay

open MotionCue

/-- The pointers with a number below a bound that are down before a tick. -/
def Contact.downBefore (count : Nat) (contacts : Nat → List Contact) (tick : Tick) : Multiset Nat :=
  (Multiset.range count).filter fun pointer ↦ heldBefore (contacts pointer) tick = true

/-- The cue action of a contact. -/
def CueAction.ofContact (isDown : Bool) : CueAction :=
  if isDown then .down else .up

/-- A pointer has as many cues of a contact as it has contacts of that kind. -/
theorem Cue.count_pointers (cues : List Cue) (tool : Tool) (pointer : Nat) (tick : Tick)
    (isDown : Bool) :
    (pointers (having (.ofContact isDown)
        ((cues.filterMap Cue.motion?).filter fun cue ↦ cue.tool = tool))).count pointer =
      (cues.filterMap (Cue.contactOf? tool pointer tick)).count ⟨tick, isDown⟩ := by
  unfold pointers
  rw [Multiset.coe_count]
  induction cues with
  | nil => rfl
  | cons cue rest ih =>
    cases cue with
    | key cue => exact ih
    | motion cue =>
      unfold having at ih ⊢
      have hmotion : (motion cue :: rest).filterMap motion? = cue :: rest.filterMap motion? := rfl
      rw [hmotion]
      by_cases htool : cue.tool = tool
      · by_cases hpointer : cue.pointer = pointer
        · cases isDown <;> cases haction : cue.action <;>
            simp [htool, hpointer, haction, Cue.contactOf?, Cue.contact?, CueAction.ofContact, ← ih]
        · cases isDown <;> cases haction : cue.action <;>
            simp [htool, hpointer, haction, Cue.contactOf?, Cue.contact?, CueAction.ofContact, ← ih]
      · simp [htool, Cue.contactOf?, ← ih]

namespace Timeline.Shows

variable {t : Timeline} {count : Nat} {contacts : Tool → Nat → List Contact}

/-- A pointer has one cue of a contact at a tick at most. -/
theorem count_pointers (hshows : t.Shows count contacts) (tool : Tool) (tick : Tick)
    (pointer : Nat) (isDown : Bool) :
    (pointers (having (.ofContact isDown) (t.motionsAt tool tick))).count pointer =
      if (⟨tick, isDown⟩ : Contact) ∈ contacts tool pointer then 1 else 0 := by
  have hnodup := (hshows.turns tool pointer).nodup_during tick
  unfold motionsAt
  rw [Cue.count_pointers _ tool pointer tick isDown, hshows.shown]
  by_cases hmem : (⟨tick, isDown⟩ : Contact) ∈ contacts tool pointer
  · rw [if_pos hmem]
    exact List.count_eq_one_of_mem hnodup ((Contact.mem_iff_mem_during _ _ _).1 hmem)
  · rw [if_neg hmem]
    exact List.count_eq_zero_of_not_mem fun h ↦ hmem ((Contact.mem_iff_mem_during _ _ _).2 h)

theorem mem_pointers (hshows : t.Shows count contacts) (tool : Tool) (tick : Tick)
    (pointer : Nat) (isDown : Bool) :
    pointer ∈ pointers (having (.ofContact isDown) (t.motionsAt tool tick)) ↔
      (⟨tick, isDown⟩ : Contact) ∈ contacts tool pointer := by
  rw [← Multiset.count_pos, hshows.count_pointers]
  by_cases hmem : (⟨tick, isDown⟩ : Contact) ∈ contacts tool pointer
  · simp [hmem]
  · simp [hmem]

theorem count_downBefore (hshows : t.Shows count contacts) (tool : Tool) (tick : Tick)
    (pointer : Nat) :
    (Contact.downBefore count (contacts tool) tick).count pointer =
      if Contact.heldBefore (contacts tool pointer) tick then 1 else 0 := by
  unfold Contact.downBefore
  rw [Multiset.count_filter, Multiset.count_eq_of_nodup (Multiset.nodup_range count)]
  by_cases hmem : pointer < count
  · simp [hmem]
  · have hnone := hshows.few tool pointer (Nat.le_of_not_lt hmem)
    simp [hnone, Contact.heldBefore, Contact.before]

/-- The pointers that are down after a tick, and those that go up at it, are those that are down
before it and those that go down at it. -/
theorem downBefore_succ (hshows : t.Shows count contacts) (tool : Tool) (tick : Tick) :
    Contact.downBefore count (contacts tool) (tick + 1) +
        pointers (having .up (t.motionsAt tool tick)) =
      Contact.downBefore count (contacts tool) tick +
        pointers (having .down (t.motionsAt tool tick)) := by
  ext pointer
  rw [Multiset.count_add, Multiset.count_add, hshows.count_downBefore, hshows.count_downBefore]
  have hups := hshows.count_pointers tool tick pointer false
  have hdowns := hshows.count_pointers tool tick pointer true
  have hsucc := (hshows.turns tool pointer).count_succ tick
  rw [← hups, ← hdowns] at hsucc
  exact hsucc

theorem ups_le (hshows : t.Shows count contacts) (tool : Tool) (tick : Tick) :
    pointers (having .up (t.motionsAt tool tick)) ≤
      Contact.downBefore count (contacts tool) tick +
        pointers (having .down (t.motionsAt tool tick)) :=
  hshows.downBefore_succ tool tick ▸ Multiset.le_add_left _ _

/-- Before every tick the gesture of a tool keeps the pointers that are down. -/
theorem keeps_gestureBefore (hshows : t.Shows count contacts) (tool : Tool) (tick : Tick) :
    (t.gestureBefore tool tick).Keeps (Contact.downBefore count (contacts tool) tick) := by
  induction tick with
  | zero =>
    have hnone : Contact.downBefore count (contacts tool) 0 = 0 := by
      rw [Contact.downBefore, Multiset.filter_eq_nil]
      intro pointer _
      simp [Contact.heldBefore, Contact.before_eq_nil]
    rw [gestureBefore_zero, hnone]
    exact Gesture.keeps_start
  | succ tick ih =>
    have hreplay := ih.replay (hshows.ups_le tool tick) (t.flagsAt tick)
    rw [← hshows.downBefore_succ, Multiset.add_sub_cancel_right] at hreplay
    rw [gestureBefore_succ]
    exact hreplay

/-- The table of a tool holds the pointers that are gripped. -/
theorem mem_keys_gestureBefore (hshows : t.Shows count contacts) (tool : Tool) (tick : Tick)
    (pointer : Nat) :
    pointer ∈ (t.gestureBefore tool tick).live.keys ↔
      Contact.GrippedBefore (contacts tool pointer) tick := by
  induction tick with
  | zero =>
    rw [gestureBefore_zero]
    refine iff_of_false List.not_mem_nil (Contact.TakeTurns.not_grippedBefore_zero)
  | succ tick ih =>
    have hkeeps := hshows.keeps_gestureBefore tool tick
    have hdowns := hshows.mem_pointers tool tick pointer true
    have hups := hshows.mem_pointers tool tick pointer false
    rw [gestureBefore_succ, hkeeps.mem_keys_replay (hshows.ups_le tool tick), ih,
      (hshows.turns tool pointer).grippedBefore_succ]
    exact and_congr (or_congr_right hdowns) (not_congr hups)

/-- Assumes: no contact of a kind at a tick but those of one pointer. That pointer has all cues of
the contact. -/
theorem length_having_of_others (hshows : t.Shows count contacts) {tool : Tool} {tick : Tick}
    {pointer : Nat} {isDown : Bool}
    (hothers : ∀ other, other ≠ pointer → (⟨tick, isDown⟩ : Contact) ∉ contacts tool other) :
    (having (.ofContact isDown) (t.motionsAt tool tick)).length =
      if (⟨tick, isDown⟩ : Contact) ∈ contacts tool pointer then 1 else 0 := by
  have hall : ∀ other ∈ pointers (having (.ofContact isDown) (t.motionsAt tool tick)),
      pointer = other := by
    intro other hother
    have hmem := (hshows.mem_pointers tool tick other isDown).1 hother
    by_contra hne
    exact hothers other (Ne.symm hne) hmem
  have hcount := hshows.count_pointers tool tick pointer isDown
  rw [Multiset.count_eq_card.2 hall] at hcount
  rw [← hcount, pointers, Multiset.coe_card, List.length_map]

/-- Assumes: no pointer but one is down before a tick. The gesture counts that one, if it is
down. -/
theorem balance_gestureBefore_of_others (hshows : t.Shows count contacts) {tool : Tool}
    {tick : Tick} {pointer : Nat}
    (hothers : ∀ other, other ≠ pointer →
      Contact.heldBefore (contacts tool other) tick = false) :
    (t.gestureBefore tool tick).balance =
      if Contact.heldBefore (contacts tool pointer) tick then 1 else 0 := by
  have hall : ∀ other ∈ Contact.downBefore count (contacts tool) tick, pointer = other := by
    intro other hother
    have hheld : Contact.heldBefore (contacts tool other) tick = true :=
      (Multiset.mem_filter.1 hother).2
    by_contra hne
    rw [hothers other (Ne.symm hne)] at hheld
    exact Bool.false_ne_true hheld
  rw [(hshows.keeps_gestureBefore tool tick).balance, ← Multiset.count_eq_card.2 hall,
    hshows.count_downBefore]

/-- What is told of a tool at a tick is a round, with one press for each down and one lift for each
up, dated by the cues. If there are moves, a move is told exactly of the pointers that are gripped
before the tick or go down at it. -/
theorem exists_round (hshows : t.Shows count contacts) (tool : Tool) (tick : Tick) :
    ∃ (presses moves lifts : List MotionEvent) (k : Nat),
      t.touchesAt tool tick = presses ++ moves ++ lifts ∧
        MotionEvent.Round (t.gestureBefore tool tick).balance k
          (t.gestureBefore tool (tick + 1)).balance presses moves lifts ∧
        presses.length = (having .down (t.motionsAt tool tick)).length ∧
        lifts.length = (having .up (t.motionsAt tool tick)).length ∧
        (having .move (t.motionsAt tool tick) ≠ [] → ∀ pointer,
          (∃ e ∈ moves, pointer ∈ e.pointers.map Prod.fst) ↔
            Contact.GrippedBefore (contacts tool pointer) tick ∨
              (⟨tick, true⟩ : Contact) ∈ contacts tool pointer) ∧
        Gesture.Dates (t.motionsAt tool tick) presses moves lifts := by
  obtain ⟨presses, moves, lifts, k, htouches, hround, hdowns, hups, hmoves, hdates⟩ :=
    (hshows.keeps_gestureBefore tool tick).exists_round (hshows.ups_le tool tick)
      (t.tool_motionsAt tool tick) (t.flagsAt tick)
  rw [← touchesAt_eq] at htouches
  rw [← gestureBefore_succ] at hround
  refine ⟨presses, moves, lifts, k, htouches, hround, hdowns, hups, ?_, hdates⟩
  intro hsome pointer
  rw [hmoves hsome, Gesture.pressed, Gesture.mem_keys_pressAll, hshows.mem_keys_gestureBefore]
  exact or_congr_right (hshows.mem_pointers tool tick pointer true)

/-- What is told of a tool is a run that starts without an open down. -/
theorem exists_run_touches (hshows : t.Shows count contacts) (tool : Tool) :
    ∃ n, MotionEvent.Run 0 (t.touches tool) n := by
  obtain ⟨last, hlast⟩ := t.exists_touches_eq tool
  refine ⟨(t.gestureBefore tool last).balance, ?_⟩
  rw [hlast last le_rfl]
  clear hlast
  induction last with
  | zero =>
    rw [gestureBefore_zero]
    exact .nil 0
  | succ last ih =>
    obtain ⟨presses, moves, lifts, k, htouches, hround, -⟩ := hshows.exists_round tool last
    rw [List.range_succ, List.flatMap_append, List.flatMap_singleton, htouches]
    exact ih.append hround.run

/-- Every lift of a tool at a tick is told. -/
theorem countP_isLift_touchesAt (hshows : t.Shows count contacts) (tool : Tool) (tick : Tick) :
    (t.touchesAt tool tick).countP (fun e ↦ e.action.isLift) =
      (having .up (t.motionsAt tool tick)).length := by
  obtain ⟨presses, moves, lifts, k, htouches, hround, -, hups, -⟩ := hshows.exists_round tool tick
  rw [htouches, hround.countP_isLift, hups]

end Timeline.Shows

end ActionReplay
