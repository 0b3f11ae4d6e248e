import ActionReplay.Proofs.Replay.Down
import ActionReplay.Proofs.Replay.Watched

/-!
# The table of a gesture

A gesture remembers the pointers that are down in a table. After a tick the table of a tool holds
the pointers that their sources hold down, and the counter is their number, exactly as long as no
source is down by a press at the tick of a lift (`Timeline.live_iff_of_compile`). A source may go up
and down again at one tick, but downs are replayed before ups: the lift that came first then removes
the pointer from the table while the source goes on holding it. Until its next press the pointer is
missing from the moves of its tool.
-/

set_option autoImplicit false
set_option relaxedAutoImplicit false

namespace ActionReplay

open MotionCue

/-! ### What a source holds -/

namespace Contact

variable {contacts : List Contact} {tick : Tick}

theorem heldBefore_iff : heldBefore contacts tick = true ↔
    ∃ pressed, (before contacts tick).getLast? = some ⟨pressed, true⟩ := by
  unfold heldBefore
  rw [downAfter_false]
  constructor
  · intro hdown
    obtain ⟨⟨pressed, isDown⟩, hlast, htrue⟩ := (Option.any_eq_true _ _).1 hdown
    obtain rfl : isDown = true := htrue
    exact ⟨pressed, hlast⟩
  · rintro ⟨pressed, hlast⟩
    rw [hlast]
    rfl

theorem RegrippedBefore.heldBefore (hregripped : RegrippedBefore contacts tick) :
    heldBefore contacts tick = true := by
  obtain ⟨pressed, hlast, -⟩ := hregripped
  exact heldBefore_iff.2 ⟨pressed, hlast⟩

end Contact

namespace Source

variable (s : Source)

/-- The last down or up of a source at a tick or before it. -/
def lastContact? (tick : Tick) : Option Contact :=
  (s.contacts.filter fun contact ↦ contact.tick ≤ tick).getLast?

/-- The last contact of a source up to a tick is a down. -/
def HoldsAt (tick : Tick) : Prop :=
  ∃ pressed, s.lastContact? tick = some ⟨pressed, true⟩

/-- The last contact of a source up to a tick is a down, at a tick at which it also went up. -/
def RegripsAt (tick : Tick) : Prop :=
  ∃ pressed, s.lastContact? tick = some ⟨pressed, true⟩ ∧
    (⟨pressed, false⟩ : Contact) ∈ s.contacts

theorem lastContact?_eq (tick : Tick) :
    s.lastContact? tick = (Contact.before s.contacts (tick + 1)).getLast? := by
  unfold lastContact? Contact.before
  congr 1
  apply List.filter_congr
  intro contact _
  rw [decide_eq_decide]
  exact Nat.lt_succ_iff.symm

theorem holdsAt_iff (tick : Tick) :
    s.HoldsAt tick ↔ Contact.heldBefore s.contacts (tick + 1) = true := by
  rw [Contact.heldBefore_iff, HoldsAt, lastContact?_eq]

theorem regripsAt_iff (tick : Tick) :
    s.RegripsAt tick ↔ Contact.RegrippedBefore s.contacts (tick + 1) := by
  rw [RegripsAt, lastContact?_eq]
  rfl

theorem grippedBefore_iff (tick : Tick) :
    Contact.GrippedBefore s.contacts tick ↔
      ∃ earlier, tick = earlier + 1 ∧ s.HoldsAt earlier ∧ ¬s.RegripsAt earlier := by
  cases tick with
  | zero =>
    refine iff_of_false Contact.TakeTurns.not_grippedBefore_zero ?_
    rintro ⟨earlier, hzero, -⟩
    exact absurd hzero.symm (Nat.succ_ne_zero earlier)
  | succ earlier =>
    rw [Contact.GrippedBefore, ← holdsAt_iff, ← regripsAt_iff]
    constructor
    · exact fun hgrips ↦ ⟨earlier, rfl, hgrips⟩
    · rintro ⟨other, hsame, hgrips⟩
      rwa [Nat.succ.inj hsame]

/-- What holds of the contacts of a pointer, but not of none, holds of the contacts of its
source. -/
theorem contactsOf_iff (sources : List Source) {P : List Contact → Prop} (hnone : ¬P [])
    (tool : Tool) (pointer : Nat) :
    P (contactsOf sources tool pointer) ↔
      ∃ s, (ofKind sources .pointer)[pointer]? = some s ∧ s.tool = tool ∧ P s.contacts := by
  unfold contactsOf
  cases hget : (ofKind sources .pointer)[pointer]? with
  | none => simpa using hnone
  | some s =>
    by_cases htool : s.tool = tool
    · simp [htool]
    · simpa [htool] using hnone

/-- A pointer is held after a tick exactly when its source holds it. -/
theorem heldBefore_contactsOf_iff (sources : List Source) (tool : Tool) (pointer : Nat)
    (tick : Tick) :
    Contact.heldBefore (contactsOf sources tool pointer) (tick + 1) = true ↔
      ∃ s, (ofKind sources .pointer)[pointer]? = some s ∧ s.tool = tool ∧ s.HoldsAt tick := by
  simp only [holdsAt_iff]
  exact contactsOf_iff sources
    (P := fun contacts ↦ Contact.heldBefore contacts (tick + 1) = true) Bool.false_ne_true tool
    pointer

/-- What holds of no contacts holds of those of all pointers of a tool exactly when it holds of
those of all its sources. -/
theorem forall_contactsOf_iff (sources : List Source) {P : List Contact → Prop} (hnone : P [])
    (tool : Tool) :
    (∀ pointer, P (contactsOf sources tool pointer)) ↔
      ∀ s ∈ ofKind sources .pointer, s.tool = tool → P s.contacts := by
  have hsource := contactsOf_iff sources (P := fun contacts ↦ ¬P contacts) (not_not_intro hnone)
    tool
  constructor
  · intro hall s hs htool
    obtain ⟨pointer, hpointer⟩ := List.mem_iff_getElem?.1 hs
    by_contra hnot
    exact (hsource pointer).2 ⟨s, hpointer, htool, hnot⟩ (hall pointer)
  · intro hall pointer
    by_contra hnot
    obtain ⟨s, hpointer, htool, hs⟩ := (hsource pointer).1 hnot
    exact hs (hall s (List.mem_of_getElem? hpointer) htool)

/-- No pointer of a tool is regripped after a tick exactly when no source of the tool regrips. -/
theorem forall_not_regripped_iff (sources : List Source) (tool : Tool) (tick : Tick) :
    (∀ pointer, ¬Contact.RegrippedBefore (contactsOf sources tool pointer) (tick + 1)) ↔
      ∀ s ∈ ofKind sources .pointer, s.tool = tool → ¬s.RegripsAt tick := by
  have hnothing : ¬Contact.RegrippedBefore [] (tick + 1) := fun hnone ↦
    Bool.false_ne_true hnone.heldBefore
  simp only [regripsAt_iff]
  exact forall_contactsOf_iff sources
    (P := fun contacts ↦ ¬Contact.RegrippedBefore contacts (tick + 1)) hnothing tool

/-- A pointer is gripped before a tick or goes down at it exactly when its source goes down at the
tick, or has held it since before the tick without regripping it. -/
theorem gripped_contactsOf_iff (sources : List Source) (tool : Tool) (pointer : Nat) (tick : Tick) :
    Contact.GrippedBefore (contactsOf sources tool pointer) tick ∨
        (⟨tick, true⟩ : Contact) ∈ contactsOf sources tool pointer ↔
      ∃ s, (ofKind sources .pointer)[pointer]? = some s ∧ s.tool = tool ∧
        ((⟨tick, true⟩ : Contact) ∈ s.contacts ∨
          ∃ earlier, tick = earlier + 1 ∧ s.HoldsAt earlier ∧ ¬s.RegripsAt earlier) := by
  have hnone : ¬(Contact.GrippedBefore [] tick ∨ (⟨tick, true⟩ : Contact) ∈ []) := by
    rintro (⟨hheld, -⟩ | hmem)
    · exact Bool.false_ne_true hheld
    · exact List.not_mem_nil hmem
  rw [contactsOf_iff sources (P := fun contacts ↦ Contact.GrippedBefore contacts tick ∨
    (⟨tick, true⟩ : Contact) ∈ contacts) hnone]
  refine exists_congr fun s ↦ and_congr_right fun _ ↦ and_congr_right fun _ ↦ ?_
  rw [grippedBefore_iff, or_comm]

end Source

/-! ### What a gesture holds -/

namespace Timeline

/-- What a replay remembers once a tick has been replayed. -/
def stateAfter (t : Timeline) (tick : Tick) : ReplayState :=
  ReplayState.after {} (t.toList.filter fun entry ↦ entry.1 ≤ tick)

/-- The gesture of a tool once a tick has been replayed. -/
def gestureAfter (t : Timeline) (tool : Tool) (tick : Tick) : Gesture :=
  (t.stateAfter tick).gestures.get tool

theorem gestureAfter_eq (t : Timeline) (tool : Tool) (tick : Tick) :
    t.gestureAfter tool tick = t.gestureBefore tool (tick + 1) := by
  have hentries : (t.toList.filter fun entry ↦ entry.1 ≤ tick) = t.entriesBefore (tick + 1) := by
    apply List.filter_congr
    intro entry _
    rw [decide_eq_decide]
    exact Nat.lt_succ_iff.symm
  rw [gestureAfter, stateAfter, hentries]
  rfl

namespace Shows

variable {t : Timeline} {count : Nat} {contacts : Tool → Nat → List Contact}

/-- As long as no pointer is regripped, the counter is the size of the table. -/
theorem balance_eq_length (hshows : t.Shows count contacts) {tool : Tool} {tick : Tick}
    (hgrip : ∀ pointer, ¬Contact.RegrippedBefore (contacts tool pointer) tick) :
    (t.gestureBefore tool tick).balance = (t.gestureBefore tool tick).live.length := by
  have hkeeps := hshows.keeps_gestureBefore tool tick
  have hkeys : (t.gestureBefore tool tick).live.keys.Nodup := by
    unfold Table.keys
    rw [List.Nodup, List.pairwise_map]
    exact hkeeps.ascending.imp fun hlt ↦ hlt.ne
  have hdown : (Contact.downBefore count (contacts tool) tick).Nodup :=
    (Multiset.nodup_range count).filter _
  have hsame : Contact.downBefore count (contacts tool) tick =
      ((t.gestureBefore tool tick).live.keys : Multiset Nat) := by
    rw [Multiset.Nodup.ext hdown (Multiset.coe_nodup.2 hkeys)]
    intro pointer
    rw [Multiset.mem_coe, hshows.mem_keys_gestureBefore, ← Multiset.count_pos,
      hshows.count_downBefore, Contact.GrippedBefore, and_iff_left (hgrip pointer)]
    by_cases hheld : Contact.heldBefore (contacts tool pointer) tick = true
    · simp [hheld]
    · simp [hheld]
  rw [hkeeps.balance, hsame, Multiset.coe_card, Table.keys, List.length_map]

/-- The table is exact, and the counter is its size, exactly as long as no pointer is regripped. -/
theorem exact_iff (hshows : t.Shows count contacts) (tool : Tool) (tick : Tick) :
    ((∀ pointer, pointer ∈ (t.gestureBefore tool tick).live.keys ↔
          Contact.heldBefore (contacts tool pointer) tick = true) ∧
        (t.gestureBefore tool tick).balance = (t.gestureBefore tool tick).live.length) ↔
      ∀ pointer, ¬Contact.RegrippedBefore (contacts tool pointer) tick := by
  constructor
  · rintro ⟨hexact, -⟩ pointer hregripped
    have hlive := (hexact pointer).2 hregripped.heldBefore
    exact ((hshows.mem_keys_gestureBefore tool tick pointer).1 hlive).2 hregripped
  · intro hgrip
    refine ⟨?_, hshows.balance_eq_length hgrip⟩
    intro pointer
    rw [hshows.mem_keys_gestureBefore]
    exact and_iff_left (hgrip pointer)

/-- Assumes: some move of a tool at a tick. It is told of the pointers that are gripped before the
tick or go down at it. -/
theorem mem_move_iff (hshows : t.Shows count contacts) {tool : Tool} {tick : Tick}
    (hsome : having .move (t.motionsAt tool tick) ≠ []) (pointer : Nat) :
    (∃ e ∈ t.touchesAt tool tick, e.action = .move ∧ pointer ∈ e.pointers.map Prod.fst) ↔
      Contact.GrippedBefore (contacts tool pointer) tick ∨
        (⟨tick, true⟩ : Contact) ∈ contacts tool pointer := by
  obtain ⟨presses, moves, lifts, k, htouches, hround, -, -, hmoves, -⟩ :=
    hshows.exists_round tool tick
  rw [htouches, ← hmoves hsome]
  constructor
  · rintro ⟨e, he, haction, hpointer⟩
    rcases List.mem_append.1 he with he | he
    · rcases List.mem_append.1 he with he | he
      · have hdown := hround.press e he
        rw [haction] at hdown
        cases hdown
      · exact ⟨e, he, hpointer⟩
    · have hup := hround.lift e he
      rw [haction] at hup
      cases hup
  · rintro ⟨e, he, hpointer⟩
    have hmem : e ∈ presses ++ moves ++ lifts :=
      List.mem_append_left _ (List.mem_append_right _ he)
    exact ⟨e, hmem, hround.move e he, hpointer⟩

end Shows

/-- Assumes: a payload that compiles. Any device is handed the events of one tick after another, and
the dispatch that hands them over has the same gestures after a tick, whatever the device answers.
After a tick the table of a tool holds the ordinals of the pointer sources of the tool whose last
contact is a down, and the counter is its size, if and only if none of these sources went up at the
tick of that down. A move of a pointer is told with the pointer if and only if its source goes down at
the tick, or holds it since before the tick without having gone up at the tick of that down. -/
theorem live_iff_of_compile {locate : Locator} {actions : Json} {t : Timeline}
    (ht : compile locate actions = .ok t) :
    ∃ sources, (Source.readAll actions >>= Source.accept) = .ok sources ∧
      (∀ (σ : Type) (device : Device σ) (pacing : Bool) (memory : σ),
        (device.answers pacing memory t).map Prod.fst =
            t.signalsByTick.flatMap (fun entry ↦ entry.2.filterMap Signal.event?) ∧
          ∀ tool tick, (device.dispatchFrom pacing 0 { sent := ({}, memory) }
            (t.toList.filter fun entry ↦ entry.1 ≤ tick)).gesture tool = t.gestureAfter tool tick) ∧
      (∀ tool tick,
        ((∀ pointer, pointer ∈ (t.gestureAfter tool tick).live.keys ↔
              ∃ s, (Source.ofKind sources .pointer)[pointer]? = some s ∧ s.tool = tool ∧
                s.HoldsAt tick) ∧
            (t.gestureAfter tool tick).balance = (t.gestureAfter tool tick).live.length) ↔
          ∀ s ∈ Source.ofKind sources .pointer, s.tool = tool → ¬s.RegripsAt tick) ∧
      ∀ tool tick signals, (tick, signals) ∈ t.signalsByTick →
        ∀ cue ∈ t.motionsAt tool tick, cue.action = .move →
          ((∃ e ∈ InputEvent.touches tool (signals.filterMap Signal.event?),
              e.action = .move ∧ cue.pointer ∈ e.pointers.map Prod.fst) ↔
            ∃ s, (Source.ofKind sources .pointer)[cue.pointer]? = some s ∧ s.tool = tool ∧
              ((⟨tick, true⟩ : Contact) ∈ s.contacts ∨
                ∃ earlier, tick = earlier + 1 ∧ s.HoldsAt earlier ∧ ¬s.RegripsAt earlier)) := by
  obtain ⟨sources, hread, hsources⟩ := exists_sources_of_compile ht
  have hshows := shows_of_ofSources hsources
  refine ⟨sources, hread, ?_, ?_, ?_⟩
  · intro σ device pacing memory
    refine ⟨device.map_fst_answers_byTick pacing memory t, fun tool tick ↦ ?_⟩
    rw [Dispatch.gesture, Device.state_dispatchFrom]
    rfl
  · intro tool tick
    rw [gestureAfter_eq, ← Source.forall_not_regripped_iff, ← hshows.exact_iff tool (tick + 1)]
    simp only [Source.heldBefore_contactsOf_iff]
  · intro tool tick signals hmem cue hcue hmove
    have hsome : having .move (t.motionsAt tool tick) ≠ [] := by
      refine List.ne_nil_of_mem (a := cue) (List.mem_filter.2 ⟨hcue, ?_⟩)
      simpa using hmove
    rw [eq_signalsAt_of_mem hmem]
    exact (hshows.mem_move_iff hsome cue.pointer).trans
      (Source.gripped_contactsOf_iff sources tool cue.pointer tick)

/-- A finger that taps, and goes down again at the tick at which it goes up, to drag. -/
def dragAgain : Json :=
  .array [
    Json.pointerSource "m" [
      Json.item .pointerMove [(.duration, 0), (.x, 1), (.y, 2)],
      Json.item .pointerDown [],
      Json.item .pause [(.duration, 10)],
      Json.item .pointerUp [],
      Json.item .pointerDown [],
      Json.item .pointerMove [(.duration, 10), (.x, 3), (.y, 2)],
      Json.item .pointerUp []]]

/-- The table is exact before the finger goes down again. -/
theorem live_dragAgain :
    ∃ t sources, compile (fun _ ↦ none) dragAgain = .ok t ∧
      (Source.readAll dragAgain >>= Source.accept) = .ok sources ∧
      (((∀ pointer, pointer ∈ (t.gestureAfter .finger 0).live.keys ↔
            ∃ s, (Source.ofKind sources .pointer)[pointer]? = some s ∧ s.tool = .finger ∧
              s.HoldsAt 0) ∧
          (t.gestureAfter .finger 0).balance = (t.gestureAfter .finger 0).live.length) ↔
        ∀ s ∈ Source.ofKind sources .pointer, s.tool = .finger → ¬s.RegripsAt 0) := by
  have hcompile : ∃ t, compile (fun _ ↦ none) dragAgain = .ok t := ⟨_, rfl⟩
  obtain ⟨t, ht⟩ := hcompile
  obtain ⟨sources, hread, -, hexact, -⟩ := live_iff_of_compile ht
  exact ⟨t, sources, ht, hread, hexact .finger 0⟩

/-- Once the finger is down again the table has lost it, while the counter counts it. -/
theorem not_exact_dragAgain :
    ¬∀ t sources, compile (fun _ ↦ none) dragAgain = .ok t →
      (Source.readAll dragAgain >>= Source.accept) = .ok sources → ∀ tool tick,
        (∀ pointer, pointer ∈ (t.gestureAfter tool tick).live.keys ↔
            ∃ s, (Source.ofKind sources .pointer)[pointer]? = some s ∧ s.tool = tool ∧
              s.HoldsAt tick) ∧
          (t.gestureAfter tool tick).balance = (t.gestureAfter tool tick).live.length := by
  have hvalues : (compile (fun _ ↦ none) dragAgain).toOption.map (fun t ↦
      ((t.gestureAfter .finger 10).balance, (t.gestureAfter .finger 10).live.length)) =
        some (1, 0) := by
    decide +kernel
  have hcompile : ∃ t, compile (fun _ ↦ none) dragAgain = .ok t := ⟨_, rfl⟩
  have hread : ∃ sources, (Source.readAll dragAgain >>= Source.accept) = .ok sources := ⟨_, rfl⟩
  obtain ⟨t, ht⟩ := hcompile
  obtain ⟨sources, hsources⟩ := hread
  rw [ht] at hvalues
  obtain ⟨hbalance, hlength⟩ := Prod.mk.inj (Option.some.inj hvalues)
  intro hexact
  have hequal := (hexact t sources ht hsources .finger 10).2
  rw [hbalance, hlength] at hequal
  exact one_ne_zero hequal

end Timeline

end ActionReplay
