import ActionReplay.Proofs.Track.Clock
import ActionReplay.Proofs.Track.Contacts
import Mathlib.Algebra.GroupWithZero.Nat

/-!
# How much a source books

A pointer source carries out its items one after another, up to the first fault (`Source.pointerRun`). A
move books one sample for each quantum that it takes, and no item books more than two cues beside its
samples, so samples are paid for by the tick (`Source.PointerAct.paid`), which never passes the longest
timeline. A run has therefore no more samples than the longest timeline has quanta, whether it ends in a
fault or not (`Source.runSampleCount_pointerRun_le`), and a track no more cues than that and two for each
item (`Source.cueCount_pointerTrack_le`). The end of a move is compared with the longest timeline before
anything else is done with the move: if it does not fit, not even the positions of its ends are looked up
(`Source.moveStep_of_late`).
-/

set_option autoImplicit false
set_option relaxedAutoImplicit false

namespace ActionReplay

variable {locate : Locator} {s : Source} {p : Pointer}

namespace Booking

/-- How many cues are booked. -/
def cueCount (bookings : List Booking) : Nat :=
  bookings.countP fun booking ↦ booking.cue.isSome

/-- A sample of a move that ends at a tick shows where the pointer is before the end. -/
def isSample (stop : Tick) (booking : Booking) : Bool :=
  (booking.motion?.any fun cue ↦ cue.action = .move ∨ cue.action = .hoverMove) &&
    decide (booking.tick < stop)

/-- How many samples are booked of a move that ends at a tick. -/
def sampleCount (stop : Tick) (bookings : List Booking) : Nat :=
  bookings.countP (isSample stop)

theorem cueCount_append (before later : List Booking) :
    cueCount (before ++ later) = cueCount before + cueCount later :=
  List.countP_append

theorem sampleCount_append (stop : Tick) (before later : List Booking) :
    sampleCount stop (before ++ later) = sampleCount stop before + sampleCount stop later :=
  List.countP_append

end Booking

namespace Pointer

open Booking

variable {line : Line} {entry : Tick} {action : CueAction} {button : UInt32}

theorem cueCount_samples (line : Line) (entry : Tick) (action : CueAction) (button : UInt32) :
    cueCount (p.samples line entry action button) = line.steps := by
  have hall : ∀ booking ∈ p.samples line entry action button, booking.cue.isSome = true := by
    intro booking hbooking
    obtain ⟨step, -, rfl⟩ := List.mem_map.1 hbooking
    rfl
  rw [cueCount, List.countP_eq_length.2 hall, samples, List.length_map, List.length_range]

theorem sampleCount_samples (haction : action = .move ∨ action = .hoverMove) :
    sampleCount line.stopTick (p.samples line entry action button) = line.steps := by
  have hall : ∀ booking ∈ p.samples line entry action button,
      booking.isSample line.stopTick = true := by
    intro booking hbooking
    obtain ⟨step, hstep, rfl⟩ := List.mem_map.1 hbooking
    have hbefore : line.tickAt step < line.stopTick :=
      Nat.add_lt_add_left (Nat.mul_lt_mul_of_pos_right (List.mem_range.1 hstep) (by decide)) _
    exact Bool.and_eq_true_iff.2 ⟨decide_eq_true haction, decide_eq_true hbefore⟩
  rw [sampleCount, List.countP_eq_length.2 hall, samples, List.length_map, List.length_range]

end Pointer

namespace Source

open Booking

/-! ### Acts -/

/-- Assumes: bookings of an item that is carried out between two ticks. Each sample takes a quantum, and
there are two more cues at most. -/
structure Paid (start stop : Tick) (bookings : List Booking) : Prop where
  samples : start + quantum * sampleCount stop bookings ≤ stop
  cues : cueCount bookings ≤ sampleCount stop bookings + 2

/-- A few cues that are no samples are paid for, however long they take. -/
theorem Paid.of_le {start stop : Tick} {bookings : List Booking} (hle : start ≤ stop)
    (hnone : sampleCount stop bookings = 0) (hfew : cueCount bookings ≤ 2) :
    Paid start stop bookings := by
  constructor
  · rwa [hnone]
  · rwa [hnone]

/-- The samples of a line, with a few cues before and after them. -/
theorem paid_samples {line : Pointer.Line} {entry : Tick} {action : CueAction} {button : UInt32}
    {before after : List Booking} (haction : action = .move ∨ action = .hoverMove)
    (hbefore : sampleCount line.stopTick before = 0) (hafter : sampleCount line.stopTick after = 0)
    (hfew : cueCount before + cueCount after ≤ 2) :
    Paid line.tick line.stopTick (before ++ p.samples line entry action button ++ after) := by
  have hstop : line.tick + quantum * line.steps = line.stopTick :=
    congrArg (line.tick + ·) (Nat.mul_comm quantum line.steps)
  constructor
  · rw [sampleCount_append, sampleCount_append, hbefore, hafter, Pointer.sampleCount_samples haction,
      Nat.zero_add, Nat.add_zero, hstop]
  · rw [cueCount_append, cueCount_append, sampleCount_append, sampleCount_append, hbefore, hafter,
      Pointer.sampleCount_samples haction, Pointer.cueCount_samples]
    omega

theorem paid_hover {line : Pointer.Line} {start stop : Tick} (hstart : line.tick = start)
    (hstop : line.stopTick = stop) : Paid start stop (p.hover line) := by
  subst hstart hstop
  unfold Pointer.hover
  split_ifs with hshort
  · exact .of_le (Nat.le_add_right _ _) rfl (Nat.zero_le 2)
  · exact paid_samples (.inr rfl) rfl rfl le_rfl

/-- The closing cue of a drag stands where the move ends, so it is none of its samples. -/
theorem paid_drag {line : Pointer.Line} {start stop : Tick} (hstart : line.tick = start)
    (hstop : line.stopTick = stop) {entry : Tick} {button : UInt32} {closing : Bool} :
    Paid start stop (p.drag line entry button closing) := by
  subst hstart hstop
  unfold Pointer.drag
  rw [← List.nil_append (p.samples line entry .move button)]
  cases closing with
  | true =>
    exact paid_samples (.inl rfl) rfl (by simp [sampleCount, isSample, Booking.motion])
      (Nat.le_succ 1)
  | false => exact paid_samples (.inl rfl) rfl rfl (Nat.zero_le 2)

/-- What an item books is paid for by the time it takes, and it ends in time if it starts in time. -/
theorem PointerAct.paid {place : Nat} {next : Option Item} {state after : PointerState}
    {item : Item} {bookings : List Booking}
    (hact : PointerAct locate s p place next state item bookings after) :
    Paid state.tick after.tick bookings ∧
      (state.tick ≤ longestTimeline → after.tick ≤ longestTimeline) := by
  cases hact with
  | pause hspan hfits => exact ⟨.of_le (Nat.le_add_right _ _) rfl (Nat.zero_le 2), fun _ ↦ hfits⟩
  | press => exact ⟨.of_le le_rfl rfl (Nat.le_succ 1), fun hstart ↦ hstart⟩
  | lift => exact ⟨.of_le le_rfl rfl (Nat.le_succ 1), fun hstart ↦ hstart⟩
  | stay => exact ⟨.of_le le_rfl rfl (Nat.zero_le 2), fun hstart ↦ hstart⟩
  | wait hduration hspan hlong hfits =>
    exact ⟨.of_le (Nat.le_add_right _ _) rfl (Nat.zero_le 2), fun _ ↦ hfits⟩
  | hover hduration hspan hlong hfits =>
    exact ⟨paid_hover rfl (Pointer.Line.stopTick_of_steps rfl), fun _ ↦ hfits⟩
  | drag hduration hspan hlong hfits =>
    refine ⟨?_, fun _ ↦ hfits⟩
    apply paid_drag
    · rfl
    · exact Pointer.Line.stopTick_of_steps rfl

/-! ### Runs -/

/-- What is booked for each item from a place on, and the tick at which it ends, up to the first item that
cannot be carried out. -/
def pointerRunFrom (locate : Locator) (s : Source) (p : Pointer) :
    Nat → PointerState → List Item → List (List Booking × Tick)
  | _, _, [] => []
  | place, state, item :: rest =>
    match s.pointerStep locate p place rest.head? state item with
    | .error _ => []
    | .ok (bookings, after) =>
      (bookings, after.tick) :: pointerRunFrom locate s p (place + 1) after rest

/-- What a pointer source books for each item, up to the first one that it cannot carry out. -/
def pointerRun (locate : Locator) (s : Source) (p : Pointer) : List (List Booking × Tick) :=
  s.pointerRunFrom locate p 0 { memo := PositionMemo.empty s } s.items

/-- The samples of all moves of a run. -/
def runSampleCount (run : List (List Booking × Tick)) : Nat :=
  (run.map fun booked ↦ sampleCount booked.2 booked.1).sum

theorem runSampleCount_cons (booked : List Booking × Tick) (rest : List (List Booking × Tick)) :
    runSampleCount (booked :: rest) = sampleCount booked.2 booked.1 + runSampleCount rest :=
  List.sum_cons

/-- A step of a run is an act, and without one the run ends. -/
theorem pointerRunFrom_cons (place : Nat) (state : PointerState) (item : Item) (rest : List Item) :
    s.pointerRunFrom locate p place state (item :: rest) = [] ∨
      ∃ bookings after, PointerAct locate s p place rest.head? state item bookings after ∧
        s.pointerRunFrom locate p place state (item :: rest) =
          (bookings, after.tick) :: s.pointerRunFrom locate p (place + 1) after rest := by
  rw [pointerRunFrom]
  cases hstep : s.pointerStep locate p place rest.head? state item with
  | error fault => exact .inl rfl
  | ok booked => exact .inr ⟨booked.1, booked.2, pointerStep_eq_ok.1 hstep, rfl⟩

/-- The samples of a run fit in the time that is left. -/
theorem runSampleCount_pointerRunFrom {place : Nat} {state : PointerState} {items : List Item}
    (hstart : state.tick ≤ longestTimeline) :
    state.tick + quantum * runSampleCount (s.pointerRunFrom locate p place state items) ≤
      longestTimeline := by
  induction items generalizing place state with
  | nil => exact hstart
  | cons item rest ih =>
    obtain hends | ⟨bookings, after, hact, hgoes⟩ := pointerRunFrom_cons place state item rest
    · rw [hends]
      exact hstart
    · obtain ⟨hpaid, hfits⟩ := hact.paid
      rw [hgoes, runSampleCount_cons, Nat.mul_add, ← Nat.add_assoc]
      exact (Nat.add_le_add_right hpaid.samples _).trans (ih (hfits hstart))

/-- A run books no more cues than its samples and two for each item. -/
theorem cueCount_pointerRunFrom (place : Nat) (state : PointerState) (items : List Item) :
    cueCount ((s.pointerRunFrom locate p place state items).flatMap Prod.fst) ≤
      runSampleCount (s.pointerRunFrom locate p place state items) + 2 * items.length := by
  induction items generalizing place state with
  | nil => exact Nat.zero_le _
  | cons item rest ih =>
    obtain hends | ⟨bookings, after, hact, hgoes⟩ := pointerRunFrom_cons place state item rest
    · rw [hends]
      exact Nat.zero_le _
    · have hlater := ih (place + 1) after
      have hcues := hact.paid.1.cues
      rw [hgoes, List.flatMap_cons, cueCount_append, runSampleCount_cons, List.length_cons]
      dsimp only
      omega

/-- A run that does not end in a fault books a track. -/
theorem flatMap_pointerRunFrom {place : Nat} {state : PointerState} {items : List Item}
    {track : List Booking} (htrack : s.pointerTrackFrom locate p place state items = .ok track) :
    (s.pointerRunFrom locate p place state items).flatMap Prod.fst = track := by
  induction items generalizing place state track with
  | nil =>
    cases htrack
    rfl
  | cons item rest ih =>
    obtain ⟨bookings, after, later, hact, hlater, rfl⟩ := pointerTrackFrom_cons_eq_ok.1 htrack
    rw [pointerRunFrom, pointerStep_eq_ok.2 hact]
    exact congrArg (bookings ++ ·) (ih hlater)

/-- The track of a pointer source is its run. -/
theorem flatMap_pointerRun {ordinal : Nat} {track : List Booking}
    (htrack : s.pointerTrack locate ordinal = .ok track) :
    (s.pointerRun locate { id := ordinal, tool := s.effectivePointerType.tool }).flatMap Prod.fst =
      track := by
  unfold pointerTrack at htrack
  dsimp only at htrack
  split_ifs at htrack with hmany
  exact flatMap_pointerRunFrom htrack

/-- Whatever its items, a pointer source books no more samples than the longest timeline has quanta. -/
theorem runSampleCount_pointerRun_le (locate : Locator) (s : Source) (p : Pointer) :
    runSampleCount (s.pointerRun locate p) ≤ longestTimeline / quantum := by
  have hstart : ({ memo := PositionMemo.empty s } : PointerState).tick ≤ longestTimeline :=
    Nat.zero_le _
  rw [Nat.le_div_iff_mul_le (by decide), Nat.mul_comm]
  exact (Nat.le_add_left _ _).trans (runSampleCount_pointerRunFrom hstart)

/-- A pointer source without a fault books no more cues than the longest timeline has quanta, and two for
each item. -/
theorem cueCount_pointerTrack_le {ordinal : Nat} {track : List Booking}
    (htrack : s.pointerTrack locate ordinal = .ok track) :
    cueCount track ≤ longestTimeline / quantum + 2 * s.items.length := by
  rw [← flatMap_pointerRun htrack]
  exact (cueCount_pointerRunFrom _ _ _).trans
    (Nat.add_le_add_right (runSampleCount_pointerRun_le locate s _) _)

/-- Assumes: a move that takes some time and would end past the longest timeline. Nothing is booked and no
position is looked up: whatever can be found, the fault is that of the time. -/
theorem moveStep_of_late {place : Nat} {next : Option Item} {state : PointerState}
    {move : PointerMove} {span : Int64} (hduration : move.duration = some span) (hspan : ¬span < 0)
    (hlong : quantum ≤ align span) (hlate : longestTimeline < state.tick + align span) :
    s.moveStep locate p place next state move =
      .error (.timelineTooLong s.id place .pointerMove) := by
  unfold moveStep
  rw [requiredDuration_eq_ok.2 ⟨hduration, hspan⟩]
  refine (if_neg (Nat.not_lt.2 hlong)).trans ?_
  rw [advance, if_neg (Nat.not_le.2 hlate)]
  rfl

/-! ### Sources without a pointer -/

/-- A key source books one cue for each item at most. -/
theorem cueCount_keyTrackFrom_le {place : Nat} {state : KeyboardState} {items : List Item}
    {track : List Booking} (htrack : s.keyTrackFrom place state items = .ok track) :
    cueCount track ≤ items.length := by
  induction items generalizing place state track with
  | nil =>
    cases htrack
    exact le_rfl
  | cons item rest ih =>
    obtain ⟨booking, after, later, -, hlater, rfl⟩ := keyTrackFrom_cons_eq_ok.1 htrack
    have hrest := ih hlater
    rw [cueCount, List.countP_cons, List.length_cons]
    exact Nat.add_le_add hrest (by split_ifs <;> decide)

/-- A source without input books no cue. -/
theorem cueCount_restTrack {track : List Booking} (htrack : s.restTrack = .ok track) :
    cueCount track = 0 := by
  refine List.countP_eq_zero.2 fun booking hbooking ↦ ?_
  rw [cue_restTrack htrack booking hbooking]
  exact Bool.false_ne_true

end Source

end ActionReplay
