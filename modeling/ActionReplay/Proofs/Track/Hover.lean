import ActionReplay.Proofs.Hover.Brackets
import ActionReplay.Proofs.Timeline.Booking
import ActionReplay.Proofs.Track.Clock

/-!
# The hovers of a track

The bookings of a pointer source are in tick order, and its hovers follow one another: a hover books
an enter and a move at its first tick, moves at some later ticks, and then an exit, while everything
between hovers touches or rests (`Booking.Hovers`, `Source.hovers_pointerTrack`). At every tick the
source therefore takes one of a few turns (`Booking.Hovers.turn`).
-/

set_option autoImplicit false
set_option relaxedAutoImplicit false

namespace ActionReplay

/-- What a cue of a pointer has to do with hovering. -/
def CueAction.mark : CueAction → HoverMark
  | .hoverEnter => .enter
  | .hoverMove => .move
  | .hoverExit => .exit
  | _ => .touch

namespace Booking

/-- What the motion of a booking has to do with hovering. -/
def mark? (booking : Booking) : Option HoverMark :=
  booking.motion?.map fun cue ↦ cue.action.mark

/-- The marks of the motions that bookings put at a tick. -/
def marksAt (bookings : List Booking) (tick : Tick) : List HoverMark :=
  ((cuesAt bookings tick).filterMap Cue.motion?).map fun cue ↦ cue.action.mark

/-! ### Hovers one after another -/

/-- Bookings in tick order from a tick on, which start inside or outside of a hover and end outside:
a hover enters and moves at one tick, each of its other moves and its exit is at a later tick than
what comes before, and nothing else comes before its exit. -/
inductive Hovers : Bool → Tick → List Booking → Prop
  | done (tick : Tick) : Hovers false tick []
  | touch {tick : Tick} {booking : Booking} {rest : List Booking} (hle : tick ≤ booking.tick)
      (htouch : ∀ mark, booking.mark? = some mark → mark = .touch)
      (hrest : Hovers false booking.tick rest) : Hovers false tick (booking :: rest)
  | enter {tick : Tick} {first second : Booking} {rest : List Booking} (hle : tick ≤ first.tick)
      (hsame : second.tick = first.tick) (henter : first.mark? = some .enter)
      (hmove : second.mark? = some .move) (hrest : Hovers true (first.tick + 1) rest) :
      Hovers false tick (first :: second :: rest)
  | move {tick : Tick} {booking : Booking} {rest : List Booking} (hle : tick ≤ booking.tick)
      (hmove : booking.mark? = some .move) (hrest : Hovers true (booking.tick + 1) rest) :
      Hovers true tick (booking :: rest)
  | exit {tick : Tick} {booking : Booking} {rest : List Booking} (hle : tick ≤ booking.tick)
      (hexit : booking.mark? = some .exit) (hrest : Hovers false booking.tick rest) :
      Hovers true tick (booking :: rest)

variable {hovering : Bool} {tick : Tick} {booking : Booking} {bookings rest : List Booking}

theorem Hovers.mono {earlier : Tick} (hhovers : Hovers hovering tick bookings)
    (hle : earlier ≤ tick) : Hovers hovering earlier bookings := by
  cases hhovers with
  | done => exact .done earlier
  | touch htick htouch hrest => exact .touch (hle.trans htick) htouch hrest
  | enter htick hsame henter hmove hrest =>
    exact .enter (hle.trans htick) hsame henter hmove hrest
  | move htick hmove hrest => exact .move (hle.trans htick) hmove hrest
  | exit htick hexit hrest => exact .exit (hle.trans htick) hexit hrest

theorem Hovers.tick_le (hhovers : Hovers hovering tick bookings) :
    ∀ booking ∈ bookings, tick ≤ booking.tick := by
  induction hhovers with
  | done => exact List.forall_mem_nil _
  | touch hle _ _ ih =>
    exact List.forall_mem_cons.2 ⟨hle, fun other hother ↦ hle.trans (ih other hother)⟩
  | enter hle hsame _ _ _ ih =>
    refine List.forall_mem_cons.2 ⟨hle, List.forall_mem_cons.2 ⟨hsame ▸ hle, ?_⟩⟩
    exact fun other hother ↦ (hle.trans (Nat.le_succ _)).trans (ih other hother)
  | move hle _ _ ih =>
    refine List.forall_mem_cons.2 ⟨hle, ?_⟩
    exact fun other hother ↦ (hle.trans (Nat.le_succ _)).trans (ih other hother)
  | exit hle _ _ ih =>
    exact List.forall_mem_cons.2 ⟨hle, fun other hother ↦ hle.trans (ih other hother)⟩

/-- A booking that only comes inside of a hover. -/
def goesOn (booking : Booking) : Bool :=
  booking.mark? = some .move || booking.mark? = some .exit

theorem Hovers.eq_any_goesOn (hhovers : Hovers hovering tick bookings) :
    hovering = bookings.head?.any goesOn := by
  cases hhovers with
  | done => rfl
  | @touch _ booking _ _ htouch _ =>
    have hmove : booking.mark? ≠ some .move := fun hmark ↦ HoverMark.noConfusion (htouch _ hmark)
    have hexit : booking.mark? ≠ some .exit := fun hmark ↦ HoverMark.noConfusion (htouch _ hmark)
    simp [goesOn, hmove, hexit]
  | enter _ _ henter _ _ => simp [goesOn, henter]
  | move _ hmove _ => simp [goesOn, hmove]
  | exit _ hexit _ => simp [goesOn, hexit]

/-! ### Tick by tick -/

/-- Bookings that start outside of a hover: those at the first tick are touches, and perhaps the
start of a hover. -/
theorem Hovers.exists_approach (hhovers : Hovers false tick bookings) :
    ∃ here later touches after, bookings = here ++ later ∧ (∀ booking ∈ here, booking.tick = tick) ∧
      here.filterMap mark? = HoverMark.approach touches after ∧ Hovers after (tick + 1) later := by
  induction bookings with
  | nil => exact ⟨[], [], 0, false, rfl, List.forall_mem_nil _, rfl, .done _⟩
  | cons booking rest ih =>
    rcases Nat.eq_or_lt_of_le (hhovers.tick_le booking List.mem_cons_self) with hhere | hlater
    · cases hhovers with
      | touch _ htouch hrest =>
        rw [← hhere] at hrest
        obtain ⟨here, later, touches, after, rfl, hticks, hmarks, hhovers⟩ := ih hrest
        have hall : ∀ other ∈ booking :: here, other.tick = tick :=
          List.forall_mem_cons.2 ⟨hhere.symm, hticks⟩
        cases hmark : booking.mark? with
        | none =>
          refine ⟨booking :: here, later, touches, after, rfl, hall, ?_, hhovers⟩
          rw [List.filterMap_cons_none hmark, hmarks]
        | some mark =>
          obtain rfl := htouch mark hmark
          refine ⟨booking :: here, later, touches + 1, after, rfl, hall, ?_, hhovers⟩
          rw [List.filterMap_cons_some hmark, hmarks, HoverMark.approach_succ]
      | @enter _ _ second rest _ hsame henter hmove hrest =>
        refine ⟨[booking, second], rest, 0, true, rfl, ?_, ?_, hhere ▸ hrest⟩
        · exact List.forall_mem_cons.2 ⟨hhere.symm,
            List.forall_mem_singleton.2 (hsame.trans hhere.symm)⟩
        · rw [List.filterMap_cons_some henter, List.filterMap_cons_some hmove]
          rfl
    · refine ⟨[], booking :: rest, 0, false, rfl, List.forall_mem_nil _, rfl, ?_⟩
      cases hhovers with
      | touch _ htouch hrest => exact .touch hlater htouch hrest
      | enter _ hsame henter hmove hrest => exact .enter hlater hsame henter hmove hrest

/-- The bookings at the first tick make a turn. -/
theorem Hovers.exists_turn (hhovers : Hovers hovering tick bookings) :
    ∃ here later after, bookings = here ++ later ∧ (∀ booking ∈ here, booking.tick = tick) ∧
      HoverMark.Turn hovering (here.filterMap mark?) after ∧ Hovers after (tick + 1) later := by
  cases hovering with
  | false =>
    obtain ⟨here, later, touches, after, hsplit, hticks, hmarks, hlater⟩ := hhovers.exists_approach
    exact ⟨here, later, after, hsplit, hticks, hmarks ▸ .start touches after, hlater⟩
  | true =>
    have hfirst := hhovers.tick_le
    cases hhovers with
    | @move _ booking rest hle hmove hrest =>
      rcases Nat.eq_or_lt_of_le hle with rfl | hlater
      · refine ⟨[booking], rest, true, rfl, List.forall_mem_singleton.2 rfl, ?_, hrest⟩
        rw [List.filterMap_cons_some hmove]
        exact .glide
      · exact ⟨[], booking :: rest, true, rfl, List.forall_mem_nil _, .wait,
          .move hlater hmove hrest⟩
    | @exit _ booking rest hle hexit hrest =>
      rcases Nat.eq_or_lt_of_le hle with rfl | hlater
      · obtain ⟨here, later, touches, after, rfl, hticks, hmarks, hhovers⟩ :=
          hrest.exists_approach
        refine ⟨booking :: here, later, after, rfl, List.forall_mem_cons.2 ⟨rfl, hticks⟩, ?_,
          hhovers⟩
        rw [List.filterMap_cons_some hexit, hmarks]
        exact .leave touches after
      · exact ⟨[], booking :: rest, true, rfl, List.forall_mem_nil _, .wait,
          .exit hlater hexit hrest⟩

/-- The bookings at a tick or later. -/
def since (bookings : List Booking) (tick : Tick) : List Booking :=
  bookings.filter fun booking ↦ tick ≤ booking.tick

/-- Whether bookings are inside of a hover before a tick. -/
def hoversBefore (bookings : List Booking) (tick : Tick) : Bool :=
  (since bookings tick).head?.any goesOn

theorem marksAt_eq (bookings : List Booking) (tick : Tick) :
    marksAt bookings tick =
      (bookings.filter fun booking ↦ booking.tick = tick).filterMap mark? := by
  unfold marksAt cuesAt
  rw [List.filterMap_filterMap, List.map_filterMap, List.filterMap_filter]
  apply List.filterMap_congr
  intro booking _
  unfold cueAt? mark? motion?
  by_cases htick : booking.tick = tick
  · simp [htick]
  · simp [htick]

/-- Bookings from a tick on that are some at the tick and later ones. -/
theorem since_succ {here later : List Booking} (hsplit : since bookings tick = here ++ later)
    (hhere : ∀ booking ∈ here, booking.tick = tick)
    (hlater : ∀ booking ∈ later, tick + 1 ≤ booking.tick) :
    since bookings (tick + 1) = later ∧
      bookings.filter (fun booking ↦ booking.tick = tick) = here := by
  have hnext : since bookings (tick + 1) = since (since bookings tick) (tick + 1) := by
    unfold since
    rw [List.filter_filter]
    apply List.filter_congr
    intro booking _
    rw [← Bool.decide_and, decide_eq_decide, and_iff_left_of_imp]
    exact (Nat.le_succ tick).trans
  have hnow : bookings.filter (fun booking ↦ booking.tick = tick) =
      (since bookings tick).filter fun booking ↦ booking.tick = tick := by
    unfold since
    rw [List.filter_filter]
    apply List.filter_congr
    intro booking _
    rw [← Bool.decide_and, decide_eq_decide, and_iff_left_of_imp]
    exact fun hsame ↦ hsame.ge
  have hkept : (here.filter fun booking ↦ tick + 1 ≤ booking.tick) = [] :=
    List.filter_eq_nil_iff.2 fun booking hbooking ↦ by simp [hhere booking hbooking]
  have hpassed : (later.filter fun booking ↦ booking.tick = tick) = [] :=
    List.filter_eq_nil_iff.2 fun booking hbooking ↦ by
      simpa using (Nat.ne_of_lt (hlater booking hbooking)).symm
  rw [hnext, hnow, hsplit, since, List.filter_append, List.filter_append, hkept, hpassed,
    List.nil_append, List.append_nil]
  constructor
  · exact List.filter_eq_self.2 fun booking hbooking ↦ decide_eq_true (hlater booking hbooking)
  · exact List.filter_eq_self.2 fun booking hbooking ↦ decide_eq_true (hhere booking hbooking)

/-- At a tick bookings make a turn, and go on from there. -/
theorem Hovers.step (hhovers : Hovers hovering tick (since bookings tick)) :
    ∃ after, HoverMark.Turn hovering (marksAt bookings tick) after ∧
      Hovers after (tick + 1) (since bookings (tick + 1)) := by
  obtain ⟨here, later, after, hsplit, hhere, hturn, hlater⟩ := hhovers.exists_turn
  obtain ⟨hnext, hnow⟩ := since_succ hsplit hhere hlater.tick_le
  rw [hnext, marksAt_eq, hnow]
  exact ⟨after, hturn, hlater⟩

theorem Hovers.hovers_since (hhovers : Hovers false 0 bookings) (tick : Tick) :
    Hovers (hoversBefore bookings tick) tick (since bookings tick) := by
  induction tick with
  | zero =>
    have hall : since bookings 0 = bookings :=
      List.filter_eq_self.2 fun booking _ ↦ decide_eq_true (Nat.zero_le _)
    rw [hoversBefore, hall, ← hhovers.eq_any_goesOn]
    exact hhovers
  | succ tick ih =>
    obtain ⟨after, -, hlater⟩ := ih.step
    rw [hoversBefore, ← hlater.eq_any_goesOn]
    exact hlater

/-- Assumes: bookings that start outside of a hover. At every tick they make a turn. -/
theorem Hovers.turn (hhovers : Hovers false 0 bookings) (tick : Tick) :
    HoverMark.Turn (hoversBefore bookings tick) (marksAt bookings tick)
      (hoversBefore bookings (tick + 1)) := by
  obtain ⟨after, hturn, hlater⟩ := (hhovers.hovers_since tick).step
  rw [hoversBefore, hoversBefore, ← hlater.eq_any_goesOn]
  exact hturn

theorem Hovers.hoversBefore_zero (hhovers : Hovers false 0 bookings) :
    hoversBefore bookings 0 = false := by
  have hall : since bookings 0 = bookings :=
    List.filter_eq_self.2 fun booking _ ↦ decide_eq_true (Nat.zero_le _)
  rw [hoversBefore, hall, ← hhovers.eq_any_goesOn]

/-- Past the last booking no hover is left open. -/
theorem hoversBefore_eq_false (hlast : ∀ booking ∈ bookings, booking.tick < tick) :
    hoversBefore bookings tick = false := by
  have hnone : since bookings tick = [] :=
    List.filter_eq_nil_iff.2 fun booking hbooking ↦ by simpa using hlast booking hbooking
  rw [hoversBefore, hnone]
  rfl

end Booking

/-! ### Acts -/

variable {locate : Locator} {s : Source} {p : Pointer}

namespace Pointer

variable {line : Line} {entry tick : Tick} {button : UInt32} {later : List Booking}

namespace Line

theorem tickAt_lt_succ (line : Line) (step : Nat) : line.tickAt step < line.tickAt (step + 1) :=
  Nat.add_lt_add_left (Nat.mul_lt_mul_of_pos_right (Nat.lt_succ_self step) (by decide)) line.tick

end Line

/-- The booking of one sample of a line. -/
def sample (p : Pointer) (line : Line) (entry : Tick) (action : CueAction) (button : UInt32)
    (step : Nat) : Booking :=
  .motion (line.tickAt step) (p.cue entry action (line.positionAt step) button)

/-- The moves of a hover from a step on, and its exit. -/
theorem hovers_samples {first count : Nat} {exit : Booking}
    (hstop : exit.tick = line.tickAt (first + count)) (hexit : exit.mark? = some .exit)
    (hlater : Booking.Hovers false exit.tick later) (hle : tick ≤ line.tickAt first) :
    Booking.Hovers true tick
      ((List.range' first count).map (p.sample line entry .hoverMove button) ++ exit :: later) := by
  induction count generalizing first tick with
  | zero => exact .exit (hle.trans hstop.ge) hexit hlater
  | succ count ih =>
    rw [List.range'_succ, List.map_cons, List.cons_append]
    refine .move hle rfl (ih ?_ (line.tickAt_lt_succ first))
    rw [hstop, Nat.add_right_comm, Nat.add_assoc]

/-- The moves of a drag from a step on. -/
theorem touches_samples {first count : Nat}
    (hlater : Booking.Hovers false (line.tickAt (first + count)) later)
    (hle : tick ≤ line.tickAt first) :
    Booking.Hovers false tick
      ((List.range' first count).map (p.sample line entry .move button) ++ later) := by
  induction count generalizing first tick with
  | zero => exact hlater.mono hle
  | succ count ih =>
    rw [List.range'_succ, List.map_cons, List.cons_append]
    refine .touch hle ?_ (ih ?_ (line.tickAt_lt_succ first).le)
    · rintro mark ⟨⟩
      rfl
    · rwa [Nat.add_right_comm, Nat.add_assoc]

theorem samples_eq (p : Pointer) (line : Line) (entry : Tick) (action : CueAction)
    (button : UInt32) : p.samples line entry action button =
      (List.range' 0 line.steps).map (p.sample line entry action button) := by
  rw [← List.range_eq_range']
  rfl

theorem hovers_hover {start : Tick} (hstart : line.tick = start) (hstop : line.stopTick = tick)
    (hlater : Booking.Hovers false tick later) :
    Booking.Hovers false start (p.hover line ++ later) := by
  subst hstart hstop
  unfold hover
  split_ifs with hshort
  · exact .touch (line.tick_le_tickAt _) (fun mark hmark ↦ by cases hmark) hlater
  · have hmany : line.steps ≠ 0 := fun hzero ↦ hshort (hzero ▸ Nat.zero_lt_two)
    obtain ⟨count, hsteps⟩ := Nat.exists_eq_succ_of_ne_zero hmany
    rw [samples_eq, hsteps, List.range'_succ]
    simp only [List.map_cons, List.cons_append, List.nil_append, List.append_assoc]
    refine .enter le_rfl ?_ rfl rfl (hovers_samples ?_ rfl hlater ?_)
    · exact Nat.add_zero _
    · rw [Nat.zero_add, Nat.add_comm, Line.stopTick, hsteps]
      rfl
    · exact line.tickAt_lt_succ 0

theorem hovers_drag {start : Tick} (hstart : line.tick = start) (hstop : line.stopTick = tick)
    (closing : Bool) (hlater : Booking.Hovers false tick later) :
    Booking.Hovers false start (p.drag line entry button closing ++ later) := by
  subst hstart hstop
  rw [drag, samples_eq, List.append_assoc]
  refine touches_samples ?_ le_rfl
  rw [Nat.zero_add]
  cases closing with
  | true =>
    refine .touch le_rfl ?_ hlater
    rintro mark ⟨⟩
    rfl
  | false => exact hlater

end Pointer

namespace Source

/-- What an act books fits before what may come after it. -/
theorem PointerAct.hovers {place : Nat} {next : Option Item} {state after : PointerState}
    {item : Item} {bookings later : List Booking}
    (hact : PointerAct locate s p place next state item bookings after)
    (hlater : Booking.Hovers false after.tick later) :
    Booking.Hovers false state.tick (bookings ++ later) := by
  have hnone : ∀ (tick : Tick) mark, (Booking.rest tick).mark? = some mark → mark = .touch :=
    fun tick mark hmark ↦ by cases hmark
  cases hact with
  | pause => exact .touch (Nat.le_add_right _ _) (hnone _) hlater
  | press =>
    refine .touch le_rfl ?_ hlater
    rintro mark ⟨⟩
    rfl
  | lift =>
    refine .touch le_rfl ?_ hlater
    rintro mark ⟨⟩
    rfl
  | stay => exact hlater
  | wait => exact .touch (Nat.le_add_right _ _) (hnone _) hlater
  | hover => exact Pointer.hovers_hover rfl (Pointer.Line.stopTick_of_steps rfl) hlater
  | @drag _ span _ start stop =>
    have hstop : Pointer.Line.stopTick ⟨state.tick, start, stop, align span / quantum⟩ =
        state.tick + align span := Pointer.Line.stopTick_of_steps rfl
    exact Pointer.hovers_drag rfl hstop _ hlater

theorem hovers_pointerTrackFrom {place : Nat} {state : PointerState} {items : List Item}
    {track : List Booking} (htrack : s.pointerTrackFrom locate p place state items = .ok track) :
    Booking.Hovers false state.tick track := by
  induction items generalizing place state track with
  | nil =>
    cases htrack
    exact .done _
  | cons item rest ih =>
    obtain ⟨bookings, after, later, hact, hlater, rfl⟩ := pointerTrackFrom_cons_eq_ok.1 htrack
    exact hact.hovers (ih hlater)

/-- The hovers of a pointer source follow one another. -/
theorem hovers_pointerTrack {track : List Booking} (htrack : s.pointerTrack locate 0 = .ok track) :
    Booking.Hovers false 0 track :=
  hovers_pointerTrackFrom (pointerTrackFrom_of_pointerTrack htrack)

end Source

end ActionReplay
