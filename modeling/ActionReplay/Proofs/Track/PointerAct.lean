import ActionReplay.Proofs.Success
import ActionReplay.Track.Pointer

/-!
# What a pointer source can do with an item

`PointerAct` lists the ways in which a pointer source can carry out one item, each with its guards,
the bookings it makes and the state it leaves behind: a pause, a press, a lift, and five kinds of
move. A step of a pointer source succeeds exactly when it is one of them (`pointerStep_eq_ok`), and
a track is made of one act for each item (`pointerTrackFrom_cons_eq_ok`). Whatever is shown of every
act therefore holds of every track (`forall_mem_pointerTrackFrom`), and no later proof opens the steps
themselves.

The id of a pointer does not influence what its source can do. Under another id the same items make
the same bookings, with the other id on every cue (`pointerTrack_eq_ok`).
-/

set_option autoImplicit false
set_option relaxedAutoImplicit false

namespace ActionReplay

variable {locate : Locator} {s : Source} {p : Pointer}

namespace Source

/-! ### Time -/

theorem requiredDuration_eq_ok {place : Nat} {type : ItemType} {duration : Option Int64}
    {span : Int64} :
    s.requiredDuration place type duration = .ok span ↔ duration = some span ∧ ¬span < 0 := by
  cases duration with
  | none => simp [requiredDuration]
  | some given =>
    simp only [requiredDuration, Option.some.injEq]
    split_ifs with hnegative
    · constructor
      · intro h
        cases h
      · rintro ⟨rfl, h⟩
        exact absurd hnegative h
    · constructor
      · intro h
        cases h
        exact ⟨rfl, hnegative⟩
      · rintro ⟨rfl, -⟩
        rfl

theorem advance_eq_ok {place : Nat} {type : ItemType} {tick : Tick} {duration : Nat}
    {reached : Tick} :
    s.advance place type tick duration = .ok reached ↔
      tick + duration ≤ longestTimeline ∧ reached = tick + duration := by
  unfold advance
  split_ifs with hfits
  · simp [hfits, eq_comm]
  · simp [hfits]

theorem pauseEnd_eq_ok {place : Nat} {tick : Tick} {duration : Option Int64} {reached : Tick} :
    s.pauseEnd place tick duration = .ok reached ↔
      ∃ span, duration = some span ∧ ¬span < 0 ∧ tick + align span ≤ longestTimeline ∧
        reached = tick + align span := by
  simp only [pauseEnd, bind_eq_ok, requiredDuration_eq_ok, advance_eq_ok, and_assoc]

/-! ### Acts -/

/-- The ways in which a pointer source can carry out the item at a place: the bookings made and the
state left behind. -/
inductive PointerAct (locate : Locator) (s : Source) (p : Pointer) (place : Nat)
    (next : Option Item) (state : PointerState) : Item → List Booking → PointerState → Prop
  | pause {span : Int64} (hspan : ¬span < 0)
      (hfits : state.tick + align span ≤ longestTimeline) :
      PointerAct locate s p place next state (.pause (some span))
        [.rest (state.tick + align span)] { state with tick := state.tick + align span }
  | press {button : Option Int64} {position : Position} {memo : PositionMemo}
      (hup : state.isDown = false) (hfresh : state.lastDown ≠ some state.tick)
      (hposition : state.memo.resolve locate s place = (.ok position, memo)) :
      PointerAct locate s p place next state (.pointerDown button)
        [.motion state.tick (p.cue state.tick .down position (Button.flags p.tool button))]
        { state with
          entry := state.tick
          isDown := true
          button := Button.flags p.tool button
          lastDown := some state.tick
          memo }
  | lift {button : Option Int64} {position : Position} {memo : PositionMemo}
      (hdown : state.isDown = true) (hfresh : state.lastUp ≠ some state.tick)
      (hposition : state.memo.resolve locate s place = (.ok position, memo)) :
      PointerAct locate s p place next state (.pointerUp button)
        [.motion state.tick (p.cue state.entry .up position (Button.flags p.tool button))]
        { state with
          entry := state.tick
          isDown := false
          button := 0
          lastUp := some state.tick
          memo }
  /-- A move that takes no time. -/
  | stay {move : PointerMove} {span : Int64} (hduration : move.duration = some span)
      (hspan : ¬span < 0) (hshort : align span < quantum) :
      PointerAct locate s p place next state (.pointerMove move) [] state
  /-- A move of the first item, which has nothing to start from. -/
  | wait {move : PointerMove} {span : Int64} (hduration : move.duration = some span)
      (hspan : ¬span < 0) (hlong : quantum ≤ align span)
      (hfits : state.tick + align span ≤ longestTimeline) (hfirst : place = 0) :
      PointerAct locate s p place next state (.pointerMove move)
        [.rest (state.tick + align span)] { state with tick := state.tick + align span }
  | hover {move : PointerMove} {span : Int64} {before : Nat} {start stop : Position}
      {memo later : PositionMemo} (hduration : move.duration = some span)
      (hspan : ¬span < 0) (hlong : quantum ≤ align span)
      (hfits : state.tick + align span ≤ longestTimeline) (hplace : place = before + 1)
      (hstart : state.memo.resolve locate s before = (.ok start, memo))
      (hstop : memo.resolve locate s place = (.ok stop, later))
      (hup : state.isDown = false) (hmouse : p.tool = .mouse) :
      PointerAct locate s p place next state (.pointerMove move)
        (p.hover { tick := state.tick, start, stop, steps := align span / quantum })
        { state with tick := state.tick + align span, memo := later }
  | drag {move : PointerMove} {span : Int64} {before : Nat} {start stop : Position}
      {memo later : PositionMemo} (hduration : move.duration = some span)
      (hspan : ¬span < 0) (hlong : quantum ≤ align span)
      (hfits : state.tick + align span ≤ longestTimeline) (hplace : place = before + 1)
      (hstart : state.memo.resolve locate s before = (.ok start, memo))
      (hstop : memo.resolve locate s place = (.ok stop, later))
      (htouch : state.isDown = true ∨ p.tool ≠ .mouse) :
      PointerAct locate s p place next state (.pointerMove move)
        (p.drag { tick := state.tick, start, stop, steps := align span / quantum } state.entry
          state.button !(next.any Item.showsPosition))
        { state with tick := state.tick + align span, memo := later }

/-! ### Steps -/

theorem pressStep_eq_ok {place : Nat} {next : Option Item} {state after : PointerState}
    {button : Option Int64} {bookings : List Booking} :
    s.pressStep locate p place state button = .ok (bookings, after) ↔
      PointerAct locate s p place next state (.pointerDown button) bookings after := by
  unfold pressStep
  constructor
  · intro h
    split_ifs at h with hbusy
    obtain ⟨hup, hfresh⟩ : state.isDown = false ∧ state.lastDown ≠ some state.tick := by
      simpa using hbusy
    obtain ⟨position, hposition, h⟩ := bind_eq_ok.1 h
    cases h
    exact .press hup hfresh (Prod.ext hposition rfl)
  · rintro (_ | ⟨hup, hfresh, hposition⟩)
    rw [if_neg (by simp [hup, hfresh]), hposition]
    rfl

theorem liftStep_eq_ok {place : Nat} {next : Option Item} {state after : PointerState}
    {button : Option Int64} {bookings : List Booking} :
    s.liftStep locate p place state button = .ok (bookings, after) ↔
      PointerAct locate s p place next state (.pointerUp button) bookings after := by
  unfold liftStep
  constructor
  · intro h
    split_ifs at h with hup hbusy
    obtain ⟨position, hposition, h⟩ := bind_eq_ok.1 h
    cases h
    exact .lift (by simpa using hup) hbusy (Prod.ext hposition rfl)
  · rintro (_ | _ | ⟨hdown, hfresh, hposition⟩)
    rw [if_neg (by simp [hdown]), if_neg hfresh, hposition]
    rfl

theorem PointerAct.of_moveStep {place : Nat} {next : Option Item} {state after : PointerState}
    {move : PointerMove} {bookings : List Booking}
    (h : s.moveStep locate p place next state move = .ok (bookings, after)) :
    PointerAct locate s p place next state (.pointerMove move) bookings after := by
  unfold moveStep at h
  obtain ⟨span, hrequired, h⟩ := bind_eq_ok.1 h
  obtain ⟨hduration, hspan⟩ := requiredDuration_eq_ok.1 hrequired
  dsimp only at h
  by_cases hshort : align span < quantum
  · rw [if_pos hshort] at h
    cases h
    exact .stay hduration hspan hshort
  rw [if_neg hshort] at h
  obtain ⟨tick, htick, h⟩ := bind_eq_ok.1 h
  obtain ⟨hfits, rfl⟩ := advance_eq_ok.1 htick
  cases place with
  | zero =>
    cases h
    exact .wait hduration hspan (Nat.le_of_not_lt hshort) hfits rfl
  | succ before =>
    obtain ⟨start, hstart, h⟩ := bind_eq_ok.1 h
    obtain ⟨stop, hstop, h⟩ := bind_eq_ok.1 h
    cases h
    have hlong := Nat.le_of_not_lt hshort
    split_ifs with hhover
    · obtain ⟨hup, hmouse⟩ : state.isDown = false ∧ p.tool = .mouse := by simpa using hhover
      exact .hover hduration hspan hlong hfits rfl (Prod.ext hstart rfl) (Prod.ext hstop rfl)
        hup hmouse
    · have htouch : state.isDown = true ∨ p.tool ≠ .mouse := by
        cases hdown : state.isDown with
        | true => exact .inl rfl
        | false => exact .inr fun hmouse ↦ hhover (by simp [hdown, hmouse])
      exact .drag hduration hspan hlong hfits rfl (Prod.ext hstart rfl) (Prod.ext hstop rfl)
        htouch

theorem PointerAct.moveStep {place : Nat} {next : Option Item} {state after : PointerState}
    {move : PointerMove} {bookings : List Booking}
    (hact : PointerAct locate s p place next state (.pointerMove move) bookings after) :
    s.moveStep locate p place next state move = .ok (bookings, after) := by
  unfold Source.moveStep
  cases hact with
  | stay hduration hspan hshort =>
    rw [requiredDuration_eq_ok.2 ⟨hduration, hspan⟩]
    exact if_pos hshort
  | wait hduration hspan hlong hfits hfirst =>
    subst hfirst
    rw [requiredDuration_eq_ok.2 ⟨hduration, hspan⟩]
    refine (if_neg (Nat.not_lt.2 hlong)).trans ?_
    rw [advance_eq_ok.2 ⟨hfits, rfl⟩]
    rfl
  | hover hduration hspan hlong hfits hplace hstart hstop hup hmouse =>
    subst hplace
    rw [requiredDuration_eq_ok.2 ⟨hduration, hspan⟩]
    refine (if_neg (Nat.not_lt.2 hlong)).trans ?_
    rw [advance_eq_ok.2 ⟨hfits, rfl⟩]
    simp only [hstart, hstop, hup, hmouse]
    rfl
  | drag hduration hspan hlong hfits hplace hstart hstop htouch =>
    subst hplace
    have hdrag : (!state.isDown && decide (p.tool = .mouse)) = false := by
      rcases htouch with hdown | htool
      · simp [hdown]
      · simp [htool]
    rw [requiredDuration_eq_ok.2 ⟨hduration, hspan⟩]
    refine (if_neg (Nat.not_lt.2 hlong)).trans ?_
    rw [advance_eq_ok.2 ⟨hfits, rfl⟩]
    simp only [hstart, hstop, hdrag]
    rfl

theorem moveStep_eq_ok {place : Nat} {next : Option Item} {state after : PointerState}
    {move : PointerMove} {bookings : List Booking} :
    s.moveStep locate p place next state move = .ok (bookings, after) ↔
      PointerAct locate s p place next state (.pointerMove move) bookings after :=
  ⟨.of_moveStep, fun hact ↦ hact.moveStep⟩

/-- A step of a pointer source succeeds exactly when it is one of the acts. -/
theorem pointerStep_eq_ok {place : Nat} {next : Option Item} {state after : PointerState}
    {item : Item} {bookings : List Booking} :
    s.pointerStep locate p place next state item = .ok (bookings, after) ↔
      PointerAct locate s p place next state item bookings after := by
  cases item with
  | pause duration =>
    simp only [pointerStep]
    constructor
    · intro h
      obtain ⟨tick, htick, h⟩ := bind_eq_ok.1 h
      obtain ⟨span, rfl, hspan, hfits, rfl⟩ := pauseEnd_eq_ok.1 htick
      cases h
      exact .pause hspan hfits
    · rintro ⟨hspan, hfits⟩
      rw [pauseEnd_eq_ok.2 ⟨_, rfl, hspan, hfits, rfl⟩]
      rfl
  | pointerDown button => exact pressStep_eq_ok
  | pointerUp button => exact liftStep_eq_ok
  | pointerMove move => exact moveStep_eq_ok
  | pointerCancel =>
    constructor
    · intro h
      cases h
    · rintro ⟨⟩
  | keyDown value =>
    constructor
    · intro h
      cases h
    · rintro ⟨⟩
  | keyUp value =>
    constructor
    · intro h
      cases h
    · rintro ⟨⟩

/-- A track from an item on is one act with the item and a track from the next item on. -/
theorem pointerTrackFrom_cons_eq_ok {place : Nat} {state : PointerState} {item : Item}
    {rest : List Item} {track : List Booking} :
    s.pointerTrackFrom locate p place state (item :: rest) = .ok track ↔
      ∃ bookings after later,
        PointerAct locate s p place rest.head? state item bookings after ∧
          s.pointerTrackFrom locate p (place + 1) after rest = .ok later ∧
            track = bookings ++ later := by
  rw [pointerTrackFrom, bind_eq_ok]
  constructor
  · rintro ⟨⟨bookings, after⟩, hstep, h⟩
    obtain ⟨later, hlater, h⟩ := bind_eq_ok.1 h
    cases h
    exact ⟨bookings, after, later, pointerStep_eq_ok.1 hstep, hlater, rfl⟩
  · rintro ⟨bookings, after, later, hact, hlater, rfl⟩
    refine ⟨(bookings, after), pointerStep_eq_ok.2 hact, bind_eq_ok.2 ⟨later, hlater, rfl⟩⟩

/-- Assumes: acts from a state with `K` leave one with `K`, and what they book has `P`. From such a state
on, all bookings of a track have `P`. -/
theorem forall_mem_pointerTrackFrom {K : PointerState → Prop} {P : Booking → Prop}
    (hacts : ∀ {place next state item bookings after},
      PointerAct locate s p place next state item bookings after → K state →
        (∀ booking ∈ bookings, P booking) ∧ K after)
    {place : Nat} {state : PointerState} {items : List Item} {track : List Booking}
    (htrack : s.pointerTrackFrom locate p place state items = .ok track) (hstate : K state) :
    ∀ booking ∈ track, P booking := by
  refine forall_mem_walk (s.pointerTrackFrom locate p) (fun _ _ ↦ rfl) (fun hwalk hstate ↦ ?_) htrack
    hstate
  obtain ⟨bookings, after, later, hact, hlater, rfl⟩ := pointerTrackFrom_cons_eq_ok.1 hwalk
  obtain ⟨hbookings, hafter⟩ := hacts hact hstate
  exact ⟨bookings, after, later, hbookings, hafter, hlater, rfl⟩

end Source

/-! ### Another id -/

/-- A cue as the pointer with an id gives it. -/
def Cue.withPointer (id : Nat) : Cue → Cue
  | .motion cue => .motion { cue with pointer := id }
  | .key cue => .key cue

/-- A booking as the pointer with an id makes it. -/
def Booking.withPointer (id : Nat) (booking : Booking) : Booking :=
  { booking with cue := booking.cue.map (Cue.withPointer id) }

namespace Pointer

theorem samples_withPointer (id : Nat) (line : Line) (entry : Tick) (action : CueAction)
    (button : UInt32) :
    (p.samples line entry action button).map (Booking.withPointer id) =
      ({ p with id } : Pointer).samples line entry action button := by
  unfold samples
  rw [List.map_map]
  rfl

theorem hover_withPointer (id : Nat) (line : Line) :
    (p.hover line).map (Booking.withPointer id) = ({ p with id } : Pointer).hover line := by
  unfold hover
  split_ifs with hshort
  · rfl
  · rw [List.map_append, List.map_append, samples_withPointer]
    rfl

theorem drag_withPointer (id : Nat) (line : Line) (entry : Tick) (button : UInt32)
    (closing : Bool) :
    (p.drag line entry button closing).map (Booking.withPointer id) =
      ({ p with id } : Pointer).drag line entry button closing := by
  unfold drag
  rw [List.map_append, samples_withPointer]
  cases closing with
  | true => rfl
  | false => rfl

end Pointer

namespace Source

theorem PointerAct.withPointer {place : Nat} {next : Option Item} {state after : PointerState}
    {item : Item} {bookings : List Booking}
    (hact : PointerAct locate s p place next state item bookings after) (id : Nat) :
    PointerAct locate s { p with id } place next state item
      (bookings.map (Booking.withPointer id)) after := by
  cases hact with
  | pause hspan hfits => exact .pause hspan hfits
  | press hup hfresh hposition => exact .press hup hfresh hposition
  | lift hdown hfresh hposition => exact .lift hdown hfresh hposition
  | stay hduration hspan hshort => exact .stay hduration hspan hshort
  | wait hduration hspan hlong hfits hfirst => exact .wait hduration hspan hlong hfits hfirst
  | hover hduration hspan hlong hfits hplace hstart hstop hup hmouse =>
    rw [Pointer.hover_withPointer]
    exact .hover hduration hspan hlong hfits hplace hstart hstop hup hmouse
  | drag hduration hspan hlong hfits hplace hstart hstop htouch =>
    rw [Pointer.drag_withPointer]
    exact .drag hduration hspan hlong hfits hplace hstart hstop htouch

theorem pointerTrackFrom_withPointer {place : Nat} {state : PointerState} {items : List Item}
    {track : List Booking}
    (htrack : s.pointerTrackFrom locate p place state items = .ok track) (id : Nat) :
    s.pointerTrackFrom locate { p with id } place state items =
      .ok (track.map (Booking.withPointer id)) := by
  induction items generalizing place state track with
  | nil =>
    cases htrack
    rfl
  | cons item rest ih =>
    obtain ⟨bookings, after, later, hact, hlater, rfl⟩ := pointerTrackFrom_cons_eq_ok.1 htrack
    rw [List.map_append]
    exact pointerTrackFrom_cons_eq_ok.2 ⟨_, after, _, hact.withPointer id, ih hlater, rfl⟩

/-- A pointer source compiles at an ordinal exactly when it compiles as the first one and, unless it
is the first, is a touch pointer; its cues then carry the ordinal as their id. -/
theorem pointerTrack_eq_ok {ordinal : Nat} {track : List Booking} :
    s.pointerTrack locate ordinal = .ok track ↔
      (ordinal = 0 ∨ s.effectivePointerType = .touch) ∧
        ∃ alone, s.pointerTrack locate 0 = .ok alone ∧
          track = alone.map (Booking.withPointer ordinal) := by
  have hfirst : s.pointerTrack locate 0 = s.pointerTrackFrom locate
      { id := 0, tool := s.effectivePointerType.tool } 0 { memo := PositionMemo.empty s }
      s.items := rfl
  rw [hfirst]
  unfold pointerTrack
  constructor
  · intro h
    dsimp only at h
    split_ifs at h with hcrowded
    have hallowed : ordinal = 0 ∨ s.effectivePointerType = .touch := by
      by_cases hzero : ordinal = 0
      · exact .inl hzero
      · exact .inr (by simpa [Nat.pos_of_ne_zero hzero] using hcrowded)
    have halone := pointerTrackFrom_withPointer h 0
    refine ⟨hallowed, _, halone, ?_⟩
    have hagain := pointerTrackFrom_withPointer halone ordinal
    exact Except.ok.inj (h.symm.trans hagain)
  · rintro ⟨hallowed, alone, halone, rfl⟩
    have hfree : (decide (0 < ordinal) && decide (s.effectivePointerType ≠ .touch)) = false := by
      rcases hallowed with rfl | htouch
      · simp
      · simp [htouch]
    dsimp only
    rw [hfree, if_neg Bool.false_ne_true]
    exact pointerTrackFrom_withPointer halone ordinal

end Source

end ActionReplay
