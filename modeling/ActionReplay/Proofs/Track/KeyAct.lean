import ActionReplay.Proofs.Track.PointerAct
import ActionReplay.Track.Keyboard
import ActionReplay.Track.Rest

/-!
# What the other sources can do with an item

A source without input can only pause, and a key source can pause, press and release (`KeyAct`). As
for pointer sources, a step succeeds exactly when it is one of these (`keyStep_eq_ok`), and a track
is made of one for each item (`keyTrackFrom_cons_eq_ok`, `restTrackFrom_cons_eq_ok`), so what holds of
every act holds of every track (`forall_mem_keyTrackFrom`, `forall_mem_restTrackFrom`). Pauses book no
cues (`cue_restTrack`).
-/

set_option autoImplicit false
set_option relaxedAutoImplicit false

namespace ActionReplay.Source

variable {s : Source}

/-- The code point of a key value is that of its first character. -/
theorem exists_of_keyCodePoint {place : Nat} {type : ItemType} {value : Option String}
    {codePoint : UInt32} (hvalue : s.keyCodePoint place type value = .ok codePoint) :
    ∃ text first rest, value = some text ∧ text.toList = first :: rest ∧ codePoint = first.val := by
  unfold keyCodePoint at hvalue
  cases value with
  | none => cases hvalue
  | some text =>
    dsimp only at hvalue
    cases hchars : text.toList with
    | nil =>
      rw [hchars] at hvalue
      cases hvalue
    | cons first rest =>
      rw [hchars] at hvalue
      cases hvalue
      exact ⟨text, first, rest, rfl, hchars, rfl⟩

/-- The ways in which a key source can carry out the item at a place: the booking made and the state
left behind. -/
inductive KeyAct (s : Source) (place : Nat) (state : KeyboardState) :
    Item → Booking → KeyboardState → Prop
  | pause {span : Int64} (hspan : ¬span < 0)
      (hfits : state.tick + align span ≤ longestTimeline) :
      KeyAct s place state (.pause (some span)) (.rest (state.tick + align span))
        { state with tick := state.tick + align span }
  | press {value : Option String} {codePoint : UInt32}
      (hvalue : s.keyCodePoint place .keyDown value = .ok codePoint) :
      KeyAct s place state (.keyDown value)
        (.key state.tick { entry := state.tick, action := .down, codePoint })
        { state with entry := state.tick }
  | release {value : Option String} {codePoint : UInt32}
      (hvalue : s.keyCodePoint place .keyUp value = .ok codePoint) :
      KeyAct s place state (.keyUp value)
        (.key state.tick { entry := state.entry, action := .up, codePoint })
        { state with entry := state.tick }

/-- A step of a key source succeeds exactly when it is one of the acts. -/
theorem keyStep_eq_ok {place : Nat} {state after : KeyboardState} {item : Item}
    {booking : Booking} :
    s.keyStep place state item = .ok (booking, after) ↔
      KeyAct s place state item booking after := by
  cases item with
  | pause duration =>
    constructor
    · intro h
      obtain ⟨tick, htick, h⟩ := bind_eq_ok.1 h
      obtain ⟨span, rfl, hspan, hfits, rfl⟩ := pauseEnd_eq_ok.1 htick
      cases h
      exact .pause hspan hfits
    · rintro ⟨hspan, hfits⟩
      exact bind_eq_ok.2 ⟨_, pauseEnd_eq_ok.2 ⟨_, rfl, hspan, hfits, rfl⟩, rfl⟩
  | keyDown value =>
    constructor
    · intro h
      obtain ⟨codePoint, hvalue, h⟩ := bind_eq_ok.1 h
      cases h
      exact .press hvalue
    · rintro (_ | hvalue)
      exact bind_eq_ok.2 ⟨_, hvalue, rfl⟩
  | keyUp value =>
    constructor
    · intro h
      obtain ⟨codePoint, hvalue, h⟩ := bind_eq_ok.1 h
      cases h
      exact .release hvalue
    · rintro (_ | _ | hvalue)
      exact bind_eq_ok.2 ⟨_, hvalue, rfl⟩
  | pointerDown button => exact ⟨fun h ↦ (by cases h), fun h ↦ (by cases h)⟩
  | pointerUp button => exact ⟨fun h ↦ (by cases h), fun h ↦ (by cases h)⟩
  | pointerMove move => exact ⟨fun h ↦ (by cases h), fun h ↦ (by cases h)⟩
  | pointerCancel => exact ⟨fun h ↦ (by cases h), fun h ↦ (by cases h)⟩

/-- A track from an item on is one act with the item and a track from the next item on. -/
theorem keyTrackFrom_cons_eq_ok {place : Nat} {state : KeyboardState} {item : Item}
    {rest : List Item} {track : List Booking} :
    s.keyTrackFrom place state (item :: rest) = .ok track ↔
      ∃ booking after later, KeyAct s place state item booking after ∧
        s.keyTrackFrom (place + 1) after rest = .ok later ∧ track = booking :: later := by
  rw [keyTrackFrom, bind_eq_ok]
  constructor
  · rintro ⟨⟨booking, after⟩, hstep, h⟩
    obtain ⟨later, hlater, h⟩ := bind_eq_ok.1 h
    cases h
    exact ⟨booking, after, later, keyStep_eq_ok.1 hstep, hlater, rfl⟩
  · rintro ⟨booking, after, later, hact, hlater, rfl⟩
    exact ⟨(booking, after), keyStep_eq_ok.2 hact, bind_eq_ok.2 ⟨later, hlater, rfl⟩⟩

/-- Assumes: acts from a state with `K` leave one with `K`, and what they book has `P`. From such a state
on, all bookings of a track have `P`. -/
theorem forall_mem_keyTrackFrom {K : KeyboardState → Prop} {P : Booking → Prop}
    (hacts : ∀ {place state item booking after}, KeyAct s place state item booking after →
      K state → P booking ∧ K after)
    {place : Nat} {state : KeyboardState} {items : List Item} {track : List Booking}
    (htrack : s.keyTrackFrom place state items = .ok track) (hstate : K state) :
    ∀ booking ∈ track, P booking := by
  refine forall_mem_walk s.keyTrackFrom (fun _ _ ↦ rfl) (fun hwalk hstate ↦ ?_) htrack hstate
  obtain ⟨booking, after, later, hact, hlater, rfl⟩ := keyTrackFrom_cons_eq_ok.1 hwalk
  obtain ⟨hbooking, hafter⟩ := hacts hact hstate
  exact ⟨[booking], after, later, List.forall_mem_singleton.2 hbooking, hafter, hlater, rfl⟩

/-- A track without input from an item on is a pause and a track from the next item on. -/
theorem restTrackFrom_cons_eq_ok {place : Nat} {tick : Tick} {item : Item} {rest : List Item}
    {track : List Booking} :
    s.restTrackFrom place tick (item :: rest) = .ok track ↔
      ∃ span later, item = .pause (some span) ∧ ¬span < 0 ∧
        tick + align span ≤ longestTimeline ∧
          s.restTrackFrom (place + 1) (tick + align span) rest = .ok later ∧
            track = .rest (tick + align span) :: later := by
  constructor
  · intro h
    cases item with
    | pause duration =>
      obtain ⟨reached, hreached, h⟩ := bind_eq_ok.1 h
      obtain ⟨span, rfl, hspan, hfits, rfl⟩ := pauseEnd_eq_ok.1 hreached
      obtain ⟨later, hlater, h⟩ := bind_eq_ok.1 h
      cases h
      exact ⟨span, later, rfl, hspan, hfits, hlater, rfl⟩
    | pointerDown button => cases h
    | pointerUp button => cases h
    | pointerMove move => cases h
    | pointerCancel => cases h
    | keyDown value => cases h
    | keyUp value => cases h
  · rintro ⟨span, later, rfl, hspan, hfits, hlater, rfl⟩
    exact bind_eq_ok.2 ⟨_, pauseEnd_eq_ok.2 ⟨span, rfl, hspan, hfits, rfl⟩,
      bind_eq_ok.2 ⟨later, hlater, rfl⟩⟩

/-- Assumes: pauses from a tick with `K` end at one with `K`, where the rest has `P`. From such a tick
on, all rests of a track have `P`. -/
theorem forall_mem_restTrackFrom {K : Tick → Prop} {P : Booking → Prop}
    (hpauses : ∀ {tick : Tick} {span : Int64}, tick + align span ≤ longestTimeline → K tick →
      P (.rest (tick + align span)) ∧ K (tick + align span))
    {place : Nat} {tick : Tick} {items : List Item} {track : List Booking}
    (htrack : s.restTrackFrom place tick items = .ok track) (htick : K tick) :
    ∀ booking ∈ track, P booking := by
  refine forall_mem_walk s.restTrackFrom (fun _ _ ↦ rfl) (fun hwalk htick ↦ ?_) htrack htick
  obtain ⟨span, later, -, -, hfits, hlater, rfl⟩ := restTrackFrom_cons_eq_ok.1 hwalk
  obtain ⟨hrest, hend⟩ := hpauses hfits htick
  exact ⟨[_], _, later, List.forall_mem_singleton.2 hrest, hend, hlater, rfl⟩

/-- A source without input books no cue. -/
theorem cue_restTrack {track : List Booking} (htrack : s.restTrack = .ok track) :
    ∀ booking ∈ track, booking.cue = none :=
  forall_mem_restTrackFrom (K := fun _ ↦ True) (fun _ _ ↦ ⟨rfl, trivial⟩) htrack trivial

end ActionReplay.Source
