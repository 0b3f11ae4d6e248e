import ActionReplay.Proofs.Contact.Holds
import ActionReplay.Proofs.Track.Hover
import ActionReplay.Proofs.Track.Playable

/-!
# Which item a motion comes from

Every motion of a track that touches is made by one item of the source, at a tick that the item
takes in (`Source.Makes`, `Source.makes_pointerTrack`). A down enters a chain of its own. Any other
such motion belongs to the chain that the last contact before its item entered, be it a down or an
up, or to the one in which the source starts. An up therefore belongs to the chain of the down that
it ends (`Makes.holdsFrom`), while a move belongs to it only if its item stands between the two.

The bookings of a track are in tick order (`pairwise_pointerTrack`).
-/

set_option autoImplicit false
set_option relaxedAutoImplicit false

namespace ActionReplay

variable {locate : Locator} {s : Source} {p : Pointer}

/-- What an item makes of a pointer that touches, or of a mouse that is up if it does not hover. -/
def Item.touch? : Item → Option CueAction
  | .pointerDown _ => some .down
  | .pointerUp _ => some .up
  | .pointerMove _ => some .move
  | _ => none

theorem Booking.Hovers.pairwise {hovering : Bool} {tick : Tick} {bookings : List Booking}
    (hhovers : Hovers hovering tick bookings) :
    bookings.Pairwise fun a b ↦ a.tick ≤ b.tick := by
  induction hhovers with
  | done => exact .nil
  | touch _ _ hrest ih => exact List.pairwise_cons.2 ⟨hrest.tick_le, ih⟩
  | enter _ hsame _ _ hrest ih =>
    have hlater := fun booking hbooking ↦ (Nat.le_succ _).trans (hrest.tick_le booking hbooking)
    refine List.pairwise_cons.2 ⟨List.forall_mem_cons.2 ⟨hsame.ge, hlater⟩, ?_⟩
    exact List.pairwise_cons.2 ⟨hsame ▸ hlater, ih⟩
  | move _ _ hrest ih =>
    refine List.pairwise_cons.2 ⟨fun booking hbooking ↦ ?_, ih⟩
    exact (Nat.le_succ _).trans (hrest.tick_le booking hbooking)
  | exit _ _ hrest ih => exact List.pairwise_cons.2 ⟨hrest.tick_le, ih⟩

namespace Pointer

variable {line : Line} {entry : Tick} {button : UInt32}

/-- The motions of a hover touch nothing. -/
theorem isHover_hover : ∀ booking ∈ p.hover line, ∀ cue, booking.motion? = some cue →
    cue.action.isHover = true := by
  unfold hover
  split_ifs with hshort
  · rintro booking hbooking cue hcue
    rw [List.mem_singleton.1 hbooking] at hcue
    cases hcue
  · refine List.forall_mem_append.2 ⟨List.forall_mem_append.2 ⟨?_, ?_⟩, ?_⟩
    · exact List.forall_mem_singleton.2 fun cue hcue ↦ by cases hcue; rfl
    · intro booking hbooking cue hcue
      obtain ⟨step, -, rfl⟩ := List.mem_map.1 hbooking
      cases hcue
      rfl
    · exact List.forall_mem_singleton.2 fun cue hcue ↦ by cases hcue; rfl

/-- The motions of a drag are moves of one chain. -/
theorem move_drag {closing : Bool} : ∀ booking ∈ p.drag line entry button closing, ∀ cue,
    booking.motion? = some cue → cue.action = .move ∧ cue.entry = entry := by
  refine List.forall_mem_append.2 ⟨?_, ?_⟩
  · intro booking hbooking cue hcue
    obtain ⟨step, -, rfl⟩ := List.mem_map.1 hbooking
    cases hcue
    exact ⟨rfl, rfl⟩
  · cases closing with
    | true => exact List.forall_mem_singleton.2 fun cue hcue ↦ by cases hcue; exact ⟨rfl, rfl⟩
    | false => exact List.forall_mem_nil _

end Pointer

namespace Source

theorem pairwise_pointerTrack {ordinal : Nat} {track : List Booking}
    (htrack : s.pointerTrack locate ordinal = .ok track) :
    track.Pairwise fun a b ↦ a.tick ≤ b.tick :=
  (hovers_pointerTrackFrom (pointerTrackFrom_of_pointerTrack htrack)).pairwise

/-! ### One act -/

/-- A motion with the action of an item, at a tick that the item takes in. It belongs to a chain
that was entered before the item, unless it is a down. -/
structure MadeBy (item : Item) (start entry tick : Tick) (cue : MotionCue) : Prop where
  action : item.touch? = some cue.action
  start_le : start ≤ tick
  le_stop : tick ≤ start + item.span
  entry : cue.entry = if cue.action = .down then tick else entry

namespace PointerAct

variable {place : Nat} {next : Option Item} {state after : PointerState} {item : Item}
  {bookings : List Booking}

theorem entry_after (hact : PointerAct locate s p place next state item bookings after) :
    after.entry = Contact.tickAfter state.entry (item.contact? state.tick).toList := by
  cases hact with
  | pause | press | lift | stay | wait | hover | drag => rfl

/-- What an act books of a pointer that touches is made by its item. -/
theorem madeBy (hact : PointerAct locate s p place next state item bookings after)
    {booking : Booking} (hbooking : booking ∈ bookings) {cue : MotionCue}
    (hcue : booking.motion? = some cue) (htouch : cue.action.isHover = false) :
    MadeBy item state.tick state.entry booking.tick cue := by
  have hstart : state.tick ≤ booking.tick :=
    (hact.hovers (.done after.tick)).tick_le booking (List.mem_append_left [] hbooking)
  have hstop : booking.tick ≤ state.tick + item.span :=
    hact.tick_after ▸ hact.tick_le booking hbooking
  cases hact with
  | pause =>
    rw [List.mem_singleton.1 hbooking] at hcue
    cases hcue
  | press =>
    obtain rfl := List.mem_singleton.1 hbooking
    cases hcue
    exact ⟨rfl, hstart, hstop, rfl⟩
  | lift =>
    obtain rfl := List.mem_singleton.1 hbooking
    cases hcue
    exact ⟨rfl, hstart, hstop, rfl⟩
  | stay => exact absurd hbooking List.not_mem_nil
  | wait =>
    rw [List.mem_singleton.1 hbooking] at hcue
    cases hcue
  | hover =>
    rw [Pointer.isHover_hover booking hbooking cue hcue] at htouch
    cases htouch
  | drag =>
    obtain ⟨haction, hentry⟩ := Pointer.move_drag booking hbooking cue hcue
    refine ⟨congrArg some haction.symm, hstart, hstop, ?_⟩
    rw [hentry, haction]
    rfl

end PointerAct

/-! ### Tracks -/

/-- A motion that is made by one of the items of a source. It belongs to the chain that the last
contact before the item entered, unless it is a down. -/
def Makes (s : Source) (tick : Tick) (cue : MotionCue) : Prop :=
  ∃ before item later, s.items = before ++ item :: later ∧
    MadeBy item (Item.spans before) (Contact.tickAfter 0 (contactsFrom 0 before)) tick cue

theorem contactsFrom_append (tick : Tick) (before later : List Item) :
    contactsFrom tick (before ++ later) =
      contactsFrom tick before ++ contactsFrom (tick + Item.spans before) later := by
  induction before generalizing tick with
  | nil => rfl
  | cons item rest ih =>
    rw [List.cons_append, contactsFrom, contactsFrom, ih, List.append_assoc, Item.spans_cons,
      Nat.add_assoc]

theorem makes_pointerTrackFrom {place : Nat} {state : PointerState} {done items : List Item}
    {track : List Booking} (htrack : s.pointerTrackFrom locate p place state items = .ok track)
    (hitems : s.items = done ++ items) (htick : state.tick = Item.spans done)
    (hentry : state.entry = Contact.tickAfter 0 (contactsFrom 0 done)) {booking : Booking}
    (hbooking : booking ∈ track) {cue : MotionCue} (hcue : booking.motion? = some cue)
    (htouch : cue.action.isHover = false) : s.Makes booking.tick cue := by
  induction items generalizing place state done track with
  | nil =>
    cases htrack
    exact absurd hbooking List.not_mem_nil
  | cons item rest ih =>
    obtain ⟨bookings, after, later, hact, hlater, rfl⟩ := pointerTrackFrom_cons_eq_ok.1 htrack
    rcases List.mem_append.1 hbooking with hnow | hlate
    · refine ⟨done, item, rest, hitems, ?_⟩
      rw [← htick, ← hentry]
      exact hact.madeBy hnow hcue htouch
    · have hrest : s.items = (done ++ [item]) ++ rest := hitems.trans (List.append_cons _ _ _)
      refine ih hlater hrest ?_ ?_ hlate
      · rw [hact.tick_after, htick, Item.spans_append]
        rfl
      · rw [hact.entry_after, hentry, htick, contactsFrom_append, Contact.tickAfter_append,
          Nat.zero_add]
        exact congrArg (Contact.tickAfter _) (List.append_nil _).symm

/-- Every motion of the track of a pointer source that touches is made by one of the items. -/
theorem makes_pointerTrack {ordinal : Nat} {track : List Booking}
    (htrack : s.pointerTrack locate ordinal = .ok track) {booking : Booking}
    (hbooking : booking ∈ track) {cue : MotionCue} (hcue : booking.motion? = some cue)
    (htouch : cue.action.isHover = false) : s.Makes booking.tick cue := by
  have hitems : s.items = [] ++ s.items := rfl
  exact makes_pointerTrackFrom (pointerTrackFrom_of_pointerTrack htrack) hitems rfl rfl hbooking
    hcue htouch

/-- Assumes: a source whose downs and ups alternate. An up belongs to the chain of the down that it
ends. -/
theorem Makes.holdsFrom {tick : Tick} {cue : MotionCue} (hmakes : s.Makes tick cue)
    (hup : cue.action = .up) (halternate : Contact.Alternate false s.contacts) :
    Contact.HoldsFrom s.contacts cue.entry tick := by
  obtain ⟨before, item, later, hitems, haction, hstart, hstop, hentry⟩ := hmakes
  rw [hup] at haction hentry
  cases item with
  | pointerUp button =>
    obtain rfl : Item.spans before = tick := le_antisymm hstart hstop
    have hcontacts : s.contacts = contactsFrom 0 before ++ ⟨Item.spans before, false⟩ ::
        contactsFrom (Item.spans before) later := by
      rw [contacts, hitems, contactsFrom_append, Nat.zero_add]
      rfl
    have hordered : s.contacts.Pairwise fun a b ↦ a.tick ≤ b.tick := pairwise_contactsFrom
    rw [hcontacts] at halternate hordered ⊢
    obtain ⟨-, hlater, hearlier⟩ := List.pairwise_append.1 hordered
    have hcut : Contact.CutAt (Item.spans before) (contactsFrom 0 before ++
        ⟨Item.spans before, false⟩ :: contactsFrom (Item.spans before) later)
        (contactsFrom 0 before) := by
      refine ⟨_, rfl, fun contact hcontact ↦ ?_, List.forall_mem_cons.2 ⟨le_rfl, ?_⟩⟩
      · exact hearlier contact hcontact _ List.mem_cons_self
      · exact (List.pairwise_cons.1 hlater).1
    have hdown : Contact.downAfter false (contactsFrom 0 before) = true := by
      simpa using (Contact.alternate_append.1 halternate).2.1
    rw [hentry]
    exact hcut.holdsFrom hdown
  | pause | pointerDown | pointerMove | pointerCancel | keyDown | keyUp => cases haction

end Source

end ActionReplay
