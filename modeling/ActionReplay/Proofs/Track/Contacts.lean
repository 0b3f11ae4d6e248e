import ActionReplay.Proofs.Contact.Turns
import ActionReplay.Proofs.Track.KeyAct
import ActionReplay.Timeline.Contact

/-!
# The contacts of a track

The items of a source say by themselves when a pointer goes down and up: an item is carried out at
the sum of the aligned durations of the items before it (`Item.span`), and `Source.contacts` lists
the downs and ups at those ticks. The track of a pointer source books exactly these contacts, in
this order (`contacts_pointerTrack`), on cues that all name its pointer and its tool
(`owns_pointerTrack`), and they are the contacts of a single pointer (`takeTurns_contacts`). The
tracks of the other sources hold no motion at all (`motion_restTrack`, `motion_keyTrack`).
-/

set_option autoImplicit false
set_option relaxedAutoImplicit false

namespace ActionReplay

/-! ### What the items say -/

namespace Item

/-- The time that an item takes: the aligned duration of a pause or a move. -/
def span : Item → Nat
  | .pause duration => duration.elim 0 align
  | .pointerMove move => move.duration.elim 0 align
  | _ => 0

/-- The contact that an item carried out at a tick makes. -/
def contact? (tick : Tick) : Item → Option Contact
  | .pointerDown _ => some ⟨tick, true⟩
  | .pointerUp _ => some ⟨tick, false⟩
  | _ => none

theorem span_pointerMove {move : PointerMove} {span : Int64}
    (hduration : move.duration = some span) : (pointerMove move).span = align span := by
  simp [Item.span, hduration]

/-- A move that takes less than a quantum takes no time. -/
theorem span_eq_zero_of_lt {move : PointerMove} {span : Int64}
    (hduration : move.duration = some span) (hshort : align span < quantum) :
    (pointerMove move).span = 0 :=
  (span_pointerMove hduration).trans (Nat.eq_zero_of_dvd_of_lt (quantum_dvd_align span) hshort)

end Item

namespace Source

/-- The contacts that items make from a tick on. -/
def contactsFrom : Tick → List Item → List Contact
  | _, [] => []
  | tick, item :: rest => (item.contact? tick).toList ++ contactsFrom (tick + item.span) rest

/-- The contacts of a source, in the order of its items. -/
def contacts (s : Source) : List Contact :=
  contactsFrom 0 s.items

/-- The tool of a source. -/
def tool (s : Source) : Tool :=
  s.effectivePointerType.tool

end Source

namespace Booking

/-- The contact that a booking makes. -/
def contact? (booking : Booking) : Option Contact :=
  booking.cue.bind (Cue.contact? booking.tick)

/-- The motion that a booking makes. -/
def motion? (booking : Booking) : Option MotionCue :=
  booking.cue.bind Cue.motion?

theorem contact?_eq_none {booking : Booking} (hmotion : booking.motion? = none) :
    booking.contact? = none := by
  obtain ⟨tick, cue⟩ := booking
  match cue with
  | none => rfl
  | some (.key _) => rfl
  | some (.motion _) => cases hmotion

end Booking

/-! ### Acts -/

variable {locate : Locator} {s : Source} {p : Pointer}

namespace Pointer

theorem contact_samples {line : Line} {entry : Tick} {action : CueAction} {button : UInt32}
    (hdown : action ≠ .down) (hup : action ≠ .up) :
    (p.samples line entry action button).filterMap Booking.contact? = [] := by
  rw [List.filterMap_eq_nil_iff]
  intro booking hbooking
  obtain ⟨step, -, rfl⟩ := List.mem_map.1 hbooking
  cases action with
  | down => exact absurd rfl hdown
  | up => exact absurd rfl hup
  | move => rfl
  | hoverEnter => rfl
  | hoverMove => rfl
  | hoverExit => rfl

theorem contact_hover (line : Line) : (p.hover line).filterMap Booking.contact? = [] := by
  unfold hover
  split_ifs with hshort
  · rfl
  · rw [List.filterMap_append, List.filterMap_append,
      contact_samples CueAction.noConfusion CueAction.noConfusion]
    rfl

theorem contact_drag (line : Line) (entry : Tick) (button : UInt32) (closing : Bool) :
    (p.drag line entry button closing).filterMap Booking.contact? = [] := by
  unfold drag
  rw [List.filterMap_append, contact_samples CueAction.noConfusion CueAction.noConfusion]
  cases closing with
  | true => rfl
  | false => rfl

/-- A booking that makes no motion but those of a pointer. -/
def Owns (p : Pointer) (booking : Booking) : Prop :=
  booking.cue = none ∨
    ∃ cue, booking.cue = some (.motion cue) ∧ cue.pointer = p.id ∧ cue.tool = p.tool

theorem owns_rest (p : Pointer) (tick : Tick) : p.Owns (.rest tick) := .inl rfl

theorem owns_motion (p : Pointer) (tick entry : Tick) (action : CueAction) (position : Position)
    (button : UInt32) : p.Owns (.motion tick (p.cue entry action position button)) :=
  .inr ⟨_, rfl, rfl, rfl⟩

theorem owns_samples {line : Line} {entry : Tick} {action : CueAction} {button : UInt32} :
    ∀ booking ∈ p.samples line entry action button, p.Owns booking := by
  intro booking hbooking
  obtain ⟨step, -, rfl⟩ := List.mem_map.1 hbooking
  exact p.owns_motion _ _ _ _ _

theorem owns_hover {line : Line} : ∀ booking ∈ p.hover line, p.Owns booking := by
  unfold hover
  split_ifs with hshort
  · exact List.forall_mem_singleton.2 (p.owns_rest _)
  · refine List.forall_mem_append.2 ⟨List.forall_mem_append.2 ⟨?_, owns_samples⟩, ?_⟩
    · exact List.forall_mem_singleton.2 (p.owns_motion _ _ _ _ _)
    · exact List.forall_mem_singleton.2 (p.owns_motion _ _ _ _ _)

theorem owns_drag {line : Line} {entry : Tick} {button : UInt32} {closing : Bool} :
    ∀ booking ∈ p.drag line entry button closing, p.Owns booking := by
  refine List.forall_mem_append.2 ⟨owns_samples, ?_⟩
  cases closing with
  | true => exact List.forall_mem_singleton.2 (p.owns_motion _ _ _ _ _)
  | false => exact List.forall_mem_nil _

end Pointer

namespace Source.PointerAct

variable {place : Nat} {next : Option Item} {state after : PointerState} {item : Item}
  {bookings : List Booking}

theorem contact_bookings (hact : PointerAct locate s p place next state item bookings after) :
    bookings.filterMap Booking.contact? = (item.contact? state.tick).toList := by
  cases hact with
  | pause => rfl
  | press => rfl
  | lift => rfl
  | stay => rfl
  | wait => rfl
  | hover => exact Pointer.contact_hover _
  | drag => exact Pointer.contact_drag _ _ _ _

theorem owns_bookings (hact : PointerAct locate s p place next state item bookings after) :
    ∀ booking ∈ bookings, p.Owns booking := by
  cases hact with
  | pause => exact List.forall_mem_singleton.2 (p.owns_rest _)
  | press => exact List.forall_mem_singleton.2 (p.owns_motion _ _ _ _ _)
  | lift => exact List.forall_mem_singleton.2 (p.owns_motion _ _ _ _ _)
  | stay => exact List.forall_mem_nil _
  | wait => exact List.forall_mem_singleton.2 (p.owns_rest _)
  | hover => exact Pointer.owns_hover
  | drag => exact Pointer.owns_drag

theorem tick_after (hact : PointerAct locate s p place next state item bookings after) :
    after.tick = state.tick + item.span := by
  cases hact with
  | pause => rfl
  | press => rfl
  | lift => rfl
  | stay hduration _ hshort =>
    rw [Item.span_eq_zero_of_lt hduration hshort]
    rfl
  | wait hduration => rw [Item.span_pointerMove hduration]
  | hover hduration => rw [Item.span_pointerMove hduration]
  | drag hduration => rw [Item.span_pointerMove hduration]

end Source.PointerAct

/-! ### Tracks of pointer sources -/

namespace Source

/-- A track from an item on books the contacts of its items. -/
theorem contacts_pointerTrackFrom {place : Nat} {state : PointerState} {items : List Item}
    {track : List Booking} (htrack : s.pointerTrackFrom locate p place state items = .ok track) :
    track.filterMap Booking.contact? = contactsFrom state.tick items := by
  induction items generalizing place state track with
  | nil =>
    cases htrack
    rfl
  | cons item rest ih =>
    obtain ⟨bookings, after, later, hact, hlater, rfl⟩ := pointerTrackFrom_cons_eq_ok.1 htrack
    rw [List.filterMap_append, hact.contact_bookings, ih hlater, hact.tick_after]
    rfl

theorem owns_pointerTrackFrom {place : Nat} {state : PointerState} {items : List Item}
    {track : List Booking} (htrack : s.pointerTrackFrom locate p place state items = .ok track) :
    ∀ booking ∈ track, p.Owns booking :=
  forall_mem_pointerTrackFrom (fun hact _ ↦ ⟨hact.owns_bookings, trivial⟩) htrack trivial

end Source

namespace PointerState

/-- The tick of the last contact of a kind. -/
def last (state : PointerState) (isDown : Bool) : Option Tick :=
  if isDown then state.lastDown else state.lastUp

/-- The last contacts of a pointer are not ahead of its tick. -/
def Settled (state : PointerState) : Prop :=
  ∀ isDown tick, state.last isDown = some tick → tick ≤ state.tick

/-- Contacts that a pointer can make from a state on. -/
structure Allows (state : PointerState) (contacts : List Contact) : Prop where
  alternate : Contact.Alternate state.isDown contacts
  ordered : contacts.Pairwise fun a b ↦ a.tick ≤ b.tick
  spaced : contacts.Pairwise fun a b ↦ a.isDown = b.isDown → a.tick < b.tick
  later : ∀ contact ∈ contacts, state.tick ≤ contact.tick
  fresh : ∀ contact ∈ contacts, state.last contact.isDown ≠ some contact.tick

/-- The second state has the same contacts behind it as the first, at no earlier tick. -/
structure Passes (state after : PointerState) : Prop where
  isDown : after.isDown = state.isDown
  last : ∀ kind, after.last kind = state.last kind
  tick : state.tick ≤ after.tick

/-- The second state has one more contact behind it than the first, of a kind and made at its
tick. -/
structure Touches (state after : PointerState) (kind : Bool) : Prop where
  turn : kind = !state.isDown
  fresh : state.last kind ≠ some state.tick
  isDown : after.isDown = kind
  last : after.last kind = some state.tick
  other : after.last (!kind) = state.last (!kind)
  tick : after.tick = state.tick

variable {state after : PointerState} {contacts : List Contact}

theorem last_start (memo : PositionMemo) (isDown : Bool) :
    last { memo := memo } isDown = none := by
  cases isDown with
  | false => rfl
  | true => rfl

theorem settled_start (memo : PositionMemo) : Settled { memo := memo } := by
  intro isDown tick hlast
  rw [last_start] at hlast
  cases hlast

theorem Allows.nil : state.Allows [] :=
  ⟨trivial, .nil, .nil, List.forall_mem_nil _, List.forall_mem_nil _⟩

theorem Passes.settled (hpasses : Passes state after) (hsettled : state.Settled) :
    after.Settled := by
  intro isDown tick hlast
  rw [hpasses.last isDown] at hlast
  exact (hsettled isDown tick hlast).trans hpasses.tick

theorem Passes.allows (hpasses : Passes state after) (hallows : after.Allows contacts) :
    state.Allows contacts where
  alternate := hpasses.isDown ▸ hallows.alternate
  ordered := hallows.ordered
  spaced := hallows.spaced
  later contact hcontact := hpasses.tick.trans (hallows.later contact hcontact)
  fresh contact hcontact := hpasses.last contact.isDown ▸ hallows.fresh contact hcontact

theorem Touches.settled {kind : Bool} (htouches : Touches state after kind)
    (hsettled : state.Settled) : after.Settled := by
  intro other tick hlast
  rw [htouches.tick]
  by_cases hkind : other = kind
  · rw [hkind, htouches.last] at hlast
    exact (Option.some.inj hlast).ge
  · rw [Bool.eq_not.2 hkind, htouches.other] at hlast
    exact hsettled _ tick hlast

/-- A contact at the tick of a state, followed by contacts that the state after it allows. -/
theorem Touches.allows {kind : Bool} (htouches : Touches state after kind)
    (hsettled : state.Settled) (hallows : after.Allows contacts) :
    state.Allows (⟨state.tick, kind⟩ :: contacts) := by
  have hlater : ∀ contact ∈ contacts, state.tick ≤ contact.tick := fun contact hcontact ↦
    htouches.tick ▸ hallows.later contact hcontact
  have hspaced : ∀ contact ∈ contacts, kind = contact.isDown → state.tick < contact.tick := by
    intro contact hcontact hkind
    have hfresh := hallows.fresh contact hcontact
    rw [← hkind, htouches.last] at hfresh
    exact lt_of_le_of_ne (hlater contact hcontact) fun hsame ↦ hfresh (congrArg some hsame)
  refine ⟨⟨htouches.turn, ?_⟩, ?_, ?_, ?_, ?_⟩
  · exact htouches.isDown ▸ hallows.alternate
  · exact List.pairwise_cons.2 ⟨hlater, hallows.ordered⟩
  · exact List.pairwise_cons.2 ⟨hspaced, hallows.spaced⟩
  · exact List.forall_mem_cons.2 ⟨le_rfl, hlater⟩
  · refine List.forall_mem_cons.2 ⟨htouches.fresh, ?_⟩
    intro contact hcontact hlast
    by_cases hkind : contact.isDown = kind
    · have hle := hsettled _ _ hlast
      exact absurd (hspaced contact hcontact hkind.symm) (not_lt.2 hle)
    · rw [Bool.eq_not.2 hkind, ← htouches.other, ← Bool.eq_not.2 hkind] at hlast
      exact hallows.fresh contact hcontact hlast

end PointerState

namespace Source

/-- An act either makes no contact and passes the down state on, or makes one contact at its
tick. -/
theorem PointerAct.passes_or_touches {place : Nat} {next : Option Item}
    {state after : PointerState} {item : Item} {bookings : List Booking}
    (hact : PointerAct locate s p place next state item bookings after) :
    (item.contact? state.tick = none ∧ state.Passes after) ∨
      ∃ kind, item.contact? state.tick = some ⟨state.tick, kind⟩ ∧ state.Touches after kind := by
  cases hact with
  | pause => exact .inl ⟨rfl, rfl, fun _ ↦ rfl, Nat.le_add_right _ _⟩
  | press hup hfresh => exact .inr ⟨true, rfl, by rw [hup]; rfl, hfresh, rfl, rfl, rfl, rfl⟩
  | lift hdown hfresh =>
    exact .inr ⟨false, rfl, by rw [hdown]; rfl, hfresh, rfl, rfl, rfl, rfl⟩
  | stay => exact .inl ⟨rfl, rfl, fun _ ↦ rfl, le_rfl⟩
  | wait => exact .inl ⟨rfl, rfl, fun _ ↦ rfl, Nat.le_add_right _ _⟩
  | hover => exact .inl ⟨rfl, rfl, fun _ ↦ rfl, Nat.le_add_right _ _⟩
  | drag => exact .inl ⟨rfl, rfl, fun _ ↦ rfl, Nat.le_add_right _ _⟩

/-- Items that compile make contacts that the state before them allows. -/
theorem allows_contactsFrom {place : Nat} {state : PointerState} {items : List Item}
    {track : List Booking} (htrack : s.pointerTrackFrom locate p place state items = .ok track)
    (hsettled : state.Settled) : state.Allows (contactsFrom state.tick items) := by
  induction items generalizing place state track with
  | nil => exact .nil
  | cons item rest ih =>
    obtain ⟨bookings, after, later, hact, hlater, rfl⟩ := pointerTrackFrom_cons_eq_ok.1 htrack
    unfold contactsFrom
    rw [← hact.tick_after]
    rcases hact.passes_or_touches with ⟨hnone, hpasses⟩ | ⟨kind, hsome, htouches⟩
    · rw [hnone]
      exact hpasses.allows (ih hlater (hpasses.settled hsettled))
    · rw [hsome]
      exact htouches.allows hsettled (ih hlater (htouches.settled hsettled))

/-- The contacts of a source that compiles are those of a single pointer. -/
theorem takeTurns_contacts {ordinal : Nat} {track : List Booking}
    (htrack : s.pointerTrack locate ordinal = .ok track) : Contact.TakeTurns s.contacts := by
  obtain ⟨-, alone, halone, -⟩ := pointerTrack_eq_ok.1 htrack
  have hallows := allows_contactsFrom halone (PointerState.settled_start _)
  exact ⟨hallows.alternate, hallows.ordered, hallows.spaced⟩

theorem pointerTrackFrom_of_pointerTrack {ordinal : Nat} {track : List Booking}
    (htrack : s.pointerTrack locate ordinal = .ok track) :
    s.pointerTrackFrom locate { id := ordinal, tool := s.tool } 0
      { memo := PositionMemo.empty s } s.items = .ok track := by
  obtain ⟨-, alone, halone, rfl⟩ := pointerTrack_eq_ok.1 htrack
  exact pointerTrackFrom_withPointer halone ordinal

/-- The track of a pointer source books exactly the contacts of the source. -/
theorem contacts_pointerTrack {ordinal : Nat} {track : List Booking}
    (htrack : s.pointerTrack locate ordinal = .ok track) :
    track.filterMap Booking.contact? = s.contacts :=
  contacts_pointerTrackFrom (pointerTrackFrom_of_pointerTrack htrack)

/-- The cues of the track of a pointer source are motions of its pointer, with its tool. -/
theorem owns_pointerTrack {ordinal : Nat} {track : List Booking}
    (htrack : s.pointerTrack locate ordinal = .ok track) :
    ∀ booking ∈ track, Pointer.Owns { id := ordinal, tool := s.tool } booking :=
  owns_pointerTrackFrom (pointerTrackFrom_of_pointerTrack htrack)

/-! ### Tracks of other sources -/

/-- The track of a source without input holds no motion. -/
theorem motion_restTrack {track : List Booking} (htrack : s.restTrack = .ok track) :
    ∀ booking ∈ track, booking.motion? = none :=
  forall_mem_restTrackFrom (K := fun _ ↦ True) (fun _ _ ↦ ⟨rfl, trivial⟩) htrack trivial

theorem KeyAct.motion {place : Nat} {state after : KeyboardState} {item : Item} {booking : Booking}
    (hact : KeyAct s place state item booking after) : booking.motion? = none := by
  cases hact with
  | pause | press | release => rfl

/-- The track of a key source holds no motion. -/
theorem motion_keyTrack {track : List Booking} (htrack : s.keyTrack = .ok track) :
    ∀ booking ∈ track, booking.motion? = none :=
  forall_mem_keyTrackFrom (fun hact _ ↦ ⟨hact.motion, trivial⟩) htrack trivial

end Source

end ActionReplay
