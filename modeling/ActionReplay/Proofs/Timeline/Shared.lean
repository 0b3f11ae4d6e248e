import ActionReplay.Proofs.Contact.Shared
import ActionReplay.Proofs.Timeline.Apart
import ActionReplay.Proofs.Timeline.Recorded

/-!
# The chain that a motion joins

Sources are booked one after another, so when a pointer source comes to an item, the timeline has gathered
all contacts of the pointer sources before it and its own from before the item (`Timeline.Gathers`). Those
of them up to a tick are ahead of what the item records there: tick by tick, at a tick source by source,
and within a source item by item (`Source.touchesAhead`). A motion that touches is therefore booked on a
chain that can be read off them (`Source.Joins`). If they leave two pointers down, it is the chain
that the last down which found no pointer down entered. Otherwise it is the own chain of the source: that of
the down itself, or the one that the last contact of the source entered.

One act books its motions so, since it makes no contact before its last booking
(`Timeline.cuesAt_bookAll_steady`, `Source.PointerAct.joins`), and so does a whole track
(`Source.exists_joins_pointerTrackFrom`). The sources that are booked after it add no motion of its pointer
(`Timeline.motionsOf_bookAll_other`). So the motions of a pointer on a timeline are those that are recorded
for the items of its source, in order, each on the chain that it joins
(`Timeline.exists_joins_of_ofSources`).
-/

set_option autoImplicit false
set_option relaxedAutoImplicit false

namespace ActionReplay

variable {locate : Locator} {s : Source} {sources earlier later : List Source} {t : Timeline}
  {place : Nat} {item : Item}

/-! ### Gathered contacts -/

namespace Contact

theorem during_append (before later : List Contact) (tick : Tick) :
    during (before ++ later) tick = during before tick ++ during later tick :=
  List.filter_append before later

/-- A contact is put after all others at its tick. -/
theorem during_insert {contact : Contact} {contacts : List Contact}
    (hordered : contacts.Pairwise fun a b ↦ a.tick ≤ b.tick) (tick : Tick) :
    during (contact.insert contacts) tick = during (contacts ++ [contact]) tick := by
  induction contacts with
  | nil => rfl
  | cons first rest ih =>
    obtain ⟨hfirst, hrest⟩ := List.pairwise_cons.1 hordered
    unfold Contact.insert
    split_ifs with hbefore
    · have hlate : ∀ other ∈ first :: rest, contact.tick < other.tick :=
        List.forall_mem_cons.2 ⟨hbefore, fun other hother ↦ hbefore.trans_le (hfirst other hother)⟩
      rw [← List.singleton_append, during_append, during_append]
      by_cases hhere : contact.tick = tick
      · have hnone : during (first :: rest) tick = [] :=
          List.filter_eq_nil_iff.2 fun other hother ↦ by simpa [← hhere] using (hlate other hother).ne'
        rw [hnone, List.nil_append, List.append_nil]
      · have hnone : during [contact] tick = [] :=
          List.filter_cons_of_neg (by simpa using hhere)
        rw [hnone, List.nil_append, List.append_nil]
    · change during ([first] ++ contact.insert rest) tick = during ([first] ++ (rest ++ [contact])) tick
      rw [during_append, during_append, ih hrest]

theorem tickAfter_eq (tick : Tick) (contacts : List Contact) :
    tickAfter tick contacts = (contacts.getLast?.map Contact.tick).getD tick := by
  rcases List.eq_nil_or_concat contacts with rfl | ⟨before, last, rfl⟩
  · rfl
  · rw [List.concat_eq_append, tickAfter_append, List.getLast?_concat]
    rfl

end Contact

namespace Timeline

/-- A timeline that has gathered contacts: those of each tick, in their order. -/
structure Gathers (t : Timeline) (contacts : List Contact) : Prop where
  ordered : t.Ordered
  during : ∀ tick, Contact.during t.contacts tick = Contact.during contacts tick

theorem gathers_empty : empty.Gathers [] :=
  ⟨.nil, fun _ ↦ rfl⟩

variable {contacts : List Contact}

theorem Gathers.book (hgathers : t.Gathers contacts) (booking : Booking) :
    (t.book booking).Gathers (contacts ++ booking.contact?.toList) := by
  refine ⟨(contacts_book hgathers.ordered booking).2, fun tick ↦ ?_⟩
  cases hcontact : booking.contact? with
  | none =>
    rw [t.contacts_book_of_none hcontact, Option.toList_none, List.append_nil]
    exact hgathers.during tick
  | some contact =>
    rw [t.contacts_book_of_some hcontact, Contact.during_insert hgathers.ordered,
      Contact.during_append, hgathers.during, ← Contact.during_append]
    rfl

theorem Gathers.bookAll (hgathers : t.Gathers contacts) (bookings : List Booking) :
    (t.bookAll bookings).Gathers (contacts ++ bookings.filterMap Booking.contact?) := by
  induction bookings generalizing t contacts with
  | nil =>
    rw [List.filterMap_nil, List.append_nil]
    exact hgathers
  | cons booking rest ih =>
    have hrest := ih (hgathers.book booking)
    rw [List.append_assoc] at hrest
    rwa [List.filterMap_eq_flatMap_toList, List.flatMap_cons, ← List.filterMap_eq_flatMap_toList]

/-- Assumes: a timeline that has gathered the contacts of touches, of which those up to a tick are
proper. A chain is shared at the tick exactly if two pointers are down after them. -/
theorem Gathers.sharedEntry {touches : List Touch}
    (hgathers : t.Gathers (touches.map Touch.contact)) {tick : Tick}
    (hproper : Touch.Proper ∅ (Touch.upTo touches tick)) :
    t.sharedEntry tick =
      if 2 ≤ (Touch.down (Touch.upTo touches tick)).card then
        (Touch.openings (Touch.upTo touches tick)).getLast?
      else none := by
  have hreached : (t.contacts.filter fun contact ↦ contact.tick ≤ tick) =
      Contact.before t.contacts (tick + 1) :=
    List.filter_congr fun contact _ ↦ by rw [decide_eq_decide, Nat.lt_succ_iff]
  rw [Timeline.sharedEntry, Contact.takeWhile_eq_filter hgathers.ordered, hreached,
    ← Contact.flatMap_during hgathers.ordered, List.flatMap_congr fun tick _ ↦ hgathers.during tick,
    ← Touch.contact_upTo, Touch.sharedEntry_eq hproper]

end Timeline

/-! ### What is ahead of an item -/

namespace Source

/-- The touches that are ahead of what a pointer source records at a tick for the item at a place: those of
the pointer sources before it up to the tick, and its own before the item. They come in the order of the
ticks, at a tick in the order of the sources, and for a source in the order of the items. -/
def touchesAhead (earlier : List Source) (s : Source) (place : Nat) (tick : Tick) : List Touch :=
  Touch.upTo (Touch.ofPointers (earlier.map contacts ++ [contactsFrom 0 (s.items.take place)])) tick

/-- How a motion that a pointer source records at a tick for the item at a place stands on a timeline. A
hovering one keeps its chain. One that touches joins a chain that is shared if two pointers are down, and
otherwise belongs to one of its source. -/
structure Joins (earlier : List Source) (s : Source) (place : Nat) (tick : Tick)
    (recorded standing : MotionCue) : Prop where
  same : standing = { recorded with pointer := earlier.length, entry := standing.entry }
  hover : recorded.action.isHover = true → standing.entry = recorded.entry
  shared : recorded.action.isHover = false →
    2 ≤ (Touch.down (touchesAhead earlier s place tick)).card →
      (Touch.openings (touchesAhead earlier s place tick)).getLast? = some standing.entry
  own : recorded.action.isHover = false →
    (Touch.down (touchesAhead earlier s place tick)).card < 2 →
      standing.entry =
        if recorded.action = .down then tick
        else ((contactsFrom 0 (s.items.take place)).getLast?.map Contact.tick).getD 0

theorem contactsFrom_take_append (s : Source) (place : Nat) :
    contactsFrom 0 (s.items.take place) ++
      contactsFrom (s.tickAt place) (s.items.drop place) = s.contacts := by
  have hsplit := contactsFrom_append 0 (s.items.take place) (s.items.drop place)
  rw [List.take_append_drop, Nat.zero_add] at hsplit
  exact hsplit.symm

/-- Assumes: pointer sources that take turns. The touches ahead of any of their items are proper. -/
theorem proper_touchesAhead (hearlier : ∀ r ∈ earlier, Contact.TakeTurns r.contacts)
    (hturns : Contact.TakeTurns s.contacts) (place : Nat) (tick : Tick) :
    Touch.Proper ∅ (touchesAhead earlier s place tick) := by
  obtain ⟨halternate, hordered, -⟩ := hturns
  rw [← s.contactsFrom_take_append place] at halternate hordered
  refine Touch.proper_upTo ?_ ?_ tick
  · exact List.forall_mem_append.2 ⟨List.forall_mem_map.2 fun r hr ↦ (hearlier r hr).alternate,
      List.forall_mem_singleton.2 (Contact.alternate_append.1 halternate).1⟩
  · exact List.forall_mem_append.2 ⟨List.forall_mem_map.2 fun r hr ↦ (hearlier r hr).ordered,
      List.forall_mem_singleton.2 (List.pairwise_append.1 hordered).1⟩

/-- The contacts that a timeline has gathered when a pointer source comes to the item at a place. -/
def gatheredAt (earlier : List Source) (s : Source) (place : Nat) : List Contact :=
  (earlier.map contacts).flatten ++ contactsFrom 0 (s.items.take place)

theorem contact_ofPointers_take (earlier : List Source) (s : Source) (place : Nat) :
    (Touch.ofPointers (earlier.map contacts ++ [contactsFrom 0 (s.items.take place)])).map
      Touch.contact = gatheredAt earlier s place := by
  rw [Touch.contact_ofPointers, List.flatten_append, List.flatten_singleton]
  rfl

end Source

/-! ### Motions of one pointer -/

/-- The motion of a pointer that a cue is, if it is one. -/
def Cue.motionOf? (pointer : Nat) : Cue → Option MotionCue
  | .motion cue => if cue.pointer = pointer then some cue else none
  | .key _ => none

namespace Timeline

/-- The motions of a pointer at a tick. -/
def motionsOf (t : Timeline) (pointer : Nat) (tick : Tick) : List MotionCue :=
  (t.cuesAt tick).filterMap (Cue.motionOf? pointer)

/-- Bookings that make no motion of a pointer leave its motions as they are. -/
theorem motionsOf_bookAll_other {bookings : List Booking} {pointer : Nat}
    (hother : ∀ booking ∈ bookings, ∀ cue, booking.motion? = some cue → cue.pointer ≠ pointer)
    (tick : Tick) : (t.bookAll bookings).motionsOf pointer tick = t.motionsOf pointer tick := by
  obtain ⟨standing, hstanding, hrejoins⟩ := t.cuesAt_bookAll bookings tick
  have hnone : standing.filterMap (Cue.motionOf? pointer) = [] := by
    rw [List.filterMap_eq_nil_iff]
    intro cue hcue
    obtain ⟨booked, hbooked, hsame⟩ := exists_mem_left_of_forall₂ hrejoins hcue
    obtain ⟨booking, hbooking, -, hcueOf⟩ := Booking.mem_cuesAt hbooked
    cases cue with
    | key cue => rfl
    | motion cue =>
      obtain ⟨booked, rfl, hpointer, -⟩ := hsame.exists_motion
      have hmotion : booking.motion? = some booked := by
        rw [Booking.motion?, hcueOf]
        rfl
      exact if_neg (hpointer ▸ hother booking hbooking booked hmotion)
  rw [motionsOf, hstanding, List.filterMap_append, hnone, List.append_nil]
  rfl

theorem joined_book_of_none {booking : Booking} (hnone : booking.contact? = none) (tick : Tick) :
    (t.book booking).joined tick = t.joined tick := by
  funext cue
  have hshared : (t.book booking).sharedEntry tick = t.sharedEntry tick := by
    rw [sharedEntry, sharedEntry, t.contacts_book_of_none hnone]
  cases cue with
  | key cue => rfl
  | motion cue => simp only [joined, hshared]

/-- Assumes: bookings that make no contact before the last one. All their cues join the timeline as it is
before them. -/
theorem cuesAt_bookAll_steady {bookings : List Booking}
    (hsteady : ∀ booking ∈ bookings.dropLast, booking.contact? = none) (tick : Tick) :
    (t.bookAll bookings).cuesAt tick =
      t.cuesAt tick ++ (Booking.cuesAt bookings tick).map (t.joined tick) := by
  induction bookings generalizing t with
  | nil => exact (List.append_nil _).symm
  | cons booking rest ih =>
    have hrest : (t.bookAll (booking :: rest)).cuesAt tick =
        (t.book booking).cuesAt tick ++ (Booking.cuesAt rest tick).map (t.joined tick) := by
      cases rest with
      | nil => exact (List.append_nil _).symm
      | cons next rest =>
        rw [List.dropLast_cons_cons, List.forall_mem_cons] at hsteady
        rw [← joined_book_of_none hsteady.1]
        exact ih hsteady.2
    rw [hrest, cuesAt_book, Booking.cuesAt_cons, List.map_append, List.append_assoc]
    cases booking.cueAt? tick with
    | none => rfl
    | some cue => rfl

end Timeline

/-! ### Items -/

namespace Source

/-- A motion that is recorded at a tick for the item at a place: if it touches, it is on a chain of its
source. -/
def OnOwnChain (s : Source) (place : Nat) (tick : Tick) (recorded : MotionCue) : Prop :=
  recorded.action.isHover = false → recorded.entry =
    if recorded.action = .down then tick
    else Contact.tickAfter 0 (contactsFrom 0 (s.items.take place))

/-- Assumes: a timeline that has gathered what is ahead of an item. A motion that is recorded for the item,
booked by the pointer of the source, joins its chain. -/
theorem joins_joined {tick : Tick} {recorded : MotionCue}
    (hgathers : t.Gathers (gatheredAt earlier s place))
    (hproper : Touch.Proper ∅ (touchesAhead earlier s place tick))
    (hown : s.OnOwnChain place tick recorded) :
    ∃ standing, t.joined tick (.motion { recorded with pointer := earlier.length }) = .motion standing ∧
      s.Joins earlier place tick recorded standing := by
  rw [← contact_ofPointers_take] at hgathers
  have hshared := hgathers.sharedEntry hproper
  rw [← touchesAhead] at hshared
  unfold Timeline.joined
  dsimp only
  rw [hshared]
  by_cases hhover : recorded.action.isHover = true
  · rw [if_pos hhover]
    refine ⟨_, rfl, rfl, fun _ ↦ rfl, fun htouch ↦ ?_, fun htouch ↦ ?_⟩
    · exact absurd (hhover.symm.trans htouch) Bool.noConfusion
    · exact absurd (hhover.symm.trans htouch) Bool.noConfusion
  · rw [if_neg hhover]
    refine ⟨_, rfl, rfl, fun h ↦ absurd h hhover, fun _ htwo ↦ ?_, fun htouch hone ↦ ?_⟩
    · rw [if_pos htwo]
      have hsome : Touch.openings (touchesAhead earlier s place tick) ≠ [] := by
        refine Touch.openingsFrom_ne_nil rfl fun hnone ↦ ?_
        rw [Touch.down, hnone] at htwo
        exact absurd htwo (by decide)
      rw [List.getLast?_eq_some_getLast hsome]
      rfl
    · rw [if_neg (Nat.not_le.2 hone), ← Contact.tickAfter_eq]
      exact hown htouch

/-- Assumes: a timeline that has gathered what is ahead of an item. Each motion among the cues that are
recorded for the item at a tick joins its chain. -/
theorem forall₂_joins {tick : Tick} {cues : List Cue}
    (hgathers : t.Gathers (gatheredAt earlier s place))
    (hproper : Touch.Proper ∅ (touchesAhead earlier s place tick))
    (hown : ∀ recorded, .motion recorded ∈ cues → s.OnOwnChain place tick recorded) :
    List.Forall₂ (s.Joins earlier place tick) (cues.filterMap Cue.motion?)
      (((cues.map (Cue.withPointer earlier.length)).map (t.joined tick)).filterMap
        (Cue.motionOf? earlier.length)) := by
  induction cues with
  | nil => exact .nil
  | cons cue rest ih =>
    have hrest := ih fun recorded hrecorded ↦ hown recorded (List.mem_cons_of_mem cue hrecorded)
    cases cue with
    | key cue => exact hrest
    | motion recorded =>
      obtain ⟨standing, hstanding, hjoins⟩ :=
        joins_joined hgathers hproper (hown recorded List.mem_cons_self)
      have hself : Cue.motionOf? earlier.length (.motion standing) = some standing :=
        if_pos ((congrArg MotionCue.pointer hjoins.same).trans rfl)
      rw [List.map_cons, List.map_cons, Cue.withPointer, hstanding, List.filterMap_cons_some hself]
      exact .cons hjoins hrest

/-- With an item more, its contact is ahead. -/
theorem contactsFrom_take_succ (hitem : s.items[place]? = some item) :
    contactsFrom 0 (s.items.take (place + 1)) =
      contactsFrom 0 (s.items.take place) ++ (item.contact? (s.tickAt place)).toList := by
  rw [List.take_add_one, hitem, contactsFrom_append, Nat.zero_add]
  exact congrArg (contactsFrom 0 (s.items.take place) ++ ·) (List.append_nil _)

namespace PointerAct

variable {next : Option Item} {state after : PointerState} {bookings : List Booking}

/-- An act makes no contact before its last booking. -/
theorem steady (hact : PointerAct locate s s.pointer place next state item bookings after) :
    ∀ booking ∈ bookings.dropLast, booking.contact? = none := by
  have hnone : bookings.filterMap Booking.contact? = [] →
      ∀ booking ∈ bookings.dropLast, booking.contact? = none := fun hnone booking hbooking ↦
    List.filterMap_eq_nil_iff.1 hnone booking (List.mem_of_mem_dropLast hbooking)
  cases hact with
  | pause | press | lift | stay | wait => exact List.forall_mem_nil _
  | hover => exact hnone (Pointer.contact_hover _)
  | drag => exact hnone (Pointer.contact_drag _ _ _ _)

/-- Assumes: a timeline that has gathered what is ahead of an item. An act with the item leaves one that has
gathered what is ahead of the next item. -/
theorem gathers (hact : PointerAct locate s s.pointer place next state item bookings after)
    (hitem : s.items[place]? = some item) (htick : state.tick = s.tickAt place)
    (hgathers : t.Gathers (gatheredAt earlier s place)) (id : Nat) :
    (t.bookAll (bookings.map (Booking.withPointer id))).Gathers (gatheredAt earlier s (place + 1)) := by
  have hcontacts : (bookings.map (Booking.withPointer id)).filterMap Booking.contact? =
      (item.contact? (s.tickAt place)).toList := by
    rw [List.filterMap_map, ← htick, ← hact.contact_bookings]
    exact List.filterMap_congr fun booking _ ↦ Booking.contact?_withPointer id booking
  rw [gatheredAt, contactsFrom_take_succ hitem, ← List.append_assoc, ← hcontacts]
  exact hgathers.bookAll _

/-- Assumes: a timeline that has gathered what is ahead of an item. An act with the item adds, to the
motions of the pointer at a tick, those that it books there, each on the chain that it joins. -/
theorem joins (hact : PointerAct locate s s.pointer place next state item bookings after)
    (hentry : state.entry = Contact.tickAfter 0 (contactsFrom 0 (s.items.take place)))
    (hgathers : t.Gathers (gatheredAt earlier s place)) {tick : Tick}
    (hproper : Touch.Proper ∅ (touchesAhead earlier s place tick)) :
    ∃ standing,
      (t.bookAll (bookings.map (Booking.withPointer earlier.length))).motionsOf earlier.length tick =
          t.motionsOf earlier.length tick ++ standing ∧
        List.Forall₂ (s.Joins earlier place tick)
          ((Booking.cuesAt bookings tick).filterMap Cue.motion?) standing := by
  have hsteady : ∀ booking ∈ (bookings.map (Booking.withPointer earlier.length)).dropLast,
      booking.contact? = none := by
    rw [← List.map_dropLast, List.forall_mem_map]
    intro booking hbooking
    exact (Booking.contact?_withPointer _ booking).trans (hact.steady booking hbooking)
  have hown : ∀ recorded, .motion recorded ∈ Booking.cuesAt bookings tick →
      s.OnOwnChain place tick recorded := by
    intro recorded hrecorded htouch
    obtain ⟨booking, hbooking, rfl, hcue⟩ := Booking.mem_cuesAt hrecorded
    rw [← hentry]
    exact (hact.madeBy hbooking (by rw [Booking.motion?, hcue]; rfl) htouch).entry
  refine ⟨_, ?_, forall₂_joins hgathers hproper hown⟩
  rw [Timeline.motionsOf, Timeline.cuesAt_bookAll_steady hsteady, Booking.cuesAt_withPointer,
    List.filterMap_append]
  rfl

end PointerAct

end Source

/-! ### Tracks -/

/-- The motions at a tick of what is recorded for items from a place on, each with the place of its item. -/
def Booking.motionsFrom (place : Nat) (told : List (List Booking)) (tick : Tick) :
    List (MotionCue × Nat) :=
  (told.zipIdx place).flatMap fun (records, place) ↦
    ((cuesAt records tick).filterMap Cue.motion?).map fun cue ↦ (cue, place)

namespace Source

/-- Assumes: a pointer that has carried out the items before a place, and a timeline that has gathered what
is ahead of it. The track from there on adds to the motions of the pointer those that are recorded for the
items, each on the chain that it joins. -/
theorem exists_joins_pointerTrackFrom {state : PointerState} {items : List Item} {track : List Booking}
    (htrack : s.pointerTrackFrom locate s.pointer place state items = .ok track)
    (hitems : s.items.drop place = items) (hreached : s.Reached locate place state)
    (hentry : state.entry = Contact.tickAfter 0 (contactsFrom 0 (s.items.take place)))
    (hgathers : t.Gathers (gatheredAt earlier s place))
    (hproper : ∀ place tick, Touch.Proper ∅ (touchesAhead earlier s place tick)) :
    ∃ told,
      List.Forall₂ (fun x records ↦ s.Records locate x.2 x.1 records) (items.zipIdx place) told ∧
      ∀ tick, ∃ standing,
        (t.bookAll (track.map (Booking.withPointer earlier.length))).motionsOf earlier.length tick =
            t.motionsOf earlier.length tick ++ standing ∧
          List.Forall₂ (fun x standing ↦ s.Joins earlier x.2 tick x.1 standing)
            (Booking.motionsFrom place told tick) standing := by
  induction items generalizing place state track t with
  | nil =>
    cases htrack
    exact ⟨[], .nil, fun tick ↦ ⟨[], (List.append_nil _).symm, .nil⟩⟩
  | cons item rest ih =>
    obtain ⟨bookings, after, later, hact, hlater, rfl⟩ := pointerTrackFrom_cons_eq_ok.1 htrack
    obtain ⟨hitem, hrest⟩ := items_of_drop_eq_cons hitems
    rw [← hrest, List.head?_drop] at hact
    obtain ⟨records, hrecords, hcues⟩ := hact.recorded hitem hreached
    have hentryAfter : after.entry =
        Contact.tickAfter 0 (contactsFrom 0 (s.items.take (place + 1))) := by
      rw [hact.entry_after, hentry, hreached.tick, contactsFrom_take_succ hitem, Contact.tickAfter_append]
    have hgathersAfter := hact.gathers hitem hreached.tick hgathers earlier.length
    obtain ⟨told, htold, hjoinsLater⟩ :=
      ih hlater hrest (hact.reached hitem hreached) hentryAfter hgathersAfter
    refine ⟨records :: told, ?_, fun tick ↦ ?_⟩
    · rw [List.zipIdx_cons]
      exact .cons hrecords htold
    · obtain ⟨first, hfirst, hjoins⟩ := hact.joins hentry hgathers (hproper place tick)
      obtain ⟨standing, hstanding, hjoinsRest⟩ := hjoinsLater tick
      refine ⟨first ++ standing, ?_, ?_⟩
      · rw [List.map_append, Timeline.bookAll_append, hstanding, hfirst, List.append_assoc]
      · rw [hcues] at hjoins
        rw [Booking.motionsFrom, List.zipIdx_cons, List.flatMap_cons]
        refine List.rel_append ?_ hjoinsRest
        rwa [List.forall₂_map_left_iff]

/-! ### Several sources -/

/-- The tracks of pointer sources under their ordinals, which are counted from a first one. -/
def numberedTracks (track : Source → List Booking) (first : Nat) (pointers : List Source) :
    List (List Booking) :=
  (pointers.zipIdx first).map fun x ↦ (track x.1).map (Booking.withPointer x.2)

variable {track : Source → List Booking} {pointers : List Source} {first : Nat}

theorem pointer_numberedTracks {booking : Booking}
    (hbooking : booking ∈ (numberedTracks track first pointers).flatten) {cue : MotionCue}
    (hcue : booking.motion? = some cue) :
    first ≤ cue.pointer ∧ cue.pointer < first + pointers.length := by
  obtain ⟨bookings, hbookings, hmem⟩ := List.mem_flatten.1 hbooking
  obtain ⟨x, hx, rfl⟩ := List.mem_map.1 hbookings
  obtain ⟨alone, -, rfl⟩ := List.mem_map.1 hmem
  have hpointer : cue.pointer = x.2 := by
    obtain ⟨tick, cueOf⟩ := alone
    match cueOf with
    | none => cases hcue
    | some (.key _) => cases hcue
    | some (.motion _) =>
      cases hcue
      rfl
  rw [hpointer]
  exact ⟨List.le_snd_of_mem_zipIdx hx, List.snd_lt_add_of_mem_zipIdx hx⟩

theorem contacts_numberedTracks (htrack : ∀ s ∈ pointers, s.pointerTrack locate 0 = .ok (track s)) :
    (numberedTracks track first pointers).flatten.filterMap Booking.contact? =
      (pointers.map contacts).flatten := by
  rw [List.filterMap_flatten, numberedTracks, contacts_zipIdx htrack]

/-- What is booked before the track of a pointer source: the tracks of all sources that are not, and those of
the pointer sources before it. -/
def bookedBefore (track : Source → List Booking) (sources earlier : List Source) : List Booking :=
  ((ofKind sources .none ++ ofKind sources .key).map track).flatten ++
    (numberedTracks track 0 earlier).flatten

theorem flatten_orderedTracks (hpointers : ofKind sources .pointer = earlier ++ s :: later) :
    (orderedTracks track sources).flatten =
      bookedBefore track sources earlier ++ (track s).map (Booking.withPointer earlier.length) ++
        (numberedTracks track (earlier.length + 1) later).flatten := by
  have hsplit : numberedTracks track 0 (earlier ++ s :: later) = numberedTracks track 0 earlier ++
      (track s).map (Booking.withPointer earlier.length) ::
        numberedTracks track (earlier.length + 1) later := by
    rw [numberedTracks, List.zipIdx_append, List.map_append, Nat.zero_add]
    rfl
  rw [orderedTracks, hpointers, ← numberedTracks, hsplit, bookedBefore, List.flatten_append,
    List.flatten_append, List.flatten_cons, List.append_assoc, List.append_assoc]

theorem pointer_bookedBefore (hsolo : ∀ s ∈ sources, s.soloTrack locate = .ok (track s))
    {booking : Booking} (hbooking : booking ∈ bookedBefore track sources earlier) {cue : MotionCue}
    (hcue : booking.motion? = some cue) : cue.pointer < earlier.length := by
  rcases List.mem_append.1 hbooking with hother | hnumbered
  · rw [motion_others hsolo booking hother] at hcue
    cases hcue
  · have hlt := (pointer_numberedTracks hnumbered hcue).2
    rwa [Nat.zero_add] at hlt

/-- When a pointer source comes to its first item, all contacts of the pointer sources before it are
gathered. -/
theorem gathers_bookedBefore (hsolo : ∀ s ∈ sources, s.soloTrack locate = .ok (track s))
    (hearlier : ∀ r ∈ earlier, r.pointerTrack locate 0 = .ok (track r)) (s : Source) :
    (Timeline.empty.bookAll (bookedBefore track sources earlier)).Gathers (gatheredAt earlier s 0) := by
  have hnone := List.filterMap_eq_nil_iff.2 fun booking hbooking ↦
    Booking.contact?_eq_none (motion_others hsolo booking hbooking)
  have hgathers := Timeline.gathers_empty.bookAll (bookedBefore track sources earlier)
  rw [bookedBefore, List.filterMap_append, hnone, contacts_numberedTracks hearlier] at hgathers
  rw [gatheredAt, List.take_zero, contactsFrom, List.append_nil]
  exact hgathers

end Source

namespace Timeline

/-- Assumes: a timeline of sources, and a pointer source among them with some pointer sources before it. At
every tick the motions of its pointer are those that are recorded there for its items, in order. Each that
touches is on the chain that the last down entered which found no pointer down, if what is ahead of it leaves
two of them down. Otherwise a down is on a chain of its own, and anything else on the one that the last
contact of the source before the item entered. No other source books a motion of this pointer. -/
theorem exists_joins_of_ofSources (ht : ofSources locate sources = .ok t)
    (hpointers : Source.ofKind sources .pointer = earlier ++ s :: later) :
    ∃ told, List.Forall₂ (fun x records ↦ s.Records locate x.2 x.1 records) s.items.zipIdx told ∧
      ∀ tick, List.Forall₂ (fun x standing ↦ s.Joins earlier x.2 tick x.1 standing)
        (Booking.motionsFrom 0 told tick) (t.motionsOf earlier.length tick) := by
  obtain ⟨track, hsolo, rfl⟩ := exists_track_of_ofSources ht
  have htrack : ∀ r ∈ earlier ++ s :: later, r.pointerTrack locate 0 = .ok (track r) := fun r hr ↦
    Source.pointerTrack_of_mem hsolo (hpointers ▸ hr)
  obtain ⟨hearlier, hself⟩ := List.forall_mem_append.1 htrack
  have hs := hself s List.mem_cons_self
  have hproper : ∀ place tick, Touch.Proper ∅ (Source.touchesAhead earlier s place tick) :=
    Source.proper_touchesAhead (fun r hr ↦ Source.takeTurns_contacts (hearlier r hr))
      (Source.takeTurns_contacts hs)
  obtain ⟨told, htold, hjoins⟩ := Source.exists_joins_pointerTrackFrom
    (Source.pointerTrackFrom_of_pointerTrack hs) rfl Source.reached_zero rfl
    (Source.gathers_bookedBefore hsolo hearlier s) hproper
  refine ⟨told, htold, fun tick ↦ ?_⟩
  obtain ⟨standing, hstanding, hforall⟩ := hjoins tick
  rw [Source.flatten_orderedTracks hpointers, bookAll_append, motionsOf_bookAll_other, bookAll_append,
    hstanding, motionsOf_bookAll_other, motionsOf, cuesAt_empty]
  · exact hforall
  · intro booking hbooking cue hcue
    exact (Source.pointer_bookedBefore hsolo hbooking hcue).ne
  · intro booking hbooking cue hcue
    exact (Nat.lt_of_succ_le (Source.pointer_numberedTracks hbooking hcue).1).ne'

/-- A finger that is down from the start for two quanta. -/
def firstFinger : Source :=
  { id := "f"
    kind := .pointer
    pointerType := some .touch
    items := [
      .pointerMove { duration := some 0, origin := .viewport, x := some 0, y := some 0,
                     pressure := none, size := none },
      .pointerDown none, .pause (some 10), .pointerUp none] }

/-- A finger that goes down after a quantum, drags for two and goes up. -/
def secondFinger : Source :=
  { id := "g"
    kind := .pointer
    pointerType := some .touch
    items := [
      .pointerMove { duration := some 0, origin := .viewport, x := some 9, y := some 0,
                     pressure := none, size := none },
      .pause (some 5), .pointerDown none,
      .pointerMove { duration := some 10, origin := .pointer, x := some 10, y := none,
                     pressure := none, size := none },
      .pointerUp none] }

/-- The second finger enters a chain of its own, drags on that of the first as long as both are down, and is
back on its own at the tick at which the first goes up. -/
theorem exists_joins_secondFinger :
    ∃ t, ofSources (fun _ ↦ none) [firstFinger, secondFinger] = .ok t ∧
      Source.ofKind [firstFinger, secondFinger] .pointer = [firstFinger] ++ secondFinger :: [] ∧
        ([0, 5, 10, 15].map fun tick ↦ (t.motionsOf 1 tick).map MotionCue.entry) =
          [[], [5, 0], [5], [5]] ∧
        ∃ told, List.Forall₂ (fun x records ↦ secondFinger.Records (fun _ ↦ none) x.2 x.1 records)
            secondFinger.items.zipIdx told ∧
          ∀ tick, List.Forall₂
            (fun x standing ↦ secondFinger.Joins [firstFinger] x.2 tick x.1 standing)
            (Booking.motionsFrom 0 told tick) (t.motionsOf 1 tick) := by
  have hpointers : Source.ofKind [firstFinger, secondFinger] .pointer =
      [firstFinger] ++ secondFinger :: [] := rfl
  refine ⟨_, rfl, hpointers, ?_, exists_joins_of_ofSources rfl hpointers⟩
  decide +kernel

end Timeline

end ActionReplay
