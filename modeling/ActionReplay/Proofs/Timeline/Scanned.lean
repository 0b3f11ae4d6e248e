import ActionReplay.Proofs.Timeline.Shared
import ActionReplay.Proofs.Timeline.Volume

/-!
# The contacts beside the cues

A timeline keeps its contacts twice: among the cues of each tick, and in a list of their own, which is all
that `Timeline.sharedEntry` looks at. The two agree tick by tick, and the list is in tick order
(`Timeline.Indexed`). A rest keeps this, since it changes neither, and so does a cue at any tick, whether
it is a contact or not (`Timeline.Indexed.addRest`, `Timeline.Indexed.add`). So it holds of every timeline
that takes bookings one after another, in whatever order their ticks come
(`Timeline.indexed_ofBookings`), and the shared entry that is read off the list is the one that a scan of
all cues would find (`Timeline.Indexed.sharedEntry_eq`). What else a timeline tells of the bookings it took
stands beside it in `Timeline.accounts_ofBookings`.
-/

set_option autoImplicit false
set_option relaxedAutoImplicit false

namespace ActionReplay

variable {t : Timeline} {tick : Tick}

/-- A cue makes its contact at the tick at which it stands. -/
theorem Cue.tick_of_contact? {cue : Cue} {contact : Contact}
    (hcontact : cue.contact? tick = some contact) : contact.tick = tick :=
  @Booking.tick_of_contact? ⟨tick, some cue⟩ _ hcontact

namespace Timeline

/-! ### Taking bookings -/

/-- The timeline that takes bookings one after another, in whatever order their ticks come. -/
def ofBookings (bookings : List Booking) : Timeline :=
  bookings.foldl put empty

theorem ofBookings_concat (bookings : List Booking) (booking : Booking) :
    ofBookings (bookings ++ [booking]) = (ofBookings bookings).put booking :=
  List.foldl_concat ..

theorem mem_ticks_ofBookings {bookings : List Booking} :
    tick ∈ (ofBookings bookings).ticks ↔ ∃ booking ∈ bookings, booking.tick = tick := by
  induction bookings using List.reverseRecOn with
  | nil => simp [ofBookings, ticks, empty]
  | append_singleton earlier booking ih =>
    rw [ofBookings_concat, mem_ticks_put, ih]
    simp [or_comm, eq_comm]

theorem cuesAt_ofBookings (bookings : List Booking) (tick : Tick) :
    (ofBookings bookings).cuesAt tick = Booking.cuesAt bookings tick := by
  induction bookings using List.reverseRecOn with
  | nil => exact cuesAt_empty tick
  | append_singleton earlier booking ih =>
    rw [ofBookings_concat, cuesAt_put, ih, Booking.cuesAt_append, Booking.cuesAt_cons]
    exact congrArg _ (List.append_nil _).symm

/-- The contacts of a timeline are those of its bookings, put one by one where their ticks want them. -/
theorem contacts_ofBookings (bookings : List Booking) :
    (ofBookings bookings).contacts =
      (bookings.filterMap Booking.contact?).foldl (fun contacts contact ↦ contact.insert contacts)
        [] := by
  induction bookings using List.reverseRecOn with
  | nil => rfl
  | append_singleton earlier booking ih =>
    rw [ofBookings_concat, contacts_put, ih, List.filterMap_append, List.foldl_append]
    cases hcontact : booking.contact? with
    | none => rw [List.filterMap_cons_none hcontact]; rfl
    | some contact => rw [List.filterMap_cons_some hcontact]; rfl

/-! ### The two records of contacts -/

/-- The list of contacts is in tick order, and holds for each tick the contacts among its cues, in the
order of the cues. -/
structure Indexed (t : Timeline) : Prop where
  ordered : t.Ordered
  during : ∀ tick, Contact.during t.contacts tick = (t.cuesAt tick).filterMap (Cue.contact? tick)

theorem indexed_empty : empty.Indexed := by
  refine ⟨.nil, fun tick ↦ ?_⟩
  rw [cuesAt_empty]
  rfl

theorem Indexed.addRest (ht : t.Indexed) (tick : Tick) : (t.addRest tick).Indexed := by
  refine ⟨ht.ordered, fun other ↦ ?_⟩
  rw [cuesAt_addRest]
  exact ht.during other

theorem Indexed.add (ht : t.Indexed) (tick : Tick) (cue : Cue) : (t.add tick cue).Indexed := by
  have hcues : ∀ other, ((t.add tick cue).cuesAt other).filterMap (Cue.contact? other) =
      Contact.during t.contacts other ++
        if other = tick then (cue.contact? tick).toList else [] := by
    intro other
    rw [cuesAt_add, ht.during]
    by_cases hhere : other = tick
    · subst hhere
      rw [if_pos rfl, if_pos rfl, List.filterMap_append]
      cases hcontact : cue.contact? other with
      | none => rw [List.filterMap_cons_none hcontact]; rfl
      | some contact => rw [List.filterMap_cons_some hcontact]; rfl
    · rw [if_neg hhere, if_neg hhere, List.append_nil]
  cases hcontact : cue.contact? tick with
  | none =>
    have hsame : (t.add tick cue).contacts = t.contacts := by rw [Timeline.add, hcontact]
    refine ⟨?_, fun other ↦ ?_⟩
    · rw [Ordered, hsame]
      exact ht.ordered
    · rw [hcues, hsame, hcontact, Option.toList_none, ite_self, List.append_nil]
  | some contact =>
    have hinsert : (t.add tick cue).contacts = contact.insert t.contacts := by
      rw [Timeline.add, hcontact]
    have htick := Cue.tick_of_contact? hcontact
    refine ⟨?_, fun other ↦ ?_⟩
    · rw [Ordered, hinsert]
      exact Contact.pairwise_insert ht.ordered
    · rw [hcues, hinsert, Contact.during_insert ht.ordered, Contact.during_append, hcontact]
      congr 1
      by_cases hhere : other = tick
      · rw [if_pos hhere]
        exact List.filter_cons_of_pos (decide_eq_true (htick.trans hhere.symm))
      · rw [if_neg hhere]
        exact List.filter_cons_of_neg fun hsame ↦ hhere (htick ▸ (of_decide_eq_true hsame).symm)

theorem Indexed.put (ht : t.Indexed) (booking : Booking) : (t.put booking).Indexed := by
  unfold Timeline.put
  cases booking.cue with
  | none => exact ht.addRest booking.tick
  | some cue => exact ht.add booking.tick cue

theorem indexed_ofBookings (bookings : List Booking) : (ofBookings bookings).Indexed := by
  induction bookings using List.reverseRecOn with
  | nil => exact indexed_empty
  | append_singleton earlier booking ih =>
    rw [ofBookings_concat]
    exact ih.put booking

/-- A scan of the cues up to a tick finds the contacts that the list holds up to it. -/
theorem Indexed.contactsUpTo_eq (ht : t.Indexed) (tick : Tick) :
    t.contactsUpTo tick = t.contacts.takeWhile fun contact ↦ contact.tick ≤ tick := by
  have hreached : (t.contacts.filter fun contact ↦ contact.tick ≤ tick) =
      Contact.before t.contacts (tick + 1) :=
    List.filter_congr fun contact _ ↦ by rw [decide_eq_decide, Nat.lt_succ_iff]
  have hticks : (t.ticks.filter fun reached ↦ reached ≤ tick) =
      t.ticks.filter fun reached ↦ reached < tick + 1 :=
    List.filter_congr fun reached _ ↦ by rw [decide_eq_decide, Nat.lt_succ_iff]
  have hnone : ∀ reached, reached ∉ t.ticks →
      (t.cuesAt reached).filterMap (Cue.contact? reached) = [] := by
    intro reached hreached
    rw [cuesAt_eq_nil hreached]
    rfl
  calc t.contactsUpTo tick
      = (t.ticks.filter fun reached ↦ reached ≤ tick).flatMap fun reached ↦
          (t.cuesAt reached).filterMap (Cue.contact? reached) := by
        rw [contactsUpTo, toList_eq, List.filter_map, List.flatMap_map]
        rfl
    _ = (List.range (tick + 1)).flatMap (Contact.during t.contacts) := by
        rw [hticks, flatMap_ticks_before hnone]
        exact List.flatMap_congr fun reached _ ↦ (ht.during reached).symm
    _ = t.contacts.takeWhile fun contact ↦ contact.tick ≤ tick := by
        rw [Contact.flatMap_during ht.ordered, ← hreached, Contact.takeWhile_eq_filter ht.ordered]

theorem Indexed.sharedEntry_eq (ht : t.Indexed) (tick : Tick) :
    t.sharedEntry tick = t.scannedEntry tick := by
  rw [sharedEntry, scannedEntry, ht.contactsUpTo_eq]

/-! ### What a timeline tells of its bookings -/

/-- What a timeline tells of the bookings it took. Going through it visits the ticks of the bookings in
strictly increasing order, each with the cues that were booked there, in the order in which they came; it
has as many cues as were booked; and the shared entry at a tick is the one that a scan of all cues up to
the tick finds, and would be the same if only the contacts among the bookings had come. -/
structure Accounts (t : Timeline) (bookings : List Booking) : Prop where
  ascending : (t.toList.map Prod.fst).Pairwise (· < ·)
  visited : ∀ tick, tick ∈ t.toList.map Prod.fst ↔ ∃ booking ∈ bookings, booking.tick = tick
  shown : ∀ entry ∈ t.toList, entry.2 = t.cuesAt entry.1
  cues : ∀ tick, t.cuesAt tick =
    bookings.filterMap fun booking ↦ if booking.tick = tick then booking.cue else none
  counted : t.cueCount = bookings.countP fun booking ↦ booking.cue.isSome
  scanned : ∀ tick, t.sharedEntry tick = t.scannedEntry tick
  unmoved : ∀ tick, t.sharedEntry tick =
    (ofBookings (bookings.filter fun booking ↦ booking.contact?.isSome)).sharedEntry tick

theorem map_fst_toList (t : Timeline) : t.toList.map Prod.fst = t.ticks := by
  rw [toList_eq, List.map_map]
  exact List.map_id _

/-- Only contacts among the bookings matter to what is shared. -/
theorem contacts_ofBookings_filter (bookings : List Booking) :
    (ofBookings (bookings.filter fun booking ↦ booking.contact?.isSome)).contacts =
      (ofBookings bookings).contacts := by
  have hsame : (bookings.filter fun booking ↦ booking.contact?.isSome).filterMap Booking.contact? =
      bookings.filterMap Booking.contact? := by
    rw [List.filterMap_filter]
    refine List.filterMap_congr fun booking _ ↦ ?_
    cases booking.contact? with
    | none => rfl
    | some contact => rfl
  rw [contacts_ofBookings, contacts_ofBookings, hsame]

/-- A timeline accounts for all bookings it has taken, in whatever order their ticks came. -/
theorem accounts_ofBookings (bookings : List Booking) :
    (ofBookings bookings).Accounts bookings := by
  constructor
  · rw [map_fst_toList]
    exact ticks_pairwise _
  · intro tick
    rw [map_fst_toList]
    exact mem_ticks_ofBookings
  · intro entry hentry
    rw [toList_eq] at hentry
    obtain ⟨tick, -, rfl⟩ := List.mem_map.1 hentry
    rfl
  · exact cuesAt_ofBookings bookings
  · exact cueCount_eq_of_length fun tick ↦ congrArg List.length (cuesAt_ofBookings bookings tick)
  · exact (indexed_ofBookings bookings).sharedEntry_eq
  · intro tick
    rw [sharedEntry, sharedEntry, contacts_ofBookings_filter]

end Timeline

end ActionReplay
