import ActionReplay.Proofs.Track.Contacts
import ActionReplay.Timeline.Compile

/-!
# What bookings leave on a timeline

Booking a list of cues adds, at every tick, the cues booked there, after those that were there, and
in order (`cuesAt_bookAll`). A booking is taken as it stands (`Timeline.put`), once its cue has got the
entry tick with which it joins (`Timeline.book_eq_put`). What a cue looks like afterwards differs from what was booked in one
respect only: a motion that touches may have got the entry tick of the chain it joined
(`Cue.Rejoins`). A timeline shares no entry tick as long as its contacts are those of a single
pointer, so the first pointer that is booked keeps every cue as it is (`cuesAt_bookAll_alone`), and
so do tracks without motions (`cuesAt_bookAll_motionless`).
-/

set_option autoImplicit false
set_option relaxedAutoImplicit false

namespace ActionReplay

/-! ### Cues before and after -/

/-- A cue as it was booked, and as it stands on a timeline: only the entry tick may differ, and only
if the cue is a motion that touches. -/
def Cue.Rejoins : Cue → Cue → Prop
  | .motion booked, .motion standing =>
    standing = { booked with entry := standing.entry } ∧
      (booked.action.isHover = true → standing.entry = booked.entry)
  | .key booked, .key standing => standing = booked
  | _, _ => False

namespace Booking

/-- The cue that a booking puts at a tick. -/
def cueAt? (tick : Tick) (booking : Booking) : Option Cue :=
  if booking.tick = tick then booking.cue else none

/-- The cues that bookings put at a tick, in order. -/
def cuesAt (bookings : List Booking) (tick : Tick) : List Cue :=
  bookings.filterMap (cueAt? tick)

theorem cuesAt_cons (booking : Booking) (rest : List Booking) (tick : Tick) :
    cuesAt (booking :: rest) tick = (booking.cueAt? tick).toList ++ cuesAt rest tick := by
  unfold cuesAt
  rw [List.filterMap_cons]
  cases booking.cueAt? tick with
  | none => rfl
  | some cue => rfl

/-- A tick that is only waited for holds no cue. -/
theorem cuesAt_rest (reached tick : Tick) : cuesAt [.rest reached] tick = [] := by
  rw [cuesAt_cons, cueAt?]
  exact congrArg (fun cue : Option Cue ↦ cue.toList ++ []) (ite_self _)

theorem cuesAt_append (before later : List Booking) (tick : Tick) :
    cuesAt (before ++ later) tick = cuesAt before tick ++ cuesAt later tick :=
  List.filterMap_append

theorem cuesAt_flatten (tracks : List (List Booking)) (tick : Tick) :
    cuesAt tracks.flatten tick = tracks.flatMap fun track ↦ cuesAt track tick := by
  induction tracks with
  | nil => rfl
  | cons track rest ih => rw [List.flatten_cons, cuesAt_append, ih, List.flatMap_cons]

theorem mem_cuesAt {bookings : List Booking} {tick : Tick} {cue : Cue}
    (hcue : cue ∈ cuesAt bookings tick) :
    ∃ booking ∈ bookings, booking.tick = tick ∧ booking.cue = some cue := by
  obtain ⟨booking, hbooking, hat⟩ := List.mem_filterMap.1 hcue
  unfold cueAt? at hat
  split_ifs at hat with htick
  exact ⟨booking, hbooking, htick, hat⟩

end Booking

namespace Timeline

/-! ### Joining a timeline -/

theorem rejoins_joined (t : Timeline) (tick : Tick) (cue : Cue) :
    cue.Rejoins (t.joined tick cue) := by
  cases cue with
  | key cue => rfl
  | motion cue =>
    simp only [joined]
    split_ifs with hhover
    · exact ⟨rfl, fun _ ↦ rfl⟩
    · exact ⟨rfl, fun h ↦ absurd h hhover⟩

/-- Without a shared entry tick a cue joins as it was booked. -/
theorem joined_eq_self {t : Timeline} {tick : Tick} (hnone : t.sharedEntry tick = none)
    (cue : Cue) : t.joined tick cue = cue := by
  cases cue with
  | key cue => rfl
  | motion cue =>
    simp only [joined, hnone]
    split_ifs with hhover
    · rfl
    · rfl

theorem contact?_joined (t : Timeline) (tick other : Tick) (cue : Cue) :
    (t.joined tick cue).contact? other = cue.contact? other := by
  cases cue with
  | key cue => rfl
  | motion cue =>
    simp only [joined]
    split_ifs with hhover
    · rfl
    · rfl

/-! ### One booking -/

/-- Takes a booking as it stands: its cue keeps the entry tick that it carries. -/
def put (t : Timeline) (booking : Booking) : Timeline :=
  match booking.cue with
  | none => t.addRest booking.tick
  | some cue => t.add booking.tick cue

/-- A booking with the entry tick that its cue gets when it joins a timeline. -/
def rejoined (t : Timeline) (booking : Booking) : Booking :=
  { booking with cue := booking.cue.map (t.joined booking.tick) }

theorem book_eq_put (t : Timeline) (booking : Booking) :
    t.book booking = t.put (t.rejoined booking) := by
  unfold book put rejoined
  cases booking.cue with
  | none => rfl
  | some cue => rfl

theorem cueAt?_rejoined (t : Timeline) (booking : Booking) (tick : Tick) :
    (t.rejoined booking).cueAt? tick = (booking.cueAt? tick).map (t.joined tick) := by
  unfold Booking.cueAt? rejoined
  dsimp only
  split_ifs with htick
  · rw [htick]
  · rfl

theorem contact?_rejoined (t : Timeline) (booking : Booking) :
    (t.rejoined booking).contact? = booking.contact? := by
  unfold Booking.contact? rejoined
  cases booking.cue with
  | none => rfl
  | some cue => exact t.contact?_joined booking.tick booking.tick cue

theorem mem_ticks_put {t : Timeline} {booking : Booking} {tick : Tick} :
    tick ∈ (t.put booking).ticks ↔ tick = booking.tick ∨ tick ∈ t.ticks := by
  unfold put
  cases booking.cue with
  | none => exact mem_ticks_addRest
  | some cue => exact mem_ticks_add

theorem cuesAt_put (t : Timeline) (booking : Booking) (tick : Tick) :
    (t.put booking).cuesAt tick = t.cuesAt tick ++ (booking.cueAt? tick).toList := by
  obtain ⟨taken, cue⟩ := booking
  unfold put Booking.cueAt?
  cases cue with
  | none => simp
  | some cue =>
    by_cases htick : taken = tick
    · simp [cuesAt_add, htick]
    · simp [cuesAt_add, htick, Ne.symm htick]

theorem contacts_put (t : Timeline) (booking : Booking) :
    (t.put booking).contacts =
      booking.contact?.toList.foldl (fun contacts contact ↦ contact.insert contacts) t.contacts := by
  obtain ⟨taken, cue⟩ := booking
  cases cue with
  | none => rfl
  | some cue =>
    change (t.add taken cue).contacts = (cue.contact? taken).toList.foldl _ t.contacts
    unfold add
    cases cue.contact? taken with
    | none => rfl
    | some contact => rfl

theorem mem_ticks_book {t : Timeline} {booking : Booking} {tick : Tick} :
    tick ∈ (t.book booking).ticks ↔ tick = booking.tick ∨ tick ∈ t.ticks := by
  rw [book_eq_put]
  exact mem_ticks_put

theorem cuesAt_book (t : Timeline) (booking : Booking) (tick : Tick) :
    (t.book booking).cuesAt tick =
      t.cuesAt tick ++ ((booking.cueAt? tick).map (t.joined tick)).toList := by
  rw [book_eq_put, cuesAt_put, cueAt?_rejoined]

/-- A booking without a contact leaves the contacts of the timeline as they were. -/
theorem contacts_book_of_none (t : Timeline) {booking : Booking} (hnone : booking.contact? = none) :
    (t.book booking).contacts = t.contacts := by
  rw [book_eq_put, contacts_put, contact?_rejoined, hnone]
  rfl

theorem contacts_book_of_some (t : Timeline) {booking : Booking} {contact : Contact}
    (hsome : booking.contact? = some contact) :
    (t.book booking).contacts = contact.insert t.contacts := by
  rw [book_eq_put, contacts_put, contact?_rejoined, hsome]
  rfl

/-! ### Many bookings -/

/-- At every tick the cues booked there stand after those that were there, in order. -/
theorem cuesAt_bookAll (t : Timeline) (bookings : List Booking) (tick : Tick) :
    ∃ standing, (t.bookAll bookings).cuesAt tick = t.cuesAt tick ++ standing ∧
      List.Forall₂ Cue.Rejoins (Booking.cuesAt bookings tick) standing := by
  induction bookings generalizing t with
  | nil => exact ⟨[], (List.append_nil _).symm, .nil⟩
  | cons booking rest ih =>
    obtain ⟨later, hlater, hrejoins⟩ := ih (t.book booking)
    refine ⟨((booking.cueAt? tick).map (t.joined tick)).toList ++ later, ?_, ?_⟩
    · rw [← List.append_assoc, ← cuesAt_book]
      exact hlater
    · rw [Booking.cuesAt_cons]
      refine List.rel_append ?_ hrejoins
      cases booking.cueAt? tick with
      | none => exact .nil
      | some cue => exact .cons (t.rejoins_joined tick cue) .nil

theorem mem_ticks_bookAll {t : Timeline} {bookings : List Booking} {tick : Tick} :
    tick ∈ (t.bookAll bookings).ticks ↔
      tick ∈ t.ticks ∨ ∃ booking ∈ bookings, booking.tick = tick := by
  induction bookings generalizing t with
  | nil => simp [bookAll]
  | cons booking rest ih =>
    change tick ∈ ((t.book booking).bookAll rest).ticks ↔ _
    rw [ih, mem_ticks_book, List.exists_mem_cons_iff, or_assoc, eq_comm]
    exact or_left_comm

theorem bookAll_append (t : Timeline) (before later : List Booking) :
    t.bookAll (before ++ later) = (t.bookAll before).bookAll later :=
  List.foldl_append

/-- Booking tracks one after another is booking all their bookings in a row. -/
theorem foldl_bookAll (t : Timeline) (tracks : List (List Booking)) :
    tracks.foldl bookAll t = t.bookAll tracks.flatten :=
  List.foldl_flatten.symm

/-- Bookings without motions stand as they were booked, and make no contact. -/
theorem cuesAt_bookAll_motionless {t : Timeline} {bookings : List Booking}
    (hmotion : ∀ booking ∈ bookings, booking.motion? = none) :
    (∀ tick, (t.bookAll bookings).cuesAt tick = t.cuesAt tick ++ Booking.cuesAt bookings tick) ∧
      (t.bookAll bookings).contacts = t.contacts := by
  induction bookings generalizing t with
  | nil => exact ⟨fun tick ↦ (List.append_nil _).symm, rfl⟩
  | cons booking rest ih =>
    obtain ⟨hfirst, hrest⟩ := List.forall_mem_cons.1 hmotion
    obtain ⟨hcues, hcontacts⟩ := ih (t := t.book booking) hrest
    have hself : ∀ tick, (booking.cueAt? tick).map (t.joined tick) = booking.cueAt? tick := by
      intro tick
      obtain ⟨at_, cue⟩ := booking
      match cue with
      | none => simp [Booking.cueAt?]
      | some (.key cue) =>
        unfold Booking.cueAt?
        split_ifs with htick
        · rfl
        · rfl
      | some (.motion cue) => cases hfirst
    constructor
    · intro tick
      rw [Booking.cuesAt_cons, ← List.append_assoc, ← hself tick, ← cuesAt_book]
      exact hcues tick
    · exact hcontacts.trans (t.contacts_book_of_none (Booking.contact?_eq_none hfirst))

end Timeline

/-- A contact that no other is ahead of is put at the end. -/
theorem Contact.insert_eq_append {contact : Contact} {contacts : List Contact}
    (hlast : ∀ other ∈ contacts, other.tick ≤ contact.tick) :
    contact.insert contacts = contacts ++ [contact] := by
  induction contacts with
  | nil => rfl
  | cons first rest ih =>
    obtain ⟨hfirst, hrest⟩ := List.forall_mem_cons.1 hlast
    rw [Contact.insert, if_neg (not_lt.2 hfirst), ih hrest]
    rfl

namespace Timeline

theorem sharedEntry_eq_none {t : Timeline} (halternate : Contact.Alternate false t.contacts)
    (tick : Tick) : t.sharedEntry tick = none := by
  have hsplit : Contact.Alternate false (t.contacts.takeWhile (fun contact ↦ contact.tick ≤ tick) ++
      t.contacts.dropWhile fun contact ↦ contact.tick ≤ tick) := by
    rwa [List.takeWhile_append_dropWhile]
  exact Contact.sharedEntry_eq_none (Contact.alternate_append.1 hsplit).1

/-- As long as the contacts of the timeline are those of a single pointer, its cues stand as they
were booked. One contact more on the timeline is one contact less to come. -/
theorem cuesAt_bookAll_alone {t : Timeline} {bookings : List Booking}
    (halternate : Contact.Alternate false
      (t.contacts ++ bookings.filterMap Booking.contact?))
    (hordered : (t.contacts ++ bookings.filterMap Booking.contact?).Pairwise
      fun a b ↦ a.tick ≤ b.tick) (tick : Tick) :
    (t.bookAll bookings).cuesAt tick = t.cuesAt tick ++ Booking.cuesAt bookings tick := by
  induction bookings generalizing t with
  | nil => exact (List.append_nil _).symm
  | cons booking rest ih =>
    have hnone : t.sharedEntry tick = none :=
      sharedEntry_eq_none (Contact.alternate_append.1 halternate).1 tick
    have hself : (booking.cueAt? tick).map (t.joined tick) = booking.cueAt? tick := by
      cases booking.cueAt? tick with
      | none => rfl
      | some cue => exact congrArg some (joined_eq_self hnone cue)
    have hcontacts : (t.book booking).contacts ++ rest.filterMap Booking.contact? =
        t.contacts ++ (booking :: rest).filterMap Booking.contact? := by
      cases hcontact : booking.contact? with
      | none => rw [t.contacts_book_of_none hcontact, List.filterMap_cons_none hcontact]
      | some contact =>
        rw [List.filterMap_cons_some hcontact] at hordered ⊢
        have hlast : ∀ other ∈ t.contacts, other.tick ≤ contact.tick := fun other hother ↦
          (List.pairwise_append.1 hordered).2.2 other hother contact List.mem_cons_self
        rw [t.contacts_book_of_some hcontact, Contact.insert_eq_append hlast, List.append_assoc]
        rfl
    rw [← hcontacts] at halternate hordered
    rw [Booking.cuesAt_cons, ← List.append_assoc, ← hself, ← cuesAt_book]
    exact ih halternate hordered

end Timeline

end ActionReplay
