import ActionReplay.Proofs.Timeline.Pointers
import ActionReplay.Proofs.Track.Words
import Mathlib.Data.List.TakeWhile

/-!
# Timelines keep to the clock

All ticks of a compiled timeline are multiples of the quantum that are not past the longest
timeline, whether anything happens at them or not. Every cue belongs to a chain that was entered at
a multiple of the quantum, no later than the tick of the cue. This is so for the chains that single
sources enter, and for the chains that several pointers share, since those were entered by a contact
on the timeline (`Timeline.onClock_of_ofSources`). No computation that leads there would wrap in
machine words, also in a payload that is refused in the end (`Timeline.onClock_of_compile`).
-/

set_option autoImplicit false
set_option relaxedAutoImplicit false

namespace ActionReplay

variable {locate : Locator} {sources : List Source}

/-! ### Shared chains -/

namespace ContactCount

/-- The first down of a count is the one it started with, or one of the contacts counted. -/
theorem first_foldl_step {contacts : List Contact} {count : ContactCount} {tick : Tick}
    (hfirst : (contacts.foldl step count).first = some tick) :
    count.first = some tick ∨ ∃ contact ∈ contacts, contact.tick = tick := by
  induction contacts generalizing count with
  | nil => exact .inl hfirst
  | cons contact rest ih =>
    rcases ih hfirst with hstep | ⟨later, hlater, htick⟩
    · unfold step at hstep
      split_ifs at hstep with hdown hnone
      · exact .inr ⟨contact, List.mem_cons_self, Option.some.inj hstep⟩
      · exact .inl hstep
      · exact .inl hstep
    · exact .inr ⟨later, List.mem_cons_of_mem _ hlater, htick⟩

end ContactCount

/-- A booking makes its contact at its own tick. -/
theorem Booking.tick_of_contact? {booking : Booking} {contact : Contact}
    (hcontact : booking.contact? = some contact) : contact.tick = booking.tick := by
  obtain ⟨tick, cue⟩ := booking
  match cue with
  | none => cases hcontact
  | some (.key cue) => cases hcontact
  | some (.motion cue) =>
    simp only [contact?, Option.bind_some, Cue.contact?] at hcontact
    split at hcontact
    · cases hcontact
      rfl
    · cases hcontact
      rfl
    · cases hcontact

theorem Contact.mem_insert {contact other : Contact} {contacts : List Contact} :
    other ∈ contact.insert contacts ↔ other = contact ∨ other ∈ contacts := by
  induction contacts with
  | nil => simp [Contact.insert]
  | cons first rest ih =>
    unfold Contact.insert
    split_ifs with hbefore
    · exact List.mem_cons
    · rw [List.mem_cons, ih, List.mem_cons]
      exact or_left_comm

namespace Timeline

/-- A shared chain was entered by a contact, at a tick that is not later. -/
theorem exists_contact_of_sharedEntry {t : Timeline} {tick entry : Tick}
    (hentry : t.sharedEntry tick = some entry) :
    entry ≤ tick ∧ ∃ contact ∈ t.contacts, contact.tick = entry := by
  unfold sharedEntry ContactCount.sharedEntry at hentry
  split_ifs at hentry with hshared
  rcases ContactCount.first_foldl_step hentry with hnone | ⟨contact, hcontact, rfl⟩
  · cases hnone
  · have hreached := List.mem_takeWhile_imp hcontact
    exact ⟨of_decide_eq_true hreached, contact, (List.takeWhile_prefix _).subset hcontact, rfl⟩

/-! ### Bookings -/

/-- A timeline whose ticks, cues and contacts are on the clock. -/
structure OnClock (t : Timeline) : Prop where
  ticks : ∀ tick ∈ t.ticks, ActionReplay.OnClock tick
  entries : ∀ tick, ∀ cue ∈ t.cuesAt tick, EnteredBy cue.entry tick
  contacts : ∀ contact ∈ t.contacts, quantum ∣ contact.tick

variable {t : Timeline}

theorem onClock_empty : empty.OnClock := by
  refine ⟨?_, ?_, List.forall_mem_nil _⟩
  · simp [empty, ticks]
  · intro tick cue hcue
    rw [cuesAt_empty] at hcue
    exact absurd hcue List.not_mem_nil

/-- A cue that joins a timeline belongs to a chain that was entered before, whether it keeps its own
chain or joins a shared one. -/
theorem OnClock.enteredBy_joined (ht : t.OnClock) {tick : Tick} {cue : Cue}
    (hcue : EnteredBy cue.entry tick) : EnteredBy (t.joined tick cue).entry tick := by
  cases cue with
  | key cue => exact hcue
  | motion cue =>
    simp only [joined]
    split_ifs with hhover
    · exact hcue
    · cases hshared : t.sharedEntry tick with
      | none => exact hcue
      | some entry =>
        obtain ⟨hle, contact, hcontact, rfl⟩ := exists_contact_of_sharedEntry hshared
        exact ⟨ht.contacts contact hcontact, hle⟩

theorem OnClock.book (ht : t.OnClock) {booking : Booking} (hbooking : booking.OnClock) :
    (t.book booking).OnClock := by
  refine ⟨?_, ?_, ?_⟩
  · intro tick htick
    rcases mem_ticks_book.1 htick with rfl | htick
    · exact hbooking.tick
    · exact ht.ticks tick htick
  · intro tick cue hcue
    rw [cuesAt_book, List.mem_append] at hcue
    rcases hcue with hcue | hcue
    · exact ht.entries tick cue hcue
    · obtain ⟨booked, hbooked, rfl⟩ := Option.map_eq_some_iff.1 (Option.mem_toList.1 hcue)
      unfold Booking.cueAt? at hbooked
      split_ifs at hbooked with htick
      subst htick
      exact ht.enteredBy_joined (hbooking.entry booked hbooked)
  · cases hcontact : booking.contact? with
    | none =>
      rw [t.contacts_book_of_none hcontact]
      exact ht.contacts
    | some contact =>
      rw [t.contacts_book_of_some hcontact]
      intro other hother
      rcases Contact.mem_insert.1 hother with rfl | hother
      · rw [Booking.tick_of_contact? hcontact]
        exact hbooking.tick.dvd
      · exact ht.contacts other hother

theorem OnClock.bookAll (ht : t.OnClock) {bookings : List Booking}
    (hbookings : ∀ booking ∈ bookings, booking.OnClock) : (t.bookAll bookings).OnClock := by
  induction bookings generalizing t with
  | nil => exact ht
  | cons booking rest ih =>
    obtain ⟨hfirst, hrest⟩ := List.forall_mem_cons.1 hbookings
    exact ih (ht.book hfirst) hrest

end Timeline

/-! ### Sources -/

namespace Source

theorem onClock_soloTrack {s : Source} {track : List Booking}
    (htrack : s.soloTrack locate = .ok track) : ∀ booking ∈ track, booking.OnClock :=
  soloTrack_elim htrack (fun _ ↦ onClock_restTrack) (fun _ ↦ onClock_keyTrack)
    fun _ ↦ onClock_pointerTrack

/-- Assumes: sources that compile alone to known tracks. What holds of all bookings of the single
tracks, whatever id their cues carry, holds of all bookings of the ordered tracks. -/
theorem forall_mem_orderedTracks {track : Source → List Booking} {P : Booking → Prop}
    (hid : ∀ booking id, P booking → P (booking.withPointer id))
    (hsolo : ∀ s ∈ sources, ∀ booking ∈ track s, P booking) :
    ∀ booking ∈ (orderedTracks track sources).flatten, P booking := by
  intro booking hbooking
  obtain ⟨bookings, hbookings, hmem⟩ := List.mem_flatten.1 hbooking
  rcases List.mem_append.1 hbookings with hother | hpointer
  · obtain ⟨s, hs, rfl⟩ := List.mem_map.1 hother
    exact hsolo s (mem_ofKind_append hs).1 booking hmem
  · obtain ⟨x, hx, rfl⟩ := List.mem_map.1 hpointer
    obtain ⟨alone, halone, rfl⟩ := List.mem_map.1 hmem
    exact hid alone x.2 (hsolo x.1 (mem_ofKind.1 (List.fst_mem_of_mem_zipIdx hx)).1 alone halone)

end Source

namespace Timeline

/-- A timeline of sources keeps to the clock. -/
theorem onClock_of_ofSources {t : Timeline} (ht : ofSources locate sources = .ok t) :
    t.OnClock := by
  obtain ⟨track, hsolo, rfl⟩ := exists_track_of_ofSources ht
  refine onClock_empty.bookAll (Source.forall_mem_orderedTracks ?_ ?_)
  · exact fun booking id hbooking ↦ hbooking.withPointer id
  · exact fun s hs ↦ Source.onClock_soloTrack (hsolo s hs)

/-- Every tick of a timeline that is compiled from a payload, with cues or without, is a multiple of
the quantum and not past the longest timeline; every cue belongs to a chain that was entered at a
multiple of the quantum, no later than the tick of the cue. Wherever the compiler comes in a source
of the payload, even if the payload is refused there or later, all that it could compute for any
duration is the same in 64-bit words as in natural numbers. -/
theorem onClock_of_compile (locate : Locator) (actions : Json) :
    (∀ t, compile locate actions = .ok t →
      (∀ tick ∈ t.ticks, quantum ∣ tick ∧ tick ≤ longestTimeline) ∧
        ∀ tick, ∀ cue ∈ t.cuesAt tick, quantum ∣ cue.entry ∧ cue.entry ≤ tick) ∧
      ∀ sources, (Source.readAll actions >>= Source.accept) = .ok sources →
        ∀ s ∈ sources, ∀ ordinal place state, s.Reaches locate ordinal place state →
          ∀ duration, Word.Exact state.tick duration := by
  constructor
  · intro t ht
    obtain ⟨sources, -, hsources⟩ := exists_sources_of_compile ht
    obtain ⟨hticks, hentries, -⟩ := onClock_of_ofSources hsources
    constructor
    · intro tick htick
      exact ⟨(hticks tick htick).dvd, (hticks tick htick).le⟩
    · intro tick cue hcue
      exact ⟨(hentries tick cue hcue).dvd, (hentries tick cue hcue).le⟩
  · intro sources _ s _ ordinal place state hreaches duration
    exact Word.exact hreaches.onClock.tick_le duration

/-- A finger that goes down late, and drags for a while. -/
def lateDrag (duration : UInt64) : Json :=
  .array [
    Json.pointerSource "m" [
      Json.item .pointerMove [(.duration, 0), (.x, 1), (.y, 2)],
      Json.item .pause [(.duration, 7)],
      Json.item .pointerDown [],
      Json.item .pointerMove [(.duration, duration), (.x, 3), (.y, 2)]]]

/-- A short drag compiles. For the longest duration there is the compiler still comes to the drag,
and computes the tick at which it would end without wrapping. -/
theorem onClock_lateDrag :
    (∃ t, compile (fun _ ↦ none) (lateDrag 12) = .ok t ∧ t.ticks = [10, 15, 20, 25] ∧
      ∀ tick ∈ t.ticks, quantum ∣ tick ∧ tick ≤ longestTimeline) ∧
      ∃ sources s state,
        (Source.readAll (lateDrag 9223372036854775807) >>= Source.accept) = .ok sources ∧
          s ∈ sources ∧ s.Reaches (fun _ ↦ none) 0 3 state ∧ state.tick = 10 ∧
            (Word.tickAfter state.tick Int64.maxValue).toNat = 10 + align Int64.maxValue := by
  constructor
  · have hticks : (compile (fun _ ↦ none) (lateDrag 12)).toOption.map ticks =
        some [10, 15, 20, 25] := by
      decide +kernel
    have hcompile : ∃ t, compile (fun _ ↦ none) (lateDrag 12) = .ok t := ⟨_, rfl⟩
    obtain ⟨t, ht⟩ := hcompile
    rw [ht] at hticks
    exact ⟨t, ht, Option.some.inj hticks,
      ((onClock_of_compile (fun _ ↦ none) (lateDrag 12)).1 t ht).1⟩
  · have hread : ∃ s, (Source.readAll (lateDrag 9223372036854775807) >>= Source.accept) =
        .ok [s] ∧ ∃ state, s.Reaches (fun _ ↦ none) 0 3 state ∧ state.tick = 10 := by
      refine ⟨_, rfl, _, .pointer (.pointer (.pointer (.pointerStart rfl) rfl rfl) rfl rfl) rfl rfl,
        rfl⟩
    obtain ⟨s, hread, state, hreaches, htick⟩ := hread
    have hexact := (onClock_of_compile (fun _ ↦ none) (lateDrag 9223372036854775807)).2 [s] hread
      s List.mem_cons_self 0 3 state hreaches Int64.maxValue
    refine ⟨[s], s, state, hread, List.mem_cons_self, hreaches, htick, ?_⟩
    rw [hexact.tickAfter, htick]

end Timeline

end ActionReplay
