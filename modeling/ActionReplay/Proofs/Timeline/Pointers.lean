import ActionReplay.Proofs.Timeline.Merge

/-!
# The pointers on a timeline

A compiled timeline shows the contacts of every pointer source, under the ordinal of the source and
with its tool: the contacts among the cues of a pointer at a tick are the contacts that its source
makes at that tick, in the order of its items. Since every source takes turns, this says of a
timeline all that a replay needs to know about its contacts (`Timeline.Shows`,
`Timeline.shows_of_ofSources`).
-/

set_option autoImplicit false
set_option relaxedAutoImplicit false

namespace ActionReplay

variable {locate : Locator} {sources : List Source} {t : Timeline}

/-! ### Contacts of one pointer -/

/-- The contact that a cue at a tick makes, if it is a cue of a pointer of a tool. -/
def Cue.contactOf? (tool : Tool) (pointer : Nat) (tick : Tick) : Cue → Option Contact
  | .motion cue =>
    if cue.tool = tool ∧ cue.pointer = pointer then Cue.contact? tick (.motion cue) else none
  | .key _ => none

/-- The contacts of the pointer source with an ordinal, if it has a tool. -/
def Source.contactsOf (sources : List Source) (tool : Tool) (pointer : Nat) : List Contact :=
  match (ofKind sources .pointer)[pointer]? with
  | some s => if s.tool = tool then s.contacts else []
  | none => []

/-- Assumes: as many pointers as `count`, each with contacts of its own for every tool. They take
turns, and they are the contacts among the cues of the timeline. -/
structure Timeline.Shows (t : Timeline) (count : Nat) (contacts : Tool → Nat → List Contact) :
    Prop where
  turns : ∀ tool pointer, Contact.TakeTurns (contacts tool pointer)
  few : ∀ tool pointer, count ≤ pointer → contacts tool pointer = []
  shown : ∀ tool pointer tick, (t.cuesAt tick).filterMap (Cue.contactOf? tool pointer tick) =
    Contact.during (contacts tool pointer) tick

/-- A reading of cues that sees motions only, and nothing of the chains that they belong to. -/
structure Cue.SeesMotions {α : Type} (read? : Cue → Option α) : Prop where
  key : ∀ cue, read? (.key cue) = none
  motion : ∀ (cue : MotionCue) entry, read? (.motion { cue with entry }) = read? (.motion cue)

theorem Cue.seesMotions_contactOf? (tool : Tool) (pointer : Nat) (tick : Tick) :
    SeesMotions (contactOf? tool pointer tick) :=
  ⟨fun _ ↦ rfl, fun _ _ ↦ rfl⟩

/-- Such a reading finds in cues what it finds in them on a timeline. -/
theorem Cue.SeesMotions.filterMap_eq {α : Type} {read? : Cue → Option α}
    (hread : SeesMotions read?) {booked standing : List Cue}
    (hrejoins : List.Forall₂ Cue.Rejoins booked standing) :
    standing.filterMap read? = booked.filterMap read? := by
  induction hrejoins with
  | nil => rfl
  | @cons booked standing _ _ hcue _ ih =>
    have hsame : read? standing = read? booked := by
      cases booked with
      | key booked =>
        cases standing with
        | key standing => rw [hread.key, hread.key]
        | motion standing => exact hcue.elim
      | motion booked =>
        cases standing with
        | key standing => exact hcue.elim
        | motion standing =>
          rw [hcue.1]
          exact hread.motion booked standing.entry
    rw [List.filterMap_cons, List.filterMap_cons, hsame, ih]

/-! ### Bookings of one pointer -/

namespace Booking

theorem contact?_withPointer (id : Nat) (booking : Booking) :
    (booking.withPointer id).contact? = booking.contact? := by
  obtain ⟨tick, cue⟩ := booking
  match cue with
  | none => rfl
  | some (.key _) => rfl
  | some (.motion _) => rfl

theorem owns_withPointer {p : Pointer} {booking : Booking} (howns : p.Owns booking) (id : Nat) :
    Pointer.Owns { p with id } (booking.withPointer id) := by
  rcases howns with hnone | ⟨cue, hcue, -, htool⟩
  · exact .inl (by rw [withPointer, hnone]; rfl)
  · exact .inr ⟨{ cue with pointer := id }, by rw [withPointer, hcue]; rfl, rfl, htool⟩

/-- Assumes: bookings of one pointer. Their cues make its contacts, and no contacts of other
pointers. -/
theorem contactsOf_cuesAt {p : Pointer} {bookings : List Booking}
    (howns : ∀ booking ∈ bookings, p.Owns booking) (tool : Tool) (pointer : Nat) (tick : Tick) :
    (cuesAt bookings tick).filterMap (Cue.contactOf? tool pointer tick) =
      if p.tool = tool ∧ p.id = pointer then
        Contact.during (bookings.filterMap contact?) tick
      else [] := by
  have hbooking : ∀ booking ∈ bookings,
      (booking.cueAt? tick).bind (Cue.contactOf? tool pointer tick) =
        if p.tool = tool ∧ p.id = pointer then
          booking.contact?.filter fun contact ↦ contact.tick = tick
        else none := by
    intro booking hbooking
    obtain ⟨at_, cue⟩ := booking
    rcases howns _ hbooking with hnone | ⟨motion, hmotion, hid, htool⟩
    · obtain rfl : cue = none := hnone
      simp [cueAt?, contact?]
    · obtain rfl : cue = some (.motion motion) := hmotion
      rw [← hid, ← htool]
      unfold cueAt? contact? Cue.contactOf? Cue.contact?
      by_cases hours : motion.tool = tool ∧ motion.pointer = pointer
      · by_cases hhere : at_ = tick
        · cases hact : motion.action <;> simp [hours, hhere, hact, Option.filter_some]
        · cases hact : motion.action <;> simp [hhere, hact, Option.filter_some]
      · by_cases hhere : at_ = tick
        · simp [hours, hhere]
        · simp [hours, hhere]
  unfold cuesAt Contact.during
  rw [List.filterMap_filterMap, List.filterMap_congr hbooking]
  split_ifs with hours
  · rw [List.filter_filterMap]
  · exact List.filterMap_none bookings

/-- Bookings without motions show nothing to a reading of motions. -/
theorem filterMap_cuesAt_motionless {α : Type} {read? : Cue → Option α}
    (hread : Cue.SeesMotions read?) {bookings : List Booking}
    (hmotion : ∀ booking ∈ bookings, booking.motion? = none) (tick : Tick) :
    (cuesAt bookings tick).filterMap read? = [] := by
  rw [List.filterMap_eq_nil_iff]
  intro cue hcue
  obtain ⟨booking, hbooking, -, hsome⟩ := mem_cuesAt hcue
  cases cue with
  | key cue => exact hread.key cue
  | motion cue =>
    have hnone := hmotion booking hbooking
    rw [motion?, hsome] at hnone
    cases hnone

end Booking

/-! ### Timelines -/

namespace Source

/-- The contacts of a source are booked under any id. -/
theorem contacts_withPointer {s : Source} {track : List Booking}
    (htrack : s.pointerTrack locate 0 = .ok track) (id : Nat) :
    (track.map (Booking.withPointer id)).filterMap Booking.contact? = s.contacts := by
  rw [List.filterMap_map, ← contacts_pointerTrack htrack]
  exact List.filterMap_congr fun booking _ ↦ Booking.contact?_withPointer id booking

/-- Assumes: pointer sources that compile alone to known tracks. Counted from a first ordinal, their tracks
book their contacts. -/
theorem contacts_zipIdx {track : Source → List Booking} {pointers : List Source}
    (htrack : ∀ s ∈ pointers, s.pointerTrack locate 0 = .ok (track s)) (first : Nat) :
    ((pointers.zipIdx first).map fun x ↦ (track x.1).map (Booking.withPointer x.2)).map
      (List.filterMap Booking.contact?) = pointers.map contacts := by
  rw [List.map_map, ← List.zipIdx_map_fst first pointers, List.map_map, List.zipIdx_map_fst]
  exact List.map_congr_left fun x hx ↦
    contacts_withPointer (htrack x.1 (List.fst_mem_of_mem_zipIdx hx)) x.2

/-- Sources that are counted from a first ordinal: one with an ordinal is found at its place. -/
theorem flatMap_zipIdx_contacts (pointers : List Source) (tool : Tool) (tick : Tick)
    (first place : Nat) :
    ((pointers.zipIdx first).flatMap fun x ↦
        if x.1.tool = tool ∧ x.2 = first + place then Contact.during x.1.contacts tick else []) =
      Contact.during (match pointers[place]? with
        | some s => if s.tool = tool then s.contacts else []
        | none => []) tick := by
  induction pointers generalizing first place with
  | nil => rfl
  | cons s rest ih =>
    rw [List.zipIdx_cons, List.flatMap_cons]
    cases place with
    | zero =>
      have hlater : ∀ x ∈ rest.zipIdx (first + 1), ¬(x.1.tool = tool ∧ x.2 = first + 0) := by
        rintro x hx ⟨-, hfirst⟩
        have hle := List.le_snd_of_mem_zipIdx hx
        omega
      rw [List.flatMap_congr fun x hx ↦ if_neg (hlater x hx)]
      by_cases htool : s.tool = tool
      · simp [htool]
      · simp [htool, Contact.during]
    | succ place =>
      have hshift : first + (place + 1) = first + 1 + place := by omega
      rw [hshift, ih (first + 1) place, if_neg (by omega)]
      rfl

/-- The contacts of a pointer are those of the source with its ordinal. -/
theorem flatMap_contactsOf (tool : Tool) (pointer : Nat) (tick : Tick) :
    ((ofKind sources .pointer).zipIdx.flatMap fun x ↦
        if x.1.tool = tool ∧ x.2 = pointer then Contact.during x.1.contacts tick else []) =
      Contact.during (contactsOf sources tool pointer) tick := by
  have hfrom := flatMap_zipIdx_contacts (ofKind sources .pointer) tool tick 0 pointer
  unfold contactsOf
  simpa only [Nat.zero_add] using hfrom

end Source

namespace Timeline

/-- Assumes: sources that compile alone to known tracks. A reading of motions finds on the timeline
of all tracks what it finds in the tracks of the pointer sources, one after another. -/
theorem filterMap_cuesAt_orderedTracks {track : Source → List Booking} {α : Type}
    {read? : Cue → Option α} (hread : Cue.SeesMotions read?)
    (hsolo : ∀ s ∈ sources, s.soloTrack locate = .ok (track s)) (tick : Tick) :
    ((empty.bookAll (Source.orderedTracks track sources).flatten).cuesAt tick).filterMap read? =
      (Source.ofKind sources .pointer).zipIdx.flatMap fun x ↦
        (Booking.cuesAt ((track x.1).map (Booking.withPointer x.2)) tick).filterMap read? := by
  obtain ⟨standing, hstanding, hrejoins⟩ :=
    empty.cuesAt_bookAll (Source.orderedTracks track sources).flatten tick
  have hothers : (((Source.ofKind sources .none ++ Source.ofKind sources .key).map track).flatMap
      fun bookings ↦ Booking.cuesAt bookings tick).filterMap read? = [] := by
    rw [List.filterMap_flatMap, List.flatMap_map, List.flatMap_eq_nil_iff]
    intro s hs
    obtain ⟨hs, hkind⟩ := Source.mem_ofKind_append hs
    exact Booking.filterMap_cuesAt_motionless hread (Source.motion_soloTrack hkind (hsolo s hs)) _
  rw [hstanding, cuesAt_empty, List.nil_append, hread.filterMap_eq hrejoins,
    Booking.cuesAt_flatten, Source.orderedTracks, List.flatMap_append, List.filterMap_append,
    hothers, List.nil_append, List.filterMap_flatMap, List.flatMap_map]

/-- Assumes: sources that compile alone to known tracks. The cues of a timeline of all tracks make
the contacts of the pointer sources. -/
theorem contactsOf_cuesAt_orderedTracks {track : Source → List Booking}
    (hsolo : ∀ s ∈ sources, s.soloTrack locate = .ok (track s)) (tool : Tool) (pointer : Nat)
    (tick : Tick) :
    ((empty.bookAll (Source.orderedTracks track sources).flatten).cuesAt tick).filterMap
        (Cue.contactOf? tool pointer tick) =
      Contact.during (Source.contactsOf sources tool pointer) tick := by
  rw [filterMap_cuesAt_orderedTracks (Cue.seesMotions_contactOf? tool pointer tick) hsolo,
    ← Source.flatMap_contactsOf]
  apply List.flatMap_congr
  intro x hx
  have htrack := Source.pointerTrack_of_mem hsolo (List.fst_mem_of_mem_zipIdx hx)
  have howns : ∀ booking ∈ (track x.1).map (Booking.withPointer x.2),
      Pointer.Owns { id := x.2, tool := x.1.tool } booking := by
    intro booking hbooking
    obtain ⟨alone, halone, rfl⟩ := List.mem_map.1 hbooking
    exact Booking.owns_withPointer (Source.owns_pointerTrack htrack alone halone) x.2
  rw [Booking.contactsOf_cuesAt howns, Source.contacts_withPointer htrack]

/-- A timeline of sources shows the contacts of its pointer sources. -/
theorem shows_of_ofSources (ht : ofSources locate sources = .ok t) :
    t.Shows (Source.ofKind sources .pointer).length (Source.contactsOf sources) := by
  obtain ⟨track, hsolo, rfl⟩ := exists_track_of_ofSources ht
  refine ⟨?_, ?_, contactsOf_cuesAt_orderedTracks hsolo⟩
  · intro tool pointer
    unfold Source.contactsOf
    cases hget : (Source.ofKind sources .pointer)[pointer]? with
    | none => exact Contact.TakeTurns.nil
    | some s =>
      dsimp only
      split_ifs with htool
      · have htrack := Source.pointerTrack_of_mem hsolo (List.mem_of_getElem? hget)
        exact Source.takeTurns_contacts htrack
      · exact Contact.TakeTurns.nil
  · intro tool pointer hpast
    rw [Source.contactsOf, List.getElem?_eq_none hpast]

/-- The timeline of a payload is that of the sources that it is read into and that are accepted. -/
theorem exists_sources_of_compile {actions : Json} (ht : compile locate actions = .ok t) :
    ∃ sources, (Source.readAll actions >>= Source.accept) = .ok sources ∧
      ofSources locate sources = .ok t := by
  obtain ⟨read, hread, ht⟩ := bind_eq_ok.1 ht
  obtain ⟨sources, haccept, ht⟩ := bind_eq_ok.1 ht
  exact ⟨sources, bind_eq_ok.2 ⟨read, hread, haccept⟩, ht⟩

theorem compile_eq_bind (locate : Locator) (actions : Json) :
    compile locate actions = (Source.readAll actions >>= Source.accept) >>= ofSources locate := by
  unfold compile
  cases Source.readAll actions with
  | error fault => rfl
  | ok sources => rfl

/-- What becomes of a payload whose sources are accepted is what becomes of the sources. -/
theorem compile_eq_of_read {actions : Json}
    (hread : (Source.readAll actions >>= Source.accept) = .ok sources) :
    compile locate actions = ofSources locate sources := by
  rw [compile_eq_bind, hread]
  rfl

end Timeline

/-! ### Payloads -/

namespace Json

/-- An item with some fields that are numbers. -/
def item (type : ItemType) (fields : List (ItemField × UInt64)) : Json :=
  .object (("type", .string type.name) ::
    fields.map fun (field, n) ↦ (field.name, .number (.unsigned n)))

/-- A pointer source that names no pointer type. -/
def pointerSource (id : String) (items : List Json) : Json :=
  .object [("id", .string id), ("type", .string SourceKind.pointer.name), ("actions", .array items)]

/-- A pointer source that names its pointer type. -/
def typedPointerSource (id : String) (type : PointerType) (items : List Json) : Json :=
  .object [("id", .string id), ("type", .string SourceKind.pointer.name),
    ("parameters", .object [("pointerType", .string type.name)]), ("actions", .array items)]

end Json

end ActionReplay
