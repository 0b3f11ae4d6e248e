import ActionReplay.Proofs.Timeline.Clock
import ActionReplay.Proofs.Timeline.Tools
import ActionReplay.Proofs.Track.Origin

/-!
# Pointers that are apart on a timeline

A timeline keeps its contacts in tick order, whatever the order in which they are booked
(`Timeline.contacts_bookAll`). Pointer sources that are apart therefore never have two pointers down
on the timeline built so far, at a tick at which one of them books a motion: no chain is shared, and
every cue stands as it was booked (`cuesAt_bookAll_apart`). Each motion that touches is then made by
an item of its own source, with the entry tick that the source gives it
(`exists_makes_of_mem_cuesAt`).
-/

set_option autoImplicit false
set_option relaxedAutoImplicit false

namespace ActionReplay

variable {locate : Locator} {sources : List Source} {t : Timeline}

/-! ### Contacts in tick order -/

namespace Contact

theorem perm_insert (contact : Contact) (contacts : List Contact) :
    (contact.insert contacts).Perm (contact :: contacts) := by
  induction contacts with
  | nil => exact .refl _
  | cons first rest ih =>
    unfold Contact.insert
    split_ifs with hbefore
    · exact .refl _
    · exact (ih.cons first).trans (.swap contact first rest)

theorem pairwise_insert {contact : Contact} {contacts : List Contact}
    (hordered : contacts.Pairwise fun a b ↦ a.tick ≤ b.tick) :
    (contact.insert contacts).Pairwise fun a b ↦ a.tick ≤ b.tick := by
  induction contacts with
  | nil => exact List.pairwise_singleton _ _
  | cons first rest ih =>
    obtain ⟨hfirst, hrest⟩ := List.pairwise_cons.1 hordered
    unfold Contact.insert
    split_ifs with hbefore
    · refine List.pairwise_cons.2 ⟨List.forall_mem_cons.2 ⟨hbefore.le, ?_⟩, hordered⟩
      exact fun other hother ↦ hbefore.le.trans (hfirst other hother)
    · refine List.pairwise_cons.2 ⟨fun other hother ↦ ?_, ih hrest⟩
      rcases mem_insert.1 hother with rfl | hother
      · exact Nat.le_of_not_lt hbefore
      · exact hfirst other hother

theorem takeWhile_eq_filter {contacts : List Contact}
    (hordered : contacts.Pairwise fun a b ↦ a.tick ≤ b.tick) (tick : Tick) :
    (contacts.takeWhile fun contact ↦ contact.tick ≤ tick) =
      contacts.filter fun contact ↦ contact.tick ≤ tick := by
  induction contacts with
  | nil => rfl
  | cons first rest ih =>
    obtain ⟨hfirst, hrest⟩ := List.pairwise_cons.1 hordered
    by_cases hearly : first.tick ≤ tick
    · rw [List.takeWhile_cons_of_pos (by simpa using hearly),
        List.filter_cons_of_pos (by simpa using hearly), ih hrest]
    · have hnone : (rest.filter fun contact ↦ contact.tick ≤ tick) = [] := by
        refine List.filter_eq_nil_iff.2 fun contact hcontact hreached ↦ ?_
        exact hearly ((hfirst contact hcontact).trans (of_decide_eq_true hreached))
      rw [List.takeWhile_cons_of_neg (by simpa using hearly),
        List.filter_cons_of_neg (by simpa using hearly), hnone]

end Contact

namespace Timeline

/-- A timeline whose contacts are in tick order. -/
def Ordered (t : Timeline) : Prop :=
  t.contacts.Pairwise fun a b ↦ a.tick ≤ b.tick

/-- A booking adds its contact where the order of the ticks wants it. -/
theorem contacts_book (ht : t.Ordered) (booking : Booking) :
    (t.book booking).contacts.Perm (t.contacts ++ booking.contact?.toList) ∧
      (t.book booking).Ordered := by
  unfold Ordered
  cases hcontact : booking.contact? with
  | none =>
    rw [t.contacts_book_of_none hcontact]
    exact ⟨(List.append_nil _).symm ▸ .refl _, ht⟩
  | some contact =>
    rw [t.contacts_book_of_some hcontact]
    refine ⟨(Contact.perm_insert contact _).trans ?_, Contact.pairwise_insert ht⟩
    exact (List.perm_append_singleton contact _).symm

theorem contacts_bookAll (ht : t.Ordered) (bookings : List Booking) :
    (t.bookAll bookings).contacts.Perm (t.contacts ++ bookings.filterMap Booking.contact?) ∧
      (t.bookAll bookings).Ordered := by
  induction bookings generalizing t with
  | nil => exact ⟨(List.append_nil _).symm ▸ .refl _, ht⟩
  | cons booking rest ih =>
    obtain ⟨hfirst, hordered⟩ := contacts_book ht booking
    obtain ⟨hrest, hend⟩ := ih hordered
    refine ⟨hrest.trans ?_, hend⟩
    have hsplit : (booking :: rest).filterMap Booking.contact? =
        booking.contact?.toList ++ rest.filterMap Booking.contact? := by
      rw [List.filterMap_cons]
      cases booking.contact? with
      | none => rfl
      | some contact => rfl
    rw [hsplit, ← List.append_assoc]
    exact hfirst.append_right _

/-- Assumes: contacts in tick order, of which those up to a tick have a surplus of one at most. No
chain is shared at the tick. -/
theorem sharedEntry_eq_none_of_surplus (ht : t.Ordered) {tick : Tick}
    (hle : Contact.surplus (t.contacts.filter fun contact ↦ contact.tick ≤ tick) ≤ 1) :
    t.sharedEntry tick = none := by
  unfold sharedEntry ContactCount.sharedEntry ContactCount.ofList
  rw [Contact.takeWhile_eq_filter ht, Contact.balance_foldl_step_eq, if_neg]
  simpa using hle

/-- Assumes: whenever a motion is booked no chain is shared at its tick. Every cue stands as it was
booked. -/
theorem cuesAt_bookAll_of_unshared {bookings : List Booking}
    (hnone : ∀ done booking rest, bookings = done ++ booking :: rest → booking.motion? ≠ none →
      (t.bookAll done).sharedEntry booking.tick = none) (tick : Tick) :
    (t.bookAll bookings).cuesAt tick = t.cuesAt tick ++ Booking.cuesAt bookings tick := by
  induction bookings generalizing t with
  | nil => exact (List.append_nil _).symm
  | cons booking rest ih =>
    have hself : (booking.cueAt? tick).map (t.joined tick) = booking.cueAt? tick := by
      obtain ⟨booked, cue⟩ := booking
      unfold Booking.cueAt?
      split_ifs with htick
      · subst htick
        match cue with
        | none => rfl
        | some (.key cue) => rfl
        | some (.motion cue) =>
          have hfirst := hnone [] _ rest rfl (Option.some_ne_none cue)
          exact congrArg some (joined_eq_self hfirst (.motion cue))
      · rfl
    rw [Booking.cuesAt_cons, ← List.append_assoc, ← hself, ← cuesAt_book]
    exact ih fun done other later hsplit ↦
      hnone (booking :: done) other later (congrArg (booking :: ·) hsplit)

end Timeline

/-! ### Tracks that are apart -/

/-- Where lists in a row are cut, one of them is cut and those before it are whole. Either the first list
is whole, or it holds the element. -/
theorem exists_of_flatten_eq_append {α : Type} {lists : List (List α)} {done rest : List α} {a : α}
    (hsplit : lists.flatten = done ++ a :: rest) :
    ∃ earlier before after later, lists = earlier ++ (before ++ a :: after) :: later ∧
      done = earlier.flatten ++ before := by
  induction lists generalizing done with
  | nil => exact absurd hsplit.symm (List.append_ne_nil_of_right_ne_nil _ (List.cons_ne_nil _ _))
  | cons first lists ih =>
    have hwhole : ∀ done', lists.flatten = done' ++ a :: rest → done = first ++ done' →
        ∃ earlier before after later,
          first :: lists = earlier ++ (before ++ a :: after) :: later ∧
            done = earlier.flatten ++ before := by
      rintro done' hrest rfl
      obtain ⟨earlier, before, after, later, rfl, rfl⟩ := ih hrest
      exact ⟨first :: earlier, before, after, later, rfl, (List.append_assoc _ _ _).symm⟩
    rw [List.flatten_cons] at hsplit
    rcases List.append_eq_append_iff.1 hsplit with ⟨done', hdone, hrest⟩ | ⟨after, rfl, hafter⟩
    · exact hwhole done' hrest hdone
    · cases after with
      | nil => exact hwhole [] hafter.symm (by simp)
      | cons b after =>
        obtain ⟨rfl, -⟩ := List.cons.inj hafter
        exact ⟨[], done, after, lists, rfl, rfl⟩

/-- Bookings in tick order cut their contacts at each of them. -/
theorem cutAt_contacts {before after : List Booking} {booking : Booking}
    (hordered : (before ++ booking :: after).Pairwise fun a b ↦ a.tick ≤ b.tick) :
    Contact.CutAt booking.tick ((before ++ booking :: after).filterMap Booking.contact?)
      (before.filterMap Booking.contact?) := by
  obtain ⟨-, hlater, hearlier⟩ := List.pairwise_append.1 hordered
  refine ⟨_, List.filterMap_append, fun contact hcontact ↦ ?_, fun contact hcontact ↦ ?_⟩
  · obtain ⟨other, hother, hmakes⟩ := List.mem_filterMap.1 hcontact
    rw [Booking.tick_of_contact? hmakes]
    exact hearlier other hother booking List.mem_cons_self
  · obtain ⟨other, hother, hmakes⟩ := List.mem_filterMap.1 hcontact
    rw [Booking.tick_of_contact? hmakes]
    rcases List.mem_cons.1 hother with rfl | hother
    · exact le_rfl
    · exact (List.pairwise_cons.1 hlater).1 other hother

namespace Timeline

/-- Assumes: a timeline without contacts, and tracks in tick order of single pointers that are
apart, of which some are booked, and a last one up to one of its bookings. No chain is shared at the
tick of that booking. -/
theorem sharedEntry_eq_none_of_apart (hbase : t.contacts = []) {earlier : List (List Booking)}
    {before after : List Booking} {booking : Booking}
    (hturns : ∀ track ∈ earlier ++ [before ++ booking :: after],
      Contact.TakeTurns (track.filterMap Booking.contact?))
    (hordered : (before ++ booking :: after).Pairwise fun a b ↦ a.tick ≤ b.tick)
    (hapart : ((earlier ++ [before ++ booking :: after]).map
      (List.filterMap Booking.contact?)).Pairwise Contact.Apart) :
    (t.bookAll (earlier.flatten ++ before)).sharedEntry booking.tick = none := by
  have ht : t.Ordered := by
    rw [Ordered, hbase]
    exact .nil
  obtain ⟨hperm, hend⟩ := contacts_bookAll ht (earlier.flatten ++ before)
  have hcut := cutAt_contacts hordered
  have hreached : ((before.filterMap Booking.contact?).filter fun contact ↦
      contact.tick ≤ booking.tick) = before.filterMap Booking.contact? := by
    obtain ⟨-, -, hearly, -⟩ := hcut
    exact List.filter_eq_self.2 fun contact hcontact ↦ decide_eq_true (hearly contact hcontact)
  have hcuts : List.Forall₂ (Contact.CutAt booking.tick)
      ((earlier ++ [before ++ booking :: after]).map (List.filterMap Booking.contact?))
      ((earlier.map fun track ↦ (track.filterMap Booking.contact?).filter fun contact ↦
        contact.tick ≤ booking.tick) ++ [before.filterMap Booking.contact?]) := by
    rw [List.map_append]
    refine List.rel_append ?_ (.cons hcut .nil)
    rw [List.forall₂_map_left_iff, List.forall₂_map_right_iff, List.forall₂_same]
    intro track htrack
    exact Contact.cutAt_filter (hturns track (List.mem_append_left _ htrack)).ordered _
  have hsurplus := Contact.surplus_flatten_le_one hcuts
    (List.forall_mem_map.2 fun track htrack ↦ (hturns track htrack).alternate) hapart
  rw [List.flatten_append, List.flatten_singleton] at hsurplus
  refine sharedEntry_eq_none_of_surplus hend ?_
  rw [Contact.surplus_perm (hperm.filter _), hbase, List.nil_append, List.filterMap_append,
    List.filter_append, hreached]
  rwa [List.filterMap_flatten, List.filter_flatten, List.map_map]

/-- Assumes: a timeline without contacts, and tracks in tick order of single pointers that are
apart. Booked one after another, all their cues stand as they were booked. -/
theorem cuesAt_bookAll_apart (hbase : t.contacts = []) {tracks : List (List Booking)}
    (hturns : ∀ track ∈ tracks, Contact.TakeTurns (track.filterMap Booking.contact?))
    (hordered : ∀ track ∈ tracks, track.Pairwise fun a b ↦ a.tick ≤ b.tick)
    (hapart : (tracks.map (List.filterMap Booking.contact?)).Pairwise Contact.Apart)
    (tick : Tick) :
    (t.bookAll tracks.flatten).cuesAt tick =
      t.cuesAt tick ++ Booking.cuesAt tracks.flatten tick := by
  refine cuesAt_bookAll_of_unshared (fun done booking rest hsplit _ ↦ ?_) tick
  obtain ⟨earlier, before, after, later, rfl, rfl⟩ := exists_of_flatten_eq_append hsplit
  have hbooked : earlier ++ [before ++ booking :: after] <+:
      earlier ++ (before ++ booking :: after) :: later :=
    ⟨later, (List.append_cons _ _ _).symm⟩
  apply sharedEntry_eq_none_of_apart hbase
  · exact fun track htrack ↦ hturns track (hbooked.subset htrack)
  · exact hordered _ (List.mem_append_right _ List.mem_cons_self)
  · exact hapart.sublist (hbooked.sublist.map _)

end Timeline

/-! ### Sources that are apart -/

/-- Any two pointer sources are apart. -/
def Source.Apart (sources : List Source) : Prop :=
  (ofKind sources .pointer).Pairwise fun s r ↦ Contact.Apart s.contacts r.contacts

theorem Source.apart_iff {sources : List Source} :
    Source.Apart sources ↔
      ((ofKind sources .pointer).map Source.contacts).Pairwise Contact.Apart :=
  List.pairwise_map.symm

theorem Source.Makes.withPointer {s : Source} {tick : Tick} {cue : MotionCue}
    (hmakes : s.Makes tick cue) (id : Nat) : s.Makes tick { cue with pointer := id } := by
  obtain ⟨before, item, later, hitems, haction, hstart, hstop, hentry⟩ := hmakes
  exact ⟨before, item, later, hitems, haction, hstart, hstop, hentry⟩

namespace Timeline

/-- Assumes: sources that compile alone to known tracks, and pointer sources that are apart. All
cues stand as they were booked. -/
theorem cuesAt_orderedTracks_apart {track : Source → List Booking}
    (hsolo : ∀ s ∈ sources, s.soloTrack locate = .ok (track s)) (hapart : Source.Apart sources)
    (tick : Tick) :
    (empty.bookAll (Source.orderedTracks track sources).flatten).cuesAt tick =
      Booking.cuesAt (Source.orderedTracks track sources).flatten tick := by
  obtain ⟨hcues, hcontacts⟩ := cuesAt_bookAll_motionless (t := empty) (Source.motion_others hsolo)
  have htrack : ∀ x ∈ (Source.ofKind sources .pointer).zipIdx,
      x.1.pointerTrack locate 0 = .ok (track x.1) := fun x hx ↦
    Source.pointerTrack_of_mem hsolo (List.fst_mem_of_mem_zipIdx hx)
  have hturns : ∀ bookings ∈ (Source.ofKind sources .pointer).zipIdx.map
      (fun x ↦ (track x.1).map (Booking.withPointer x.2)),
      Contact.TakeTurns (bookings.filterMap Booking.contact?) := by
    intro bookings hbookings
    obtain ⟨x, hx, rfl⟩ := List.mem_map.1 hbookings
    rw [Source.contacts_withPointer (htrack x hx)]
    exact Source.takeTurns_contacts (htrack x hx)
  have hordered : ∀ bookings ∈ (Source.ofKind sources .pointer).zipIdx.map
      (fun x ↦ (track x.1).map (Booking.withPointer x.2)),
      bookings.Pairwise fun a b ↦ a.tick ≤ b.tick := by
    intro bookings hbookings
    obtain ⟨x, hx, rfl⟩ := List.mem_map.1 hbookings
    exact List.pairwise_map.2 (Source.pairwise_pointerTrack (htrack x hx))
  have hcontactsOf := Source.contacts_zipIdx (fun s hs ↦ Source.pointerTrack_of_mem hsolo hs) 0
  have hpointers := cuesAt_bookAll_apart hcontacts hturns hordered
    (hcontactsOf ▸ Source.apart_iff.1 hapart) tick
  rw [Source.orderedTracks, List.flatten_append, bookAll_append, hpointers, hcues, cuesAt_empty,
    List.nil_append, Booking.cuesAt_append]

/-- Assumes: pointer sources that are apart. A motion on their timeline that touches is made by an
item of the source whose ordinal and tool it carries. -/
theorem exists_makes_of_mem_cuesAt (ht : ofSources locate sources = .ok t)
    (hapart : Source.Apart sources) {tick : Tick} {cue : MotionCue}
    (hcue : .motion cue ∈ t.cuesAt tick) (htouch : cue.action.isHover = false) :
    ∃ s, (Source.ofKind sources .pointer)[cue.pointer]? = some s ∧ cue.tool = s.tool ∧
      s.Makes tick cue := by
  obtain ⟨track, hsolo, rfl⟩ := exists_track_of_ofSources ht
  rw [cuesAt_orderedTracks_apart hsolo hapart] at hcue
  obtain ⟨booking, hbooking, rfl, hsome⟩ := Booking.mem_cuesAt hcue
  obtain ⟨s, hs, htool, alone, halone, rfl⟩ :=
    Source.exists_source_of_mem_orderedTracks hsolo hbooking hsome
  have htrack := Source.pointerTrack_of_mem hsolo (List.mem_of_getElem? hs)
  refine ⟨s, hs, htool, ?_⟩
  obtain ⟨booked, hbooked, hsame⟩ := Option.map_eq_some_iff.1 hsome
  cases booked with
  | key booked => cases hsame
  | motion booked =>
    have hcue : { booked with pointer := cue.pointer } = cue := Cue.motion.inj hsame
    have haction : booked.action = cue.action := by rw [← hcue]
    have hmotion : alone.motion? = some booked := by
      rw [Booking.motion?, hbooked]
      rfl
    have hmakes := Source.makes_pointerTrack htrack halone hmotion (haction ▸ htouch)
    rw [← hcue]
    exact hmakes.withPointer cue.pointer

end Timeline

end ActionReplay
