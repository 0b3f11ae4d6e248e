import ActionReplay.Proofs.Replay.Ticks
import ActionReplay.Proofs.Timeline.Pointers
import ActionReplay.Proofs.Track.Playable

/-!
# A pointer source that is compiled alone

If every item of a pointer source has a position, whether the source compiles is a matter of its
durations and its contacts alone (`exists_ofSources_alone_iff`): pauses and moves say how long they
take, together they fit on the longest timeline, downs and ups alternate, and no two of a kind share
a tick. An up and a down may share one. The contacts of each pointer on a timeline are again such
contacts, also if there are many (`Timeline.Shows.contactsOf_eq`).
-/

set_option autoImplicit false
set_option relaxedAutoImplicit false

namespace ActionReplay

variable {locate : Locator} {s : Source} {sources : List Source} {t : Timeline}

/-! ### The contacts of one pointer -/

namespace Contact

/-- Contacts in tick order are distinct exactly if those of one kind are apart. -/
theorem spaced_iff_nodup {contacts : List Contact}
    (hordered : contacts.Pairwise fun a b ↦ a.tick ≤ b.tick) :
    (contacts.Pairwise fun a b ↦ a.isDown = b.isDown → a.tick < b.tick) ↔ contacts.Nodup := by
  constructor
  · intro hspaced
    refine hspaced.imp ?_
    rintro a b hlt rfl
    exact lt_irrefl a.tick (hlt rfl)
  · intro hnodup
    refine hordered.imp₂ ?_ hnodup
    rintro ⟨first, down⟩ ⟨second, other⟩ hle hne hsame
    obtain rfl : down = other := hsame
    exact lt_of_le_of_ne hle fun htick ↦ hne (congrArg (Contact.mk · down) htick)

theorem TakeTurns.nodup {contacts : List Contact} (hturns : TakeTurns contacts) :
    contacts.Nodup :=
  (spaced_iff_nodup hturns.ordered).1 hturns.spaced

end Contact

namespace Timeline

/-- The contacts of a pointer of a tool on a timeline, in the order of the cues. -/
def contactsOf (t : Timeline) (tool : Tool) (pointer : Nat) : List Contact :=
  t.ticks.flatMap fun tick ↦ (t.cuesAt tick).filterMap (Cue.contactOf? tool pointer tick)

/-- Tick by tick, a timeline shows the contacts of each pointer in the order in which the pointer
makes them. -/
theorem Shows.contactsOf_eq {count : Nat} {contacts : Tool → Nat → List Contact}
    (hshows : t.Shows count contacts) (tool : Tool) (pointer : Nat) :
    t.contactsOf tool pointer = contacts tool pointer := by
  obtain ⟨bound, hbound⟩ := exists_bound (t.ticks ++ (contacts tool pointer).map Contact.tick)
  obtain ⟨hticks, hcontacts⟩ := List.forall_mem_append.1 hbound
  have hnone : ∀ tick, tick ∉ t.ticks → Contact.during (contacts tool pointer) tick = [] := by
    intro tick htick
    rw [← hshows.shown, cuesAt_eq_nil htick]
    rfl
  have hall : Contact.before (contacts tool pointer) bound = contacts tool pointer :=
    List.filter_eq_self.2 fun contact hcontact ↦
      decide_eq_true (hcontacts _ (List.mem_map_of_mem hcontact))
  calc t.contactsOf tool pointer
      = t.ticks.flatMap (Contact.during (contacts tool pointer)) :=
        List.flatMap_congr fun tick _ ↦ hshows.shown tool pointer tick
    _ = (List.range bound).flatMap (Contact.during (contacts tool pointer)) :=
        flatMap_ticks hnone hticks
    _ = contacts tool pointer := by
        rw [Contact.flatMap_during (hshows.turns tool pointer).ordered, hall]

end Timeline

/-! ### One source -/

namespace Source

theorem ofKind_singleton (hkind : s.kind = .pointer) : ofKind [s] .pointer = [s] := by
  simp [ofKind, hkind]

theorem contactsOf_singleton (hkind : s.kind = .pointer) :
    contactsOf [s] s.tool 0 = s.contacts := by
  simp [contactsOf, ofKind_singleton hkind]

/-- The time that items take so far never passes a bound exactly if all of them do not. -/
theorem span_le_iff {bound : Nat} :
    s.span ≤ bound ↔ ∀ count, Item.spans (s.items.take count) ≤ bound := by
  constructor
  · intro hspan count
    have hsplit := Item.spans_append (s.items.take count) (s.items.drop count)
    rw [List.take_append_drop] at hsplit
    exact (Nat.le_add_right _ _).trans (hsplit.symm.trans_le hspan)
  · intro hall
    have hwhole := hall s.items.length
    rwa [List.take_length] at hwhole

/-- Assumes: items that a pointer can carry out. The source is playable exactly if they say how long
they take, fit on the longest timeline and make contacts that alternate and are distinct. -/
theorem playable_iff (hplain : ∀ item ∈ s.items, item.Plain) :
    s.Playable ↔ (∀ item ∈ s.items, item.Timed) ∧
      (∀ count, Item.spans (s.items.take count) ≤ longestTimeline) ∧
        Contact.Alternate false s.contacts ∧ s.contacts.Nodup := by
  have hordered : s.contacts.Pairwise fun a b ↦ a.tick ≤ b.tick := pairwise_contactsFrom
  constructor
  · rintro ⟨-, htimed, hfits, hturns⟩
    exact ⟨htimed, span_le_iff.1 hfits, hturns.alternate, hturns.nodup⟩
  · rintro ⟨htimed, hfits, halternate, hnodup⟩
    exact ⟨hplain, htimed, span_le_iff.2 hfits, halternate, hordered,
      (Contact.spaced_iff_nodup hordered).2 hnodup⟩

end Source

namespace Timeline

/-- Assumes: a pointer source without cancels, every item of which has a position. Compiled alone it
succeeds exactly if every pause and move has a duration that is not negative, the time that the
items take so far never passes the longest timeline, downs and ups alternate, and no two of a kind
share a tick. Then its pointer shows its contacts, and the contacts of every pointer alternate and
are distinct. -/
theorem exists_ofSources_alone_iff (hkind : s.kind = .pointer)
    (hplain : ∀ item ∈ s.items, item.Plain)
    (hplaced : ∀ place < s.items.length, s.HasPosition locate place) :
    ((∃ t, ofSources locate [s] = .ok t) ↔
        (∀ item ∈ s.items, item.Timed) ∧
          (∀ count, Item.spans (s.items.take count) ≤ longestTimeline) ∧
            Contact.Alternate false s.contacts ∧ s.contacts.Nodup) ∧
      ∀ t, ofSources locate [s] = .ok t →
        t.contactsOf s.tool 0 = s.contacts ∧
          ∀ tool pointer, Contact.Alternate false (t.contactsOf tool pointer) ∧
            (t.contactsOf tool pointer).Nodup := by
  refine ⟨?_, ?_⟩
  · have htrack : (∃ t, ofSources locate [s] = .ok t) ↔
        ∃ track, s.pointerTrack locate 0 = .ok track := by
      simp only [ofSources_singleton, Source.soloTrack, hkind]
      constructor
      · rintro ⟨t, track, htrack, -⟩
        exact ⟨track, htrack⟩
      · rintro ⟨track, htrack⟩
        exact ⟨_, track, htrack, rfl⟩
    rw [htrack, Source.exists_pointerTrack_iff, ← Source.playable_iff hplain]
    constructor
    · rintro ⟨-, hplayable, -⟩
      exact hplayable
    · intro hplayable
      exact ⟨.inl rfl, hplayable, fun k hk ↦ hplaced k (Source.lt_length_of_mem_asked hk)⟩
  · intro t ht
    have hshows := shows_of_ofSources ht
    refine ⟨?_, fun tool pointer ↦ ?_⟩
    · rw [hshows.contactsOf_eq, Source.contactsOf_singleton hkind]
    · rw [hshows.contactsOf_eq]
      have hturns := hshows.turns tool pointer
      exact ⟨hturns.alternate, hturns.nodup⟩

/-- A source that goes down, up after a pause, and down again at once. -/
def pressAgain (pause : Int64) : Source :=
  { id := "f"
    kind := .pointer
    pointerType := none
    items := [
      .pointerMove { duration := some 0, origin := .viewport, x := some 1, y := some 2,
                     pressure := none, size := none },
      .pointerDown none, .pause (some pause), .pointerUp none, .pointerDown none] }

/-- With a pause it compiles, although the up and the second down share a tick. Without one the two
downs share it too, and it does not compile. -/
theorem exists_ofSources_pressAgain :
    (∃ t, ofSources (fun _ ↦ none) [pressAgain 5] = .ok t ∧
      t.contactsOf .finger 0 = [⟨0, true⟩, ⟨5, false⟩, ⟨5, true⟩]) ∧
      ¬∃ t, ofSources (fun _ ↦ none) [pressAgain 0] = .ok t := by
  have hplain : ∀ pause, ∀ item ∈ (pressAgain pause).items, item.Plain := by
    intro pause item hitem
    simp only [pressAgain, List.mem_cons, List.not_mem_nil, or_false] at hitem
    rcases hitem with rfl | rfl | rfl | rfl | rfl
    all_goals exact ⟨rfl, ItemType.noConfusion⟩
  have hplaced : ∀ pause, ∀ place < (pressAgain pause).items.length,
      (pressAgain pause).HasPosition (fun _ ↦ none) place := by
    intro pause place hplace
    match place with
    | 0 | 1 | 2 | 3 | 4 => exact ⟨_, rfl⟩
    | place + 5 => exact absurd hplace (Nat.not_lt.2 (Nat.le_add_left 5 place))
  have hcontacts : (pressAgain 5).contacts = [⟨0, true⟩, ⟨5, false⟩, ⟨5, true⟩] ∧
      (pressAgain 0).contacts = [⟨0, true⟩, ⟨0, false⟩, ⟨0, true⟩] := by
    decide +kernel
  constructor
  · obtain ⟨hiff, hshown⟩ := exists_ofSources_alone_iff rfl (hplain 5) (hplaced 5)
    have htimed : ∀ item ∈ (pressAgain 5).items, item.Timed := by
      intro item hitem
      simp only [pressAgain, List.mem_cons, List.not_mem_nil, or_false] at hitem
      rcases hitem with rfl | rfl | rfl | rfl | rfl
      · exact ⟨0, rfl, by decide⟩
      · trivial
      · exact ⟨5, rfl, by decide⟩
      · trivial
      · trivial
    have hfits : (pressAgain 5).span ≤ longestTimeline := by decide +kernel
    obtain ⟨t, ht⟩ := hiff.2 ⟨htimed, Source.span_le_iff.1 hfits,
      by rw [hcontacts.1]; exact ⟨rfl, rfl, rfl, trivial⟩, by rw [hcontacts.1]; decide⟩
    exact ⟨t, ht, (hshown t ht).1.trans hcontacts.1⟩
  · intro hcompiles
    obtain ⟨-, -, -, hnodup⟩ :=
      (exists_ofSources_alone_iff rfl (hplain 0) (hplaced 0)).1.1 hcompiles
    rw [hcontacts.2] at hnodup
    exact absurd hnodup (by decide)

end Timeline

end ActionReplay
