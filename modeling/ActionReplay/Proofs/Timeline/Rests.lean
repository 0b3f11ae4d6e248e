import ActionReplay.Proofs.Replay.Rests
import ActionReplay.Proofs.Source.Spelled
import ActionReplay.Proofs.Timeline.Keys
import ActionReplay.Proofs.Timeline.Tools

/-!
# Sources without input only wait

A source without input adds ticks to a timeline and nothing else, and the sources beside it do not
notice that it is there. So it can be removed from a payload (`Json.withoutRests`): the values that are
left are read to the sources with input (`Source.readAll_withoutRests`), which are still accepted
(`Source.accept_active`), keep their ordinals, and book what they booked before. What is booked on a
timeline depends only on the cues and contacts that stand there (`Timeline.Alike.bookAll`), and the
rests have added neither, so the cues are the same at every tick (`Timeline.cuesAt_ofSources_active`).
Timelines with the same cues play alike, and this also holds of a timeline whose ticks without cues are
dropped (`Timeline.inert_rests`).
-/

set_option autoImplicit false
set_option relaxedAutoImplicit false

namespace ActionReplay

variable {locate : Locator} {sources accepted : List Source}

/-! ### Removing the sources without input -/

namespace Json

/-- The value names itself a source without input. -/
def isRest (v : Json) : Bool :=
  v.typeName? = some SourceKind.none.name

/-- A payload without its sources without input. -/
def withoutRests : Json → Json
  | .array values => .array (values.filter fun v ↦ !v.isRest)
  | v => v

theorem SpellsSource.isRest_iff {v : Json} {s : Source} (hspells : v.SpellsSource s) :
    v.isRest = true ↔ s.kind = .none := by
  rw [isRest, decide_eq_true_iff, hspells.kind, Option.some.injEq, ← SourceKind.ofName?_eq_some,
    SourceKind.ofName?_name, Option.some.injEq, eq_comm]

end Json

namespace Source

/-- The sources with input. -/
def active (sources : List Source) : List Source :=
  sources.filter fun s ↦ s.kind ≠ .none

theorem mem_active {s : Source} : s ∈ active sources ↔ s ∈ sources ∧ s.kind ≠ .none := by
  simp [active]

theorem active_sublist (sources : List Source) : (active sources).Sublist sources :=
  List.filter_sublist

/-- The values that are left are read to the sources with input: a value is kept exactly if the source
that it spells is. -/
theorem readAll_withoutRests {actions : Json} (hread : readAll actions = .ok sources) :
    readAll actions.withoutRests = .ok (active sources) := by
  obtain ⟨values, rfl, hspells⟩ := readAll_eq_ok.1 hread
  refine readAll_eq_ok.2 ⟨_, rfl, List.rel_filter (fun v s hfirst ↦ ?_) hspells⟩
  change (!v.isRest) = true ↔ decide (s.kind ≠ .none) = true
  rw [Bool.not_eq_true', ← Bool.not_eq_true, hfirst.isRest_iff, decide_eq_true_iff]

/-- Sources are accepted without those without input, which name no pointer type. -/
theorem accept_active (haccept : accept sources = .ok accepted) :
    accept (active sources) = .ok (active accepted) := by
  obtain ⟨hfrom, htypes⟩ := accept_eq_ok.1 haccept
  obtain ⟨hacceptable, hnodup, rfl⟩ := acceptFrom_eq_ok.1 hfrom
  have hsame := length_namedPointerTypes_le_one_iff.1 htypes
  refine accept_eq_ok.2 ⟨acceptFrom_eq_ok.2 ⟨?_, ?_, ?_⟩, ?_⟩
  · intro s hs
    exact hacceptable s (mem_active.1 hs).1
  · exact hnodup.sublist ((active_sublist sources).map Source.id)
  · rw [active, List.filter_map]
    rfl
  · rw [length_namedPointerTypes_le_one_iff]
    intro s hs r hr
    exact hsame s (mem_active.1 hs).1 r (mem_active.1 hr).1

/-! ### Booking without rests -/

theorem ofKind_active {kind : SourceKind} (hkind : kind ≠ .none) :
    ofKind (active sources) kind = ofKind sources kind := by
  rw [ofKind, active, List.filter_filter]
  refine List.filter_congr fun s _ ↦ ?_
  by_cases hsame : s.kind = kind
  · simp [hsame, hkind]
  · simp [hsame]

theorem ofKind_active_none : ofKind (active sources) .none = [] := by
  rw [ofKind, List.filter_eq_nil_iff]
  intro s hs
  rw [decide_eq_true_iff]
  exact (mem_active.1 hs).2

/-- The tracks of the sources without input come first. -/
theorem orderedTracks_eq_append (track : Source → List Booking) (sources : List Source) :
    orderedTracks track sources =
      (ofKind sources .none).map track ++ orderedTracks track (active sources) := by
  rw [orderedTracks, orderedTracks, ofKind_active_none, ofKind_active SourceKind.noConfusion,
    ofKind_active SourceKind.noConfusion, List.nil_append, List.map_append, List.append_assoc]

end Source

namespace Timeline

variable {t u : Timeline}

/-- Two timelines show the same cues and keep the same contacts; they may wait for different ticks. -/
structure Alike (t u : Timeline) : Prop where
  cues : ∀ tick, t.cuesAt tick = u.cuesAt tick
  contacts : t.contacts = u.contacts

theorem Alike.joined (halike : t.Alike u) (tick : Tick) : t.joined tick = u.joined tick := by
  funext cue
  cases cue with
  | key => rfl
  | motion cue =>
    rw [Timeline.joined, Timeline.joined, sharedEntry, sharedEntry, halike.contacts]

theorem Alike.book (halike : t.Alike u) (booking : Booking) :
    (t.book booking).Alike (u.book booking) := by
  constructor
  · intro tick
    rw [cuesAt_book, cuesAt_book, halike.cues, halike.joined]
  · cases hcontact : booking.contact? with
    | none => rw [contacts_book_of_none t hcontact, contacts_book_of_none u hcontact, halike.contacts]
    | some contact =>
      rw [contacts_book_of_some t hcontact, contacts_book_of_some u hcontact, halike.contacts]

theorem Alike.bookAll (halike : t.Alike u) (bookings : List Booking) :
    (t.bookAll bookings).Alike (u.bookAll bookings) := by
  induction bookings generalizing t u with
  | nil => exact halike
  | cons booking rest ih => exact ih (halike.book booking)

/-- Bookings without cues leave a timeline as it was, but for the ticks that it waits for. -/
theorem bookAll_alike {bookings : List Booking} (hrests : ∀ booking ∈ bookings, booking.cue = none) :
    (t.bookAll bookings).Alike t := by
  induction bookings generalizing t with
  | nil => exact ⟨fun _ ↦ rfl, rfl⟩
  | cons booking rest ih =>
    obtain ⟨hfirst, hlater⟩ := List.forall_mem_cons.1 hrests
    have hbook : t.book booking = t.addRest booking.tick := by rw [book, hfirst]
    obtain ⟨hcues, hcontacts⟩ := ih (t := t.addRest booking.tick) hlater
    rw [← hbook] at hcues hcontacts
    refine ⟨fun tick ↦ (hcues tick).trans ?_, hcontacts.trans ?_⟩
    · rw [hbook, cuesAt_addRest]
    · rw [hbook, addRest]

/-- Sources compile without those without input, to a timeline with the same cues. -/
theorem cuesAt_ofSources_active (ht : ofSources locate sources = .ok t) :
    ∃ u, ofSources locate (Source.active sources) = .ok u ∧ ∀ tick, u.cuesAt tick = t.cuesAt tick := by
  obtain ⟨tracks, htracks, -⟩ := ofSources_eq_ok.1 ht
  obtain ⟨-, htouch⟩ := Source.exists_of_tracks htracks
  obtain ⟨track, hsolo, rfl⟩ := exists_track_of_ofSources ht
  have hactive : Source.tracks locate (Source.active sources) =
      .ok (Source.orderedTracks track (Source.active sources)) := by
    apply Source.tracks_eq_ok fun s hs ↦ hsolo s (Source.mem_active.1 hs).1
    rwa [Source.TouchAfterFirst, Source.ofKind_active SourceKind.noConfusion]
  have hrests : ∀ booking ∈ ((Source.ofKind sources .none).map track).flatten,
      booking.cue = none := by
    intro booking hbooking
    obtain ⟨bookings, hbookings, hmem⟩ := List.mem_flatten.1 hbooking
    obtain ⟨s, hs, rfl⟩ := List.mem_map.1 hbookings
    obtain ⟨hs, hkind⟩ := Source.mem_ofKind.1 hs
    have htrack : s.restTrack = .ok (track s) := by
      simpa only [Source.soloTrack, hkind] using hsolo s hs
    exact Source.cue_restTrack htrack booking hmem
  have halike := (bookAll_alike (t := empty) hrests).bookAll
    (Source.orderedTracks track (Source.active sources)).flatten
  refine ⟨_, ofSources_eq_ok.2 ⟨_, hactive, rfl⟩, fun tick ↦ ?_⟩
  rw [Source.orderedTracks_eq_append track sources, List.flatten_append, bookAll_append]
  exact (halike.cues tick).symm

/-! ### Timing alone -/

/-- Sources without input make a replay wait and do nothing else. If a payload compiles, it compiles
without them, to a timeline that has the same cues at every tick and that no device can tell from the
one with them. And a timeline that drops its ticks without cues keeps all others as they were, and no
device can tell that any were dropped. -/
theorem inert_rests (locate : Locator) (t : Timeline) :
    (∀ actions, compile locate actions = .ok t →
      ∃ active, compile locate actions.withoutRests = .ok active ∧
        (∀ tick, active.cuesAt tick = t.cuesAt tick) ∧ active.PlaysLike t) ∧
      t.withoutRests.toList = (t.toList.filter fun entry ↦ !entry.2.isEmpty) ∧
      t.withoutRests.PlaysLike t := by
  refine ⟨fun actions ht ↦ ?_, toList_withoutRests t, .of_cuesAt_eq (cuesAt_withoutRests t)⟩
  obtain ⟨sources, hread, ht⟩ := bind_eq_ok.1 ht
  obtain ⟨accepted, haccept, ht⟩ := bind_eq_ok.1 ht
  obtain ⟨active, hactive, hcues⟩ := cuesAt_ofSources_active ht
  exact ⟨active, bind_eq_ok.2 ⟨_, Source.readAll_withoutRests hread,
    bind_eq_ok.2 ⟨_, Source.accept_active haccept, hactive⟩⟩, hcues, .of_cuesAt_eq hcues⟩

/-- A letter that is held for a while, between two sources that only pause. -/
def letterBesideRests : Json :=
  .array [
    .object [("id", .string "before"), ("type", .string SourceKind.none.name), ("actions", .array [
      Json.item .pause [(.duration, 30)],
      Json.item .pause [(.duration, 40)]])],
    .object [("id", .string "k"), ("type", .string SourceKind.key.name), ("actions", .array [
      keyItem .keyDown "a",
      Json.item .pause [(.duration, 50)],
      keyItem .keyUp "a"])],
    .object [("id", .string "after"), ("type", .string SourceKind.none.name), ("actions", .array [
      Json.item .pause [(.duration, 20)]])]]

/-- The letter alone waits for its own two ticks, and no device can tell. -/
theorem inert_rests_letter :
    ∃ t active, compile (fun _ ↦ none) letterBesideRests = .ok t ∧
      compile (fun _ ↦ none) letterBesideRests.withoutRests = .ok active ∧
      t.ticks = [0, 20, 30, 50, 70] ∧ active.ticks = [0, 50] ∧ active.PlaysLike t := by
  have hticks : (compile (fun _ ↦ none) letterBesideRests).toOption.map ticks =
      some [0, 20, 30, 50, 70] := by
    decide +kernel
  have hactive : (compile (fun _ ↦ none) letterBesideRests.withoutRests).toOption.map ticks =
      some [0, 50] := by
    decide +kernel
  have hcompile : ∃ t, compile (fun _ ↦ none) letterBesideRests = .ok t := ⟨_, rfl⟩
  obtain ⟨t, ht⟩ := hcompile
  obtain ⟨active, halone, -, hplays⟩ := (inert_rests (fun _ ↦ none) t).1 letterBesideRests ht
  rw [ht] at hticks
  rw [halone] at hactive
  exact ⟨t, active, ht, halone, Option.some.inj hticks, Option.some.inj hactive, hplays⟩

end Timeline

end ActionReplay
