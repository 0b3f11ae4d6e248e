import ActionReplay.Proofs.Timeline.Booking

/-!
# A timeline is the merge of its sources

Sources do not influence each other's compilation. A list of sources compiles exactly when each
source compiles alone and all pointer sources but the first are touch pointers. Its timeline then
waits for the ticks of the timelines of the single sources, and shows at every tick their cues one
source after another, the sources without input first, then the key sources, then the pointer
sources (`ofSources_eq_merge`). Only pointer sources notice that others are there: their cues carry
the ordinal of the source, and a motion that touches, of a source that is not the first, may have
joined an earlier chain (`Cue.JoinsAs`).
-/

set_option autoImplicit false
set_option relaxedAutoImplicit false

namespace ActionReplay

variable {locate : Locator} {s : Source} {sources : List Source}

/-- A cue of a pointer source that is compiled alone, and the same cue when the source has an
ordinal among others: it is a motion and carries the ordinal. Its entry tick may differ only if it
touches, and the cues of the first source do not differ at all. -/
def Cue.JoinsAs (ordinal : Nat) : Cue → Cue → Prop
  | .motion alone, .motion together =>
    together = { alone with pointer := ordinal, entry := together.entry } ∧
      (alone.action.isHover = true → together.entry = alone.entry) ∧
      (ordinal = 0 → together = alone)
  | _, _ => False

namespace Source

/-! ### Tracks -/

theorem mem_ofKind {kind : SourceKind} : s ∈ ofKind sources kind ↔ s ∈ sources ∧ s.kind = kind := by
  simp [ofKind]

/-- Every pointer source has an ordinal among the pointer sources. -/
theorem exists_ordinal (hs : s ∈ sources) (hkind : s.kind = .pointer) :
    ∃ ordinal, (s, ordinal) ∈ (ofKind sources .pointer).zipIdx := by
  obtain ⟨ordinal, hordinal, hget⟩ := List.mem_iff_getElem.1 (mem_ofKind.2 ⟨hs, hkind⟩)
  refine ⟨ordinal, ?_⟩
  rw [List.mk_mem_zipIdx_iff_getElem?, List.getElem?_eq_getElem hordinal, hget]

/-- The track of a source that is compiled alone. -/
def soloTrack (locate : Locator) (s : Source) : Except Fault (List Booking) :=
  match s.kind with
  | .none => s.restTrack
  | .key => s.keyTrack
  | .pointer => s.pointerTrack locate 0

/-- Assumes: a source that compiles alone. Its track is the one of its kind. -/
theorem soloTrack_elim {track : List Booking} {P : Prop} (htrack : s.soloTrack locate = .ok track)
    (hrest : s.kind = .none → s.restTrack = .ok track → P)
    (hkey : s.kind = .key → s.keyTrack = .ok track → P)
    (hpointer : s.kind = .pointer → s.pointerTrack locate 0 = .ok track → P) : P := by
  unfold soloTrack at htrack
  cases hkind : s.kind with
  | none =>
    rw [hkind] at htrack
    exact hrest hkind htrack
  | key =>
    rw [hkind] at htrack
    exact hkey hkind htrack
  | pointer =>
    rw [hkind] at htrack
    exact hpointer hkind htrack

theorem tracks_singleton :
    tracks locate [s] = (s.soloTrack locate).map fun track ↦ [track] := by
  have hone : ∀ kind, ofKind [s] kind = if s.kind = kind then [s] else [] := fun kind ↦ by
    simp [ofKind, List.filter_singleton]
  unfold tracks soloTrack
  simp only [hone]
  cases hkind : s.kind with
  | none =>
    simp only [if_true, reduceCtorEq, if_false, List.mapM_cons, List.mapM_nil, pointerTracksFrom]
    cases s.restTrack with
    | error fault => rfl
    | ok track => rfl
  | key =>
    simp only [if_true, reduceCtorEq, if_false, List.mapM_cons, List.mapM_nil, pointerTracksFrom]
    cases s.keyTrack with
    | error fault => rfl
    | ok track => rfl
  | pointer =>
    simp only [if_true, reduceCtorEq, if_false, List.mapM_nil, pointerTracksFrom]
    cases s.pointerTrack locate 0 with
    | error fault => rfl
    | ok track => rfl

/-- Assumes: pointer sources that compile alone, of which none but a first one is not a touch
pointer. Numbered from an ordinal on they compile to the same tracks, with their ordinals on the
cues. -/
theorem pointerTracksFrom_eq_ok {track : Source → List Booking} {ordinal : Nat}
    {pointers : List Source} (hsolo : ∀ s ∈ pointers, s.pointerTrack locate 0 = .ok (track s))
    (htouch : ∀ x ∈ pointers.zipIdx ordinal, x.2 = 0 ∨ x.1.effectivePointerType = .touch) :
    pointerTracksFrom locate ordinal pointers =
      .ok ((pointers.zipIdx ordinal).map fun x ↦ (track x.1).map (Booking.withPointer x.2)) := by
  induction pointers generalizing ordinal with
  | nil => rfl
  | cons s rest ih =>
    rw [List.zipIdx_cons] at htouch ⊢
    obtain ⟨hfirst, hrest⟩ := List.forall_mem_cons.1 hsolo
    obtain ⟨hallowed, hlater⟩ := List.forall_mem_cons.1 htouch
    have htrack := pointerTrack_eq_ok.2 ⟨hallowed, _, hfirst, rfl⟩
    exact bind_eq_ok.2 ⟨_, htrack, bind_eq_ok.2 ⟨_, ih hrest hlater, rfl⟩⟩

theorem exists_of_pointerTracksFrom {ordinal : Nat} {pointers : List Source}
    {tracks : List (List Booking)}
    (htracks : pointerTracksFrom locate ordinal pointers = .ok tracks) :
    ∀ x ∈ pointers.zipIdx ordinal, (x.2 = 0 ∨ x.1.effectivePointerType = .touch) ∧
      ∃ track, x.1.pointerTrack locate 0 = .ok track := by
  induction pointers generalizing ordinal tracks with
  | nil => exact List.forall_mem_nil _
  | cons s rest ih =>
    obtain ⟨track, htrack, htracks⟩ := bind_eq_ok.1 htracks
    obtain ⟨later, hlater, -⟩ := bind_eq_ok.1 htracks
    obtain ⟨hallowed, alone, halone, -⟩ := pointerTrack_eq_ok.1 htrack
    rw [List.zipIdx_cons]
    exact List.forall_mem_cons.2 ⟨⟨hallowed, alone, halone⟩, ih hlater⟩

/-- All pointer sources but the first are touch pointers. -/
def TouchAfterFirst (sources : List Source) : Prop :=
  ∀ s ∈ (ofKind sources .pointer).tail, s.effectivePointerType = .touch

theorem touchAfterFirst_iff : TouchAfterFirst sources ↔
    ∀ x ∈ (ofKind sources .pointer).zipIdx, x.2 = 0 ∨ x.1.effectivePointerType = .touch := by
  unfold TouchAfterFirst
  cases ofKind sources .pointer with
  | nil => simp
  | cons first rest =>
    rw [List.zipIdx_cons, List.forall_mem_cons, List.tail_cons]
    constructor
    · intro htouch
      refine ⟨.inl rfl, fun x hx ↦ .inr (htouch x.1 ?_)⟩
      exact List.fst_mem_of_mem_zipIdx hx
    · rintro ⟨-, htouch⟩ s hs
      obtain ⟨place, hplace, rfl⟩ := List.mem_iff_getElem.1 hs
      have hx : (rest[place], 0 + 1 + place) ∈ rest.zipIdx (0 + 1) := by
        rw [List.mk_add_mem_zipIdx_iff_getElem?]
        exact List.getElem?_eq_getElem hplace
      exact (htouch _ hx).resolve_left (by omega)

/-- The tracks of sources whose single tracks are known, in the order in which they are booked. -/
def orderedTracks (track : Source → List Booking) (sources : List Source) : List (List Booking) :=
  (ofKind sources .none ++ ofKind sources .key).map track ++
    (ofKind sources .pointer).zipIdx.map fun x ↦ (track x.1).map (Booking.withPointer x.2)

/-- Assumes: sources that compile alone, and no pointer source but the first that is not a touch
pointer. Together they compile to their single tracks. -/
theorem tracks_eq_ok {track : Source → List Booking}
    (hsolo : ∀ s ∈ sources, s.soloTrack locate = .ok (track s))
    (htouch : TouchAfterFirst sources) :
    tracks locate sources = .ok (orderedTracks track sources) := by
  have hkind : ∀ kind, ∀ s ∈ ofKind sources kind,
      s.kind = kind ∧ s.soloTrack locate = .ok (track s) := fun kind s hs ↦
    ⟨(mem_ofKind.1 hs).2, hsolo s (mem_ofKind.1 hs).1⟩
  have hrests : (ofKind sources .none).mapM restTrack = .ok ((ofKind sources .none).map track) := by
    apply mapM_eq_ok_map
    intro s hs
    obtain ⟨hnone, htrack⟩ := hkind .none s hs
    simpa only [soloTrack, hnone] using htrack
  have hkeys : (ofKind sources .key).mapM keyTrack = .ok ((ofKind sources .key).map track) := by
    apply mapM_eq_ok_map
    intro s hs
    obtain ⟨hkey, htrack⟩ := hkind .key s hs
    simpa only [soloTrack, hkey] using htrack
  have hpointers := pointerTracksFrom_eq_ok (fun s hs ↦ by
    obtain ⟨hpointer, htrack⟩ := hkind .pointer s hs
    simpa only [soloTrack, hpointer] using htrack) (touchAfterFirst_iff.1 htouch)
  unfold orderedTracks
  rw [List.map_append]
  exact bind_eq_ok.2 ⟨_, hrests, bind_eq_ok.2 ⟨_, hkeys, bind_eq_ok.2 ⟨_, hpointers, rfl⟩⟩⟩

/-- Sources that compile together compile alone, and no pointer source but the first is not a touch
pointer. -/
theorem exists_of_tracks {tracks : List (List Booking)}
    (htracks : Source.tracks locate sources = .ok tracks) :
    (∀ s ∈ sources, ∃ track, s.soloTrack locate = .ok track) ∧ TouchAfterFirst sources := by
  obtain ⟨rests, hrests, htracks⟩ := bind_eq_ok.1 htracks
  obtain ⟨keys, hkeys, htracks⟩ := bind_eq_ok.1 htracks
  obtain ⟨pointers, hpointers, -⟩ := bind_eq_ok.1 htracks
  have hall := exists_of_pointerTracksFrom hpointers
  refine ⟨?_, touchAfterFirst_iff.2 fun x hx ↦ (hall x hx).1⟩
  intro s hs
  unfold soloTrack
  cases hkind : s.kind with
  | none => exact exists_ok_of_mapM hrests s (mem_ofKind.2 ⟨hs, hkind⟩)
  | key => exact exists_ok_of_mapM hkeys s (mem_ofKind.2 ⟨hs, hkind⟩)
  | pointer =>
    obtain ⟨ordinal, hordinal⟩ := exists_ordinal hs hkind
    exact (hall _ hordinal).2

/-- A source that is no pointer source makes no motion. -/
theorem motion_soloTrack {track : List Booking} (hkind : s.kind ≠ .pointer)
    (htrack : s.soloTrack locate = .ok track) : ∀ booking ∈ track, booking.motion? = none :=
  soloTrack_elim htrack (fun _ ↦ motion_restTrack) (fun _ ↦ motion_keyTrack)
    fun hpointer _ ↦ absurd hpointer hkind

theorem pointerTrack_of_soloTrack {track : List Booking} (hkind : s.kind = .pointer)
    (htrack : s.soloTrack locate = .ok track) : s.pointerTrack locate 0 = .ok track := by
  rwa [soloTrack, hkind] at htrack

/-- Assumes: sources that compile alone to known tracks. -/
theorem pointerTrack_of_mem {track : Source → List Booking}
    (hsolo : ∀ s ∈ sources, s.soloTrack locate = .ok (track s))
    (hs : s ∈ ofKind sources .pointer) : s.pointerTrack locate 0 = .ok (track s) := by
  obtain ⟨hmem, hkind⟩ := mem_ofKind.1 hs
  exact pointerTrack_of_soloTrack hkind (hsolo s hmem)

/-- The sources that come before the pointer sources. -/
theorem mem_ofKind_append (hs : s ∈ ofKind sources .none ++ ofKind sources .key) :
    s ∈ sources ∧ s.kind ≠ .pointer := by
  rcases List.mem_append.1 hs with hnone | hkey
  · obtain ⟨hmem, hkind⟩ := mem_ofKind.1 hnone
    exact ⟨hmem, hkind ▸ SourceKind.noConfusion⟩
  · obtain ⟨hmem, hkind⟩ := mem_ofKind.1 hkey
    exact ⟨hmem, hkind ▸ SourceKind.noConfusion⟩

/-- Assumes: sources that compile alone to known tracks. Those that come before the pointer sources
book no motion. -/
theorem motion_others {track : Source → List Booking}
    (hsolo : ∀ s ∈ sources, s.soloTrack locate = .ok (track s)) :
    ∀ booking ∈ ((ofKind sources .none ++ ofKind sources .key).map track).flatten,
      booking.motion? = none := by
  intro booking hbooking
  obtain ⟨bookings, hbookings, hmem⟩ := List.mem_flatten.1 hbooking
  obtain ⟨s, hs, rfl⟩ := List.mem_map.1 hbookings
  obtain ⟨hs, hkind⟩ := mem_ofKind_append hs
  exact motion_soloTrack hkind (hsolo s hs) booking hmem

end Source

/-! ### Cues -/

namespace Booking

theorem cuesAt_withPointer (id : Nat) (bookings : List Booking) (tick : Tick) :
    cuesAt (bookings.map (withPointer id)) tick =
      (cuesAt bookings tick).map (Cue.withPointer id) := by
  unfold cuesAt
  rw [List.filterMap_map, List.map_filterMap]
  apply List.filterMap_congr
  intro booking _
  by_cases htick : booking.tick = tick
  · simp [cueAt?, withPointer, htick]
  · simp [cueAt?, withPointer, htick]

end Booking

/-- Assumes: a motion of the first pointer. What it becomes under another ordinal and on a timeline
is how it stands there. -/
theorem Cue.JoinsAs.of_rejoins {ordinal : Nat} {alone together : Cue} (hlater : ordinal ≠ 0)
    (hmotion : ∃ cue, alone = .motion cue)
    (hrejoins : (alone.withPointer ordinal).Rejoins together) : alone.JoinsAs ordinal together := by
  obtain ⟨cue, rfl⟩ := hmotion
  cases together with
  | key other => exact hrejoins.elim
  | motion other =>
    obtain ⟨hsame, hhover⟩ := hrejoins
    exact ⟨hsame, hhover, fun hfirst ↦ absurd hfirst hlater⟩

theorem Cue.joinsAs_self {cue : MotionCue} (hpointer : cue.pointer = 0) :
    Cue.JoinsAs 0 (.motion cue) (.motion cue) := by
  obtain ⟨entry, action, position, button, pointer, tool⟩ := cue
  cases hpointer
  exact ⟨rfl, fun _ ↦ rfl, fun _ ↦ rfl⟩

namespace Timeline

theorem ofSources_eq_ok {t : Timeline} :
    ofSources locate sources = .ok t ↔
      ∃ tracks, Source.tracks locate sources = .ok tracks ∧ t = empty.bookAll tracks.flatten := by
  unfold ofSources
  rw [bind_eq_ok]
  refine exists_congr fun tracks ↦ and_congr_right fun _ ↦ ?_
  rw [← foldl_bookAll]
  exact ⟨fun h ↦ (Except.ok.inj h).symm, fun h ↦ congrArg Except.ok h.symm⟩

theorem ofSources_singleton {t : Timeline} :
    ofSources locate [s] = .ok t ↔
      ∃ track, s.soloTrack locate = .ok track ∧ t = empty.bookAll track := by
  rw [ofSources_eq_ok, Source.tracks_singleton]
  cases s.soloTrack locate with
  | error fault =>
    constructor
    · rintro ⟨tracks, htracks, -⟩
      cases htracks
    · rintro ⟨track, htrack, -⟩
      cases htrack
  | ok track =>
    constructor
    · rintro ⟨tracks, htracks, rfl⟩
      cases htracks
      exact ⟨track, rfl, congrArg empty.bookAll (List.append_nil track)⟩
    · rintro ⟨track, htrack, rfl⟩
      cases htrack
      exact ⟨[track], rfl, congrArg empty.bookAll (List.append_nil track).symm⟩

/-- Nothing stands on an empty timeline, so a source that is compiled alone shows what it books. -/
theorem cuesAt_solo {track : List Booking} (htrack : s.soloTrack locate = .ok track) (tick : Tick) :
    (empty.bookAll track).cuesAt tick = Booking.cuesAt track tick := by
  by_cases hkind : s.kind = .pointer
  · have hpointer := Source.pointerTrack_of_soloTrack hkind htrack
    have hturns := Source.takeTurns_contacts hpointer
    rw [← Source.contacts_pointerTrack hpointer] at hturns
    have hcues := cuesAt_bookAll_alone (t := empty) hturns.alternate hturns.ordered tick
    rwa [cuesAt_empty] at hcues
  · have hmotion := Source.motion_soloTrack hkind htrack
    have hcues := (cuesAt_bookAll_motionless (t := empty) hmotion).1 tick
    rwa [cuesAt_empty] at hcues

/-- At every tick the cues of one track after another stand after those that were there. -/
theorem cuesAt_foldl_bookAll (t : Timeline) (tracks : List (List Booking)) (tick : Tick) :
    ∃ together : List (List Cue),
      (tracks.foldl bookAll t).cuesAt tick = t.cuesAt tick ++ together.flatten ∧
        List.Forall₂ (fun track cues ↦ List.Forall₂ Cue.Rejoins (Booking.cuesAt track tick) cues)
          tracks together := by
  induction tracks generalizing t with
  | nil => exact ⟨[], (List.append_nil _).symm, .nil⟩
  | cons track rest ih =>
    obtain ⟨standing, hstanding, hrejoins⟩ := t.cuesAt_bookAll track tick
    obtain ⟨together, htogether, hrest⟩ := ih (t.bookAll track)
    refine ⟨standing :: together, ?_, .cons hrejoins hrest⟩
    rw [List.foldl_cons, htogether, hstanding, List.flatten_cons, List.append_assoc]

end Timeline

/-! ### The merge -/

namespace Source

/-- The ticks of the ordered tracks are the ticks of the single tracks. -/
theorem exists_mem_orderedTracks {track : Source → List Booking} {tick : Tick} :
    (∃ booking ∈ (orderedTracks track sources).flatten, booking.tick = tick) ↔
      ∃ s ∈ sources, ∃ booking ∈ track s, booking.tick = tick := by
  constructor
  · rintro ⟨booking, hbooking, htick⟩
    obtain ⟨bookings, hbookings, hmem⟩ := List.mem_flatten.1 hbooking
    rcases List.mem_append.1 hbookings with hother | hpointer
    · obtain ⟨s, hs, rfl⟩ := List.mem_map.1 hother
      exact ⟨s, (mem_ofKind_append hs).1, booking, hmem, htick⟩
    · obtain ⟨x, hx, rfl⟩ := List.mem_map.1 hpointer
      obtain ⟨alone, halone, rfl⟩ := List.mem_map.1 hmem
      exact ⟨x.1, (mem_ofKind.1 (List.fst_mem_of_mem_zipIdx hx)).1, alone, halone, htick⟩
  · rintro ⟨s, hs, booking, hbooking, htick⟩
    cases hkind : s.kind with
    | none =>
      refine ⟨booking, List.mem_flatten.2 ⟨track s, List.mem_append_left _ ?_, hbooking⟩, htick⟩
      exact List.mem_map_of_mem (List.mem_append_left _ (mem_ofKind.2 ⟨hs, hkind⟩))
    | key =>
      refine ⟨booking, List.mem_flatten.2 ⟨track s, List.mem_append_left _ ?_, hbooking⟩, htick⟩
      exact List.mem_map_of_mem (List.mem_append_right _ (mem_ofKind.2 ⟨hs, hkind⟩))
    | pointer =>
      obtain ⟨ordinal, hordinal⟩ := exists_ordinal hs hkind
      refine ⟨booking.withPointer ordinal, List.mem_flatten.2
        ⟨(track s).map (Booking.withPointer ordinal), List.mem_append_right _ ?_, ?_⟩, htick⟩
      · exact List.mem_map.2 ⟨(s, ordinal), hordinal, rfl⟩
      · exact List.mem_map_of_mem hbooking

end Source

namespace Timeline

variable {track : Source → List Booking}

/-- Assumes: a pointer source that is compiled alone. Every cue it shows is a motion of pointer
0. -/
theorem exists_motion_of_mem_cuesAt (hpointer : s.pointerTrack locate 0 = .ok (track s))
    {tick : Tick} {cue : Cue} (hcue : cue ∈ Booking.cuesAt (track s) tick) :
    ∃ motion : MotionCue, cue = .motion motion ∧ motion.pointer = 0 := by
  obtain ⟨booking, hbooking, -, hsome⟩ := Booking.mem_cuesAt hcue
  rcases Source.owns_pointerTrack hpointer booking hbooking with hnone | ⟨motion, hmotion, hid, -⟩
  · rw [hnone] at hsome
    cases hsome
  · rw [hmotion] at hsome
    exact ⟨motion, (Option.some.inj hsome).symm, hid⟩

/-- Assumes: pointer sources that compile alone to known tracks, and a timeline without contacts.
Booking their tracks one after another shows at every tick the cues of the single tracks, source by
source. -/
theorem cuesAt_pointers {base : Timeline} (hcontacts : base.contacts = []) {pointers : List Source}
    (hsolo : ∀ s ∈ pointers, s.pointerTrack locate 0 = .ok (track s)) (tick : Tick) :
    ∃ together : List (List Cue),
      ((pointers.zipIdx.map fun x ↦ (track x.1).map (Booking.withPointer x.2)).foldl bookAll
          base).cuesAt tick = base.cuesAt tick ++ together.flatten ∧
        List.Forall₂ (fun x cues ↦
          List.Forall₂ (Cue.JoinsAs x.2) (Booking.cuesAt (track x.1) tick) cues)
          pointers.zipIdx together := by
  cases pointers with
  | nil => exact ⟨[], (List.append_nil _).symm, .nil⟩
  | cons first rest =>
    obtain ⟨hfirst, hrest⟩ := List.forall_mem_cons.1 hsolo
    have hsame : (track first).map (Booking.withPointer 0) = track first := by
      obtain ⟨-, alone, halone, hmap⟩ := Source.pointerTrack_eq_ok.1 hfirst
      rw [hfirst] at halone
      rw [← Except.ok.inj halone] at hmap
      exact hmap.symm
    have hturns := Source.takeTurns_contacts hfirst
    rw [← Source.contacts_pointerTrack hfirst, ← List.nil_append (List.filterMap _ _),
      ← hcontacts] at hturns
    have hcues := cuesAt_bookAll_alone hturns.alternate hturns.ordered tick
    rw [List.zipIdx_cons, List.map_cons, List.foldl_cons, hsame]
    obtain ⟨together, htogether, hrejoins⟩ := cuesAt_foldl_bookAll (base.bookAll (track first))
      ((rest.zipIdx (0 + 1)).map fun x ↦ (track x.1).map (Booking.withPointer x.2)) tick
    refine ⟨Booking.cuesAt (track first) tick :: together, ?_, .cons ?_ ?_⟩
    · rw [htogether, hcues, List.flatten_cons, List.append_assoc]
    · apply List.forall₂_same.2
      intro cue hcue
      obtain ⟨motion, rfl, hid⟩ := exists_motion_of_mem_cuesAt hfirst hcue
      exact Cue.joinsAs_self hid
    · rw [List.forall₂_map_left_iff] at hrejoins
      have hlater : ∀ x ∈ rest.zipIdx (0 + 1),
          x.2 ≠ 0 ∧ x.1.pointerTrack locate 0 = .ok (track x.1) := fun x hx ↦
        ⟨by have := List.le_snd_of_mem_zipIdx hx; omega,
          hrest x.1 (List.fst_mem_of_mem_zipIdx hx)⟩
      refine ((List.forall₂_and_left _ _).2 ⟨hlater, hrejoins⟩).imp ?_
      rintro x cues ⟨⟨hordinal, hpointer⟩, hcues⟩
      rw [Booking.cuesAt_withPointer, List.forall₂_map_left_iff] at hcues
      have hmotion : ∀ cue ∈ Booking.cuesAt (track x.1) tick, ∃ motion, cue = .motion motion :=
        fun cue hcue ↦ (exists_motion_of_mem_cuesAt hpointer hcue).imp fun _ h ↦ h.1
      exact ((List.forall₂_and_left _ _).2 ⟨hmotion, hcues⟩).imp fun cue standing h ↦
        Cue.JoinsAs.of_rejoins hordinal h.1 h.2

theorem mem_ticks_solo {bookings : List Booking} {tick : Tick} :
    tick ∈ (empty.bookAll bookings).ticks ↔ ∃ booking ∈ bookings, booking.tick = tick := by
  rw [mem_ticks_bookAll, or_iff_right]
  simp [empty, ticks]

/-- A timeline of sources is booked from their single tracks. -/
theorem exists_track_of_ofSources {t : Timeline} (ht : ofSources locate sources = .ok t) :
    ∃ track : Source → List Booking, (∀ s ∈ sources, s.soloTrack locate = .ok (track s)) ∧
      t = empty.bookAll (Source.orderedTracks track sources).flatten := by
  obtain ⟨tracks, htracks, rfl⟩ := ofSources_eq_ok.1 ht
  obtain ⟨hsolo, htouch⟩ := Source.exists_of_tracks htracks
  choose! track htrack using hsolo
  refine ⟨track, htrack, ?_⟩
  rw [Except.ok.inj (htracks.symm.trans (Source.tracks_eq_ok htrack htouch))]

/-- Assumes: sources that compile alone to known tracks. The cues of their timeline at a tick are
those of the single tracks, source by source. -/
theorem cuesAt_orderedTracks (hsolo : ∀ s ∈ sources, s.soloTrack locate = .ok (track s))
    (tick : Tick) :
    ∃ together : List (List Cue),
      (empty.bookAll (Source.orderedTracks track sources).flatten).cuesAt tick =
          (Source.ofKind sources .none ++ Source.ofKind sources .key).flatMap
            (fun s ↦ Booking.cuesAt (track s) tick) ++ together.flatten ∧
        List.Forall₂ (fun x cues ↦
          List.Forall₂ (Cue.JoinsAs x.2) (Booking.cuesAt (track x.1) tick) cues)
          (Source.ofKind sources .pointer).zipIdx together := by
  obtain ⟨hcues, hcontacts⟩ := cuesAt_bookAll_motionless (t := empty) (Source.motion_others hsolo)
  obtain ⟨together, htogether, hjoins⟩ :=
    cuesAt_pointers hcontacts (fun s hs ↦ Source.pointerTrack_of_mem hsolo hs) tick
  refine ⟨together, ?_, hjoins⟩
  rw [← foldl_bookAll, Source.orderedTracks, List.foldl_append, foldl_bookAll empty, htogether,
    hcues, cuesAt_empty, List.nil_append, Booking.cuesAt_flatten, List.flatMap_map]

/-- Sources compile exactly when each of them compiles alone and all pointer sources but the first
are touch pointers. Their timeline waits for the ticks of the single timelines. It shows at every
tick the cues of the single timelines there: those of the sources without input, then those of the
key sources, both as they are, and then those of the pointer sources, which carry the ordinals of
their sources and join earlier chains. -/
theorem ofSources_eq_merge (locate : Locator) (sources : List Source) :
    ((∃ t, ofSources locate sources = .ok t) ↔
        (∀ s ∈ sources, ∃ alone, ofSources locate [s] = .ok alone) ∧
          Source.TouchAfterFirst sources) ∧
      ∀ t, ofSources locate sources = .ok t →
        ∃ alone : Source → Timeline,
          (∀ s ∈ sources, ofSources locate [s] = .ok (alone s)) ∧
            (∀ tick, tick ∈ t.ticks ↔ ∃ s ∈ sources, tick ∈ (alone s).ticks) ∧
              ∀ tick, ∃ together : List (List Cue),
                t.cuesAt tick =
                    (Source.ofKind sources .none ++ Source.ofKind sources .key).flatMap
                      (fun s ↦ (alone s).cuesAt tick) ++ together.flatten ∧
                  List.Forall₂ (fun x cues ↦
                    List.Forall₂ (Cue.JoinsAs x.2) ((alone x.1).cuesAt tick) cues)
                    (Source.ofKind sources .pointer).zipIdx together := by
  refine ⟨⟨?_, ?_⟩, ?_⟩
  · rintro ⟨t, ht⟩
    obtain ⟨tracks, htracks, -⟩ := ofSources_eq_ok.1 ht
    obtain ⟨hsolo, htouch⟩ := Source.exists_of_tracks htracks
    refine ⟨fun s hs ↦ ?_, htouch⟩
    obtain ⟨track, htrack⟩ := hsolo s hs
    exact ⟨_, ofSources_singleton.2 ⟨track, htrack, rfl⟩⟩
  · rintro ⟨halone, htouch⟩
    have hsolo : ∀ s ∈ sources, ∃ track, s.soloTrack locate = .ok track := fun s hs ↦ by
      obtain ⟨alone, halone⟩ := halone s hs
      obtain ⟨track, htrack, -⟩ := ofSources_singleton.1 halone
      exact ⟨track, htrack⟩
    choose! track htrack using hsolo
    exact ⟨_, ofSources_eq_ok.2 ⟨_, Source.tracks_eq_ok htrack htouch, rfl⟩⟩
  · intro t ht
    obtain ⟨track, hsolo, rfl⟩ := exists_track_of_ofSources ht
    have hcues : ∀ s ∈ sources, ∀ tick,
        (empty.bookAll (track s)).cuesAt tick = Booking.cuesAt (track s) tick :=
      fun s hs tick ↦ cuesAt_solo (hsolo s hs) tick
    refine ⟨fun s ↦ empty.bookAll (track s), ?_, ?_, ?_⟩
    · intro s hs
      exact ofSources_singleton.2 ⟨track s, hsolo s hs, rfl⟩
    · intro tick
      rw [mem_ticks_solo, Source.exists_mem_orderedTracks]
      simp only [mem_ticks_solo]
    · intro tick
      obtain ⟨together, htogether, hjoins⟩ := cuesAt_orderedTracks hsolo tick
      refine ⟨together, ?_, ?_⟩
      · rw [htogether]
        congr 1
        exact List.flatMap_congr fun s hs ↦ (hcues s (Source.mem_ofKind_append hs).1 tick).symm
      · have hmem : ∀ x ∈ (Source.ofKind sources .pointer).zipIdx, x.1 ∈ sources := fun x hx ↦
          (Source.mem_ofKind.1 (List.fst_mem_of_mem_zipIdx hx)).1
        refine ((List.forall₂_and_left _ _).2 ⟨hmem, hjoins⟩).imp ?_
        rintro x cues ⟨hx, hcue⟩
        rwa [hcues x.1 hx tick]

end Timeline

end ActionReplay
