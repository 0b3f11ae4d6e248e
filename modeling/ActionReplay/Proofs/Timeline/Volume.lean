import ActionReplay.Proofs.Replay.Ticks
import ActionReplay.Proofs.Timeline.Pointers
import ActionReplay.Proofs.Track.Samples
import Mathlib.Algebra.BigOperators.Group.Finset.Piecewise

/-!
# How much a payload books

Booking adds cues and loses none, so a timeline has as many cues as were booked
(`Timeline.cueCount_bookAll`), and together sources contribute what they contribute alone
(`Source.cueCount_orderedTracks`). A source without input contributes nothing, a key source a cue for
each item at most, and a pointer source two for each item and as many samples as fit on the longest
timeline (`Source.cueCount_soloTrack_le`). `Timeline.volume_le` puts this together with what is
booked when a payload does not compile.
-/

set_option autoImplicit false
set_option relaxedAutoImplicit false

namespace ActionReplay

variable {locate : Locator} {s : Source} {sources : List Source} {t : Timeline}

/-! ### Counting -/

namespace Timeline

theorem cueCount_eq_length (t : Timeline) : t.cueCount = (t.ticks.flatMap t.cuesAt).length := by
  have hfold : ∀ (entries : List (Tick × List Cue)) (count : Nat),
      entries.foldl (fun count entry ↦ count + entry.2.length) count =
        count + (entries.flatMap Prod.snd).length := by
    intro entries
    induction entries with
    | nil => exact fun _ ↦ rfl
    | cons entry rest ih =>
      intro count
      rw [List.foldl_cons, ih, List.flatMap_cons, List.length_append, Nat.add_assoc]
  rw [cueCount, hfold, toList_eq, List.flatMap_map, Nat.zero_add]

/-- The cues of a timeline are those of all ticks up to one that is late enough. -/
theorem cueCount_eq_sum {bound : Nat} (hbound : ∀ tick ∈ t.ticks, tick < bound) :
    t.cueCount = ∑ tick ∈ Finset.range bound, (t.cuesAt tick).length := by
  rw [cueCount_eq_length, flatMap_ticks (fun _ ↦ cuesAt_eq_nil) hbound]
  clear hbound
  induction bound with
  | zero => rfl
  | succ bound ih =>
    rw [List.range_succ, List.flatMap_append, List.length_append, ih, Finset.sum_range_succ,
      List.flatMap_singleton]

end Timeline

namespace Booking

/-- A booking puts its cue at one tick. -/
theorem sum_length_cueAt? {booking : Booking} {bound : Nat} (hbound : booking.tick < bound) :
    ∑ tick ∈ Finset.range bound, (booking.cueAt? tick).toList.length =
      if booking.cue.isSome then 1 else 0 := by
  have hat : ∀ tick, (booking.cueAt? tick).toList.length =
      if booking.tick = tick then (if booking.cue.isSome then 1 else 0) else 0 := by
    intro tick
    rw [cueAt?]
    by_cases htick : booking.tick = tick
    · rw [if_pos htick, if_pos htick, Option.length_toList]
    · rw [if_neg htick, if_neg htick]
      rfl
  rw [Finset.sum_congr rfl fun tick _ ↦ hat tick, Finset.sum_ite_eq,
    if_pos (Finset.mem_range.2 hbound)]

theorem sum_length_cuesAt {bookings : List Booking} {bound : Nat}
    (hbound : ∀ booking ∈ bookings, booking.tick < bound) :
    ∑ tick ∈ Finset.range bound, (cuesAt bookings tick).length = cueCount bookings := by
  induction bookings with
  | nil => exact Finset.sum_const_zero
  | cons booking rest ih =>
    obtain ⟨hfirst, hrest⟩ := List.forall_mem_cons.1 hbound
    simp only [cuesAt_cons, List.length_append, Finset.sum_add_distrib, sum_length_cueAt? hfirst,
      ih hrest]
    rw [cueCount, cueCount, List.countP_cons, Nat.add_comm]

end Booking

namespace Timeline

/-- Assumes: a timeline that shows at every tick as many cues as are booked there. It has as many cues as
are booked. -/
theorem cueCount_eq_of_length {bookings : List Booking}
    (hlength : ∀ tick, (t.cuesAt tick).length = (Booking.cuesAt bookings tick).length) :
    t.cueCount = Booking.cueCount bookings := by
  obtain ⟨bound, hbound⟩ := exists_bound (t.ticks ++ bookings.map Booking.tick)
  obtain ⟨hticks, hbookings⟩ := List.forall_mem_append.1 hbound
  rw [cueCount_eq_sum hticks, ← Booking.sum_length_cuesAt (List.forall_mem_map.1 hbookings)]
  exact Finset.sum_congr rfl fun tick _ ↦ hlength tick

/-- Assumes: an empty timeline to book on. Its cues are those booked. -/
theorem cueCount_bookAll (bookings : List Booking) :
    (empty.bookAll bookings).cueCount = Booking.cueCount bookings := by
  refine cueCount_eq_of_length fun tick ↦ ?_
  obtain ⟨standing, hstanding, hrejoins⟩ := empty.cuesAt_bookAll bookings tick
  rw [hstanding, cuesAt_empty, List.nil_append, hrejoins.length_eq]

end Timeline

/-! ### Sources together -/

namespace Source

theorem cueCount_map_withPointer (id : Nat) (bookings : List Booking) :
    Booking.cueCount (bookings.map (Booking.withPointer id)) = Booking.cueCount bookings := by
  rw [Booking.cueCount, List.countP_map]
  refine List.countP_congr fun booking _ ↦ ?_
  rw [Function.comp_apply, Booking.withPointer, Option.isSome_map]

/-- Going through the kinds one after another is going through all sources. -/
theorem sum_ofKind (f : Source → Nat) (sources : List Source) :
    ((ofKind sources .none).map f).sum + ((ofKind sources .key).map f).sum +
      ((ofKind sources .pointer).map f).sum = (sources.map f).sum := by
  induction sources with
  | nil => rfl
  | cons s rest ih =>
    have hcons : ∀ kind, ((ofKind (s :: rest) kind).map f).sum =
        (if s.kind = kind then f s else 0) + ((ofKind rest kind).map f).sum := by
      intro kind
      rw [ofKind, List.filter_cons]
      by_cases hkind : s.kind = kind
      · rw [if_pos (decide_eq_true hkind), if_pos hkind, List.map_cons, List.sum_cons]
        rfl
      · rw [if_neg (mt of_decide_eq_true hkind), if_neg hkind, Nat.zero_add]
        rfl
    have hone : (if s.kind = .none then f s else 0) + (if s.kind = .key then f s else 0) +
        (if s.kind = .pointer then f s else 0) = f s := by
      cases s.kind with
      | none => rfl
      | key => exact Nat.zero_add (f s)
      | pointer => exact Nat.zero_add (f s)
    rw [hcons, hcons, hcons, List.map_cons, List.sum_cons, ← ih]
    omega

/-- Each source contributes what it books alone. -/
theorem cueCount_orderedTracks (track : Source → List Booking) (sources : List Source) :
    Booking.cueCount (orderedTracks track sources).flatten =
      (sources.map fun s ↦ Booking.cueCount (track s)).sum := by
  have hpointers : (ofKind sources .pointer).zipIdx.map
        (fun x ↦ Booking.cueCount ((track x.1).map (Booking.withPointer x.2))) =
      (ofKind sources .pointer).map fun s ↦ Booking.cueCount (track s) := by
    simp only [cueCount_map_withPointer]
    rw [← List.zipIdx_map_fst 0 (ofKind sources .pointer), List.map_map, List.zipIdx_map_fst]
    rfl
  have hflatten := List.countP_flatten (p := fun booking : Booking ↦ booking.cue.isSome)
    (l := orderedTracks track sources)
  rw [Booking.cueCount, hflatten, ← sum_ofKind, ← hpointers, orderedTracks, List.map_append,
    List.map_append, List.map_append, List.sum_append, List.sum_append, List.map_map, List.map_map,
    List.map_map]
  rfl

/-- As many cues as a source can book: none without input, one for each item of a key source, and two for
each item of a pointer source beside the samples that fit on the longest timeline. -/
def cueBound (s : Source) : Nat :=
  match s.kind with
  | .none => 0
  | .key => s.items.length
  | .pointer => longestTimeline / quantum + 2 * s.items.length

theorem cueCount_soloTrack_le {track : List Booking} (htrack : s.soloTrack locate = .ok track) :
    Booking.cueCount track ≤ s.cueBound := by
  unfold cueBound
  refine soloTrack_elim htrack ?_ ?_ ?_
  · intro hkind hrest
    rw [hkind]
    exact (cueCount_restTrack hrest).le
  · intro hkind hkey
    rw [hkind]
    exact cueCount_keyTrackFrom_le hkey
  · intro hkind hpointer
    rw [hkind]
    exact cueCount_pointerTrack_le hpointer

end Source

namespace Timeline

/-- The timeline of a payload that compiles has the cues that its sources book when they are compiled
alone, and of each of them not more than its bound. Whether it compiles or not, a pointer source books no
more samples before its first fault than the longest timeline has quanta, and without a fault it books
just what is counted here; and a move that would pass the longest timeline is refused before anything is
looked up or booked, whatever its duration. -/
theorem volume_le (locate : Locator) :
    (∀ actions t, compile locate actions = .ok t →
      ∃ (sources : List Source) (alone : Source → Timeline),
        (Source.readAll actions >>= Source.accept) = .ok sources ∧
          (∀ s ∈ sources, ofSources locate [s] = .ok (alone s)) ∧
          t.cueCount = (sources.map fun s ↦ (alone s).cueCount).sum ∧
          ∀ s ∈ sources, (alone s).cueCount ≤ s.cueBound) ∧
      (∀ (s : Source) (p : Pointer),
        Source.runSampleCount (s.pointerRun locate p) ≤ longestTimeline / quantum) ∧
      (∀ (s : Source) ordinal track, s.pointerTrack locate ordinal = .ok track →
        (s.pointerRun locate { id := ordinal, tool := s.effectivePointerType.tool }).flatMap Prod.fst =
          track) ∧
      ∀ (s : Source) (p : Pointer) place next state (move : PointerMove) span,
        move.duration = some span → ¬span < 0 → quantum ≤ align span →
          longestTimeline < state.tick + align span →
            s.moveStep locate p place next state move =
              .error (.timelineTooLong s.id place .pointerMove) := by
  refine ⟨fun actions t ht ↦ ?_, Source.runSampleCount_pointerRun_le locate,
    fun s ordinal track ↦ Source.flatMap_pointerRun,
    fun s p place next state move span ↦ Source.moveStep_of_late⟩
  obtain ⟨sources, hread, hsources⟩ := exists_sources_of_compile ht
  obtain ⟨track, hsolo, rfl⟩ := exists_track_of_ofSources hsources
  refine ⟨sources, fun s ↦ empty.bookAll (track s), hread, ?_, ?_, ?_⟩
  · exact fun s hs ↦ ofSources_singleton.2 ⟨_, hsolo s hs, rfl⟩
  · simp only [cueCount_bookAll, Source.cueCount_orderedTracks]
  · intro s hs
    rw [cueCount_bookAll]
    exact Source.cueCount_soloTrack_le (hsolo s hs)

/-- A mouse that drags for three quanta, beside a source without input that pauses. -/
def shortDrag : Json :=
  .array [
    Json.typedPointerSource "m" .mouse [
      Json.item .pointerMove [(.duration, 0), (.x, 1), (.y, 2)],
      Json.item .pointerDown [],
      Json.item .pointerMove [(.duration, 12), (.x, 9), (.y, 2)],
      Json.item .pointerUp []],
    .object [("id", .string "n"), ("type", .string SourceKind.none.name),
      ("actions", .array [Json.item .pause [(.duration, 5)]])]]

/-- The drag has three samples, and there are a down and an up. A move that never ends is refused at
once. -/
theorem volume_shortDrag :
    (∃ t sources, ∃ alone : Source → Timeline, compile (fun _ ↦ none) shortDrag = .ok t ∧
      t.cueCount = 5 ∧ (Source.readAll shortDrag >>= Source.accept) = .ok sources ∧
      t.cueCount = (sources.map fun s ↦ (alone s).cueCount).sum ∧
      ∀ s ∈ sources, (alone s).cueCount ≤ s.cueBound) ∧
      ∀ (s : Source) (p : Pointer) place next state,
        s.moveStep (fun _ ↦ none) p place next state
            { duration := some Int64.maxValue, origin := .viewport, x := none, y := none,
              pressure := none, size := none } =
          .error (.timelineTooLong s.id place .pointerMove) := by
  obtain ⟨hcompiled, -, -, hlate⟩ := volume_le fun _ ↦ none
  constructor
  · have hcount : (compile (fun _ ↦ none) shortDrag).toOption.map cueCount = some 5 := by
      decide +kernel
    have hcompile : ∃ t, compile (fun _ ↦ none) shortDrag = .ok t := ⟨_, rfl⟩
    obtain ⟨t, ht⟩ := hcompile
    rw [ht] at hcount
    obtain ⟨sources, alone, hread, -, hsum, hbound⟩ := hcompiled shortDrag t ht
    exact ⟨t, sources, alone, ht, Option.some.inj hcount, hread, hsum, hbound⟩
  · intro s p place next state
    have hlong : longestTimeline + quantum ≤ align Int64.maxValue := by decide +kernel
    exact hlate s p place next state _ Int64.maxValue rfl (by decide)
      ((Nat.le_add_left _ _).trans hlong)
      (Nat.lt_add_left _ ((Nat.lt_add_of_pos_right (by decide)).trans_le hlong))

end Timeline

end ActionReplay
