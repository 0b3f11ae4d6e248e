import ActionReplay.Proofs.Timeline.Pointers
import ActionReplay.Proofs.Track.Span
import ActionReplay.Replay.Signal

/-!
# How long a timeline is

A timeline ends with the longest of its sources, and a replay that keeps the time waits for as long
as that takes, provided that a longest source ends at all: one that ends with a drag followed only
by moves that take no time stops a quantum early. If all of the longest sources do, so does the
timeline (`Timeline.lastTick?_of_compile`).
-/

set_option autoImplicit false
set_option relaxedAutoImplicit false

namespace ActionReplay

variable {locate : Locator} {s : Source} {sources : List Source} {t : Timeline}

/-! ### Sources -/

namespace Source

theorem items_ne_nil_of_span (hlong : 0 < s.span) : s.items ≠ [] := by
  intro hnone
  rw [span, hnone] at hlong
  exact lt_irrefl 0 hlong

/-- No track books a tick past the end of its source. -/
theorem tick_le_span {track : List Booking} (htrack : s.soloTrack locate = .ok track) :
    ∀ booking ∈ track, booking.tick ≤ s.span := by
  refine soloTrack_elim htrack ?_ ?_ fun _ ↦ tick_le_span_pointerTrack
  · intro _ hrest
    by_cases hnone : s.items = []
    · rw [restTrack, hnone] at hrest
      cases hrest
      exact List.forall_mem_nil _
    · exact (ends_restTrack hrest hnone).1
  · intro _ hkey
    by_cases hnone : s.items = []
    · rw [keyTrack, hnone] at hkey
      cases hkey
      exact List.forall_mem_nil _
    · exact (ends_keyTrack hkey hnone).1

/-- The track of a source that takes time ends when the source does, unless it loses its end. -/
theorem ends_or_losesEnd {track : List Booking} (htrack : s.soloTrack locate = .ok track)
    (hlong : 0 < s.span) : Booking.EndAt track s.span ∨ s.LosesEnd :=
  soloTrack_elim htrack
    (fun _ hrest ↦ .inl (ends_restTrack hrest (items_ne_nil_of_span hlong)))
    (fun _ hkey ↦ .inl (ends_keyTrack hkey (items_ne_nil_of_span hlong)))
    fun hkind hpointer ↦ ends_or_losesEnd_pointerTrack hpointer hkind hlong

theorem LosesEnd.stays_getLast? (hloses : s.LosesEnd) :
    ∃ item, s.items.getLast? = some item ∧ item.Stays := by
  obtain ⟨-, before, move, stays, hitems, -, -, -, hsome, hstays⟩ := hloses
  refine ⟨stays.getLast hsome, ?_, hstays _ (List.getLast_mem hsome)⟩
  rw [hitems, List.getLast?_append, List.getLast?_cons, List.getLast?_eq_some_getLast hsome]
  rfl

/-- The longest time that a source takes. -/
def longestSpan (sources : List Source) : Nat :=
  (sources.map span).max?.getD 0

theorem longestSpan_singleton (s : Source) : longestSpan [s] = s.span := rfl

theorem longestSpan_spec (hs : s ∈ sources) :
    (∃ longest ∈ sources, longest.span = longestSpan sources) ∧
      ∀ other ∈ sources, other.span ≤ longestSpan sources := by
  obtain ⟨longest, hlongest⟩ : ∃ longest, (sources.map span).max? = some longest :=
    Option.isSome_iff_exists.1 (List.isSome_max?_of_mem (List.mem_map_of_mem hs))
  obtain ⟨hmem, hle⟩ := List.max?_eq_some_iff.1 hlongest
  rw [longestSpan, hlongest, Option.getD_some]
  constructor
  · exact List.mem_map.1 hmem
  · exact fun other hother ↦ hle _ (List.mem_map_of_mem hother)

/-- A source that is shorter than another is so by a quantum at least. -/
theorem span_add_quantum_le {other : Source} (hlt : s.span < other.span) :
    s.span + quantum ≤ other.span := by
  have hdvd : quantum ∣ other.span - s.span :=
    Nat.dvd_sub (Item.quantum_dvd_spans _) (Item.quantum_dvd_spans _)
  have hle := Nat.le_of_dvd (Nat.sub_pos_of_lt hlt) hdvd
  omega

end Source

/-! ### Timelines -/

namespace Timeline

theorem lastTick?_eq_some {tick : Tick} (hmem : tick ∈ t.ticks)
    (hlast : ∀ other ∈ t.ticks, other ≤ tick) : t.lastTick? = some tick := by
  have hordered := t.ticks_pairwise
  unfold lastTick?
  rcases List.eq_nil_or_concat t.ticks with hnone | ⟨earlier, last, hall⟩
  · rw [hnone] at hmem
    exact absurd hmem List.not_mem_nil
  · rw [List.concat_eq_append] at hall
    rw [hall] at hmem hlast hordered ⊢
    rw [List.getLast?_concat]
    rcases List.mem_append.1 hmem with hearlier | hsame
    · have hlt := (List.pairwise_append.1 hordered).2.2 tick hearlier last List.mem_cons_self
      have hle := hlast last (List.mem_append_right _ List.mem_cons_self)
      exact absurd hlt (not_lt.2 hle)
    · rw [List.mem_singleton.1 hsame]

/-- The waits between ticks in increasing order add up to the last of them. -/
theorem sum_waitsFrom {previous : Tick} {ticks : List Tick}
    (hordered : (previous :: ticks).Pairwise (· ≤ ·)) :
    previous + (waitsFrom previous ticks).sum = ticks.getLast?.getD previous := by
  induction ticks generalizing previous with
  | nil => rfl
  | cons tick rest ih =>
    obtain ⟨hfirst, hrest⟩ := List.pairwise_cons.1 hordered
    rw [waitsFrom, List.sum_cons, ← Nat.add_assoc,
      Nat.add_sub_of_le (hfirst tick List.mem_cons_self), ih hrest, List.getLast?_cons]
    rfl

/-- A replay that keeps the time takes until the last tick. -/
theorem sum_waits (t : Timeline) : t.waits.sum = t.lastTick?.getD 0 := by
  have hordered : (0 :: t.ticks).Pairwise (· ≤ ·) :=
    List.pairwise_cons.2 ⟨fun _ _ ↦ Nat.zero_le _, t.ticks_pairwise.imp fun hlt ↦ hlt.le⟩
  have hsum := sum_waitsFrom hordered
  rwa [Nat.zero_add] at hsum

/-- A timeline of sources waits for the ticks that they book. -/
theorem exists_track_of_mem_ticks (ht : ofSources locate sources = .ok t) :
    ∃ track : Source → List Booking, (∀ s ∈ sources, s.soloTrack locate = .ok (track s)) ∧
      ∀ tick, tick ∈ t.ticks ↔ ∃ s ∈ sources, ∃ booking ∈ track s, booking.tick = tick := by
  obtain ⟨track, hsolo, rfl⟩ := exists_track_of_ofSources ht
  refine ⟨track, hsolo, fun tick ↦ ?_⟩
  rw [mem_ticks_solo, Source.exists_mem_orderedTracks]

/-- Assumes: some source that takes time. -/
theorem lastTick?_of_ofSources (ht : ofSources locate sources = .ok t)
    (hlong : ∃ s ∈ sources, 0 < s.span) :
    ((∃ s ∈ sources, s.span = Source.longestSpan sources ∧ ¬s.LosesEnd) →
        t.lastTick? = some (Source.longestSpan sources)) ∧
      ((∀ s ∈ sources, s.span = Source.longestSpan sources → s.LosesEnd) →
        t.lastTick? = some (Source.longestSpan sources - quantum)) := by
  obtain ⟨track, hsolo, hticks⟩ := exists_track_of_mem_ticks ht
  obtain ⟨some_, hsome, hpos⟩ := hlong
  obtain ⟨⟨longest, hlongest, hspan⟩, hle⟩ := Source.longestSpan_spec hsome
  constructor
  · rintro ⟨s, hs, hsame, hkeeps⟩
    have hpositive : 0 < s.span := hsame ▸ hpos.trans_le (hle some_ hsome)
    obtain ⟨-, booking, hbooking, hend⟩ :=
      (Source.ends_or_losesEnd (hsolo s hs) hpositive).resolve_right hkeeps
    apply lastTick?_eq_some
    · exact (hticks _).2 ⟨s, hs, booking, hbooking, hend.trans hsame⟩
    · intro tick htick
      obtain ⟨other, hother, booking, hbooking, rfl⟩ := (hticks tick).1 htick
      exact (Source.tick_le_span (hsolo other hother) booking hbooking).trans (hle other hother)
  · intro hlose
    have hends : ∀ s ∈ sources, s.span = Source.longestSpan sources →
        Booking.EndAt (track s) (Source.longestSpan sources - quantum) := by
      intro s hs hsame
      have hloses := hlose s hs hsame
      have htrack := Source.pointerTrack_of_soloTrack hloses.1 (hsolo s hs)
      exact hsame ▸ (hloses.endAt htrack).1
    obtain ⟨-, booking, hbooking, hend⟩ := hends longest hlongest hspan
    apply lastTick?_eq_some
    · exact (hticks _).2 ⟨longest, hlongest, booking, hbooking, hend⟩
    · intro tick htick
      obtain ⟨other, hother, booking, hbooking, rfl⟩ := (hticks tick).1 htick
      rcases (hle other hother).eq_or_lt with hsame | hlt
      · exact (hends other hother hsame).1 booking hbooking
      · have hshorter := Source.span_add_quantum_le (hspan ▸ hlt)
        have hbefore := Source.tick_le_span (hsolo other hother) booking hbooking
        rw [← hspan]
        exact hbefore.trans (Nat.le_sub_of_add_le hshorter)

/-- Assumes: a payload that compiles, with some source that takes time. If one of the longest
sources does not lose its end, the last tick of the timeline is the time that it takes, which is
also how long a replay that keeps the time waits. If all of them lose their ends, the timeline and
the replay are a quantum shorter. -/
theorem lastTick?_of_compile {actions : Json} (ht : compile locate actions = .ok t) :
    ∃ sources, (Source.readAll actions >>= Source.accept) = .ok sources ∧
      ((∃ s ∈ sources, 0 < s.span) →
        ((∃ s ∈ sources, s.span = Source.longestSpan sources ∧ ¬s.LosesEnd) →
            t.lastTick? = some (Source.longestSpan sources) ∧
              t.waits.sum = Source.longestSpan sources) ∧
          ((∀ s ∈ sources, s.span = Source.longestSpan sources → s.LosesEnd) →
            t.lastTick? = some (Source.longestSpan sources - quantum) ∧
              t.waits.sum = Source.longestSpan sources - quantum)) := by
  obtain ⟨sources, hread, hsources⟩ := exists_sources_of_compile ht
  refine ⟨sources, hread, fun hlong ↦ ?_⟩
  obtain ⟨hkept, hlost⟩ := lastTick?_of_ofSources hsources hlong
  constructor
  · intro hkeeps
    have hlast := hkept hkeeps
    exact ⟨hlast, by rw [sum_waits, hlast, Option.getD_some]⟩
  · intro hlose
    have hlast := hlost hlose
    exact ⟨hlast, by rw [sum_waits, hlast, Option.getD_some]⟩

/-- A finger that drags, and then does something else. -/
def dragThen (items : List Json) : Json :=
  .array [
    Json.pointerSource "f" ([
      Json.item .pointerMove [(.duration, 0), (.x, 1), (.y, 2)],
      Json.item .pointerDown [],
      Json.item .pointerMove [(.duration, 10), (.x, 3), (.y, 2)]] ++ items)]

/-- A drag that is followed by a lift is as long as it says. -/
theorem lastTick?_dragThenLift :
    ∃ t s, compile (fun _ ↦ none) (dragThen [Json.item .pointerUp []]) = .ok t ∧
      (Source.readAll (dragThen [Json.item .pointerUp []]) >>= Source.accept) = .ok [s] ∧
      s.span = 10 ∧ ¬s.LosesEnd ∧ t.lastTick? = some 10 ∧ t.waits.sum = 10 := by
  have hcompile : ∃ t, compile (fun _ ↦ none) (dragThen [Json.item .pointerUp []]) = .ok t :=
    ⟨_, rfl⟩
  have hread : ∃ s, (Source.readAll (dragThen [Json.item .pointerUp []]) >>= Source.accept) =
      .ok [s] ∧ s.span = 10 ∧ s.items.getLast? = some (.pointerUp none) := ⟨_, rfl, rfl, rfl⟩
  obtain ⟨t, ht⟩ := hcompile
  obtain ⟨s, hread, hspan, hlift⟩ := hread
  obtain ⟨sources, hsources, hlast⟩ := lastTick?_of_compile ht
  obtain rfl : [s] = sources := Except.ok.inj (hread.symm.trans hsources)
  have hkeeps : ¬s.LosesEnd := by
    intro hloses
    obtain ⟨item, hitem, -, move, rfl⟩ := hloses.stays_getLast?
    rw [hlift] at hitem
    cases hitem
  have hlong : ∃ s' ∈ [s], 0 < s'.span := ⟨s, List.mem_cons_self, by rw [hspan]; decide⟩
  have hends := (hlast hlong).1 ⟨s, List.mem_cons_self, rfl, hkeeps⟩
  rw [Source.longestSpan_singleton, hspan] at hends
  exact ⟨t, s, ht, hread, hspan, hkeeps, hends⟩

/-- A drag that is followed by a move without time stops a quantum early. -/
theorem not_lastTick?_dragThenStay :
    ¬∀ t sources, compile (fun _ ↦ none) (dragThen
        [Json.item .pointerMove [(.duration, 0), (.x, 3), (.y, 2)]]) = .ok t →
      (Source.readAll (dragThen
        [Json.item .pointerMove [(.duration, 0), (.x, 3), (.y, 2)]]) >>= Source.accept) =
          .ok sources →
      (∃ s ∈ sources, 0 < s.span) → t.lastTick? = some (Source.longestSpan sources) := by
  have hticks : (compile (fun _ ↦ none) (dragThen
      [Json.item .pointerMove [(.duration, 0), (.x, 3), (.y, 2)]])).toOption.bind lastTick? =
        some 5 := by
    decide +kernel
  have hcompile : ∃ t, compile (fun _ ↦ none) (dragThen
      [Json.item .pointerMove [(.duration, 0), (.x, 3), (.y, 2)]]) = .ok t := ⟨_, rfl⟩
  have hread : ∃ s, (Source.readAll (dragThen
      [Json.item .pointerMove [(.duration, 0), (.x, 3), (.y, 2)]]) >>= Source.accept) =
        .ok [s] ∧ s.span = 10 := ⟨_, rfl, rfl⟩
  obtain ⟨t, ht⟩ := hcompile
  obtain ⟨s, hread, hspan⟩ := hread
  rw [ht] at hticks
  intro hends
  have hlast := hends t [s] ht hread ⟨s, List.mem_cons_self, by rw [hspan]; decide⟩
  rw [Source.longestSpan_singleton, hspan] at hlast
  exact absurd (hticks.symm.trans hlast) (by decide)

end Timeline

end ActionReplay
