import ActionReplay.Proofs.Source.Accepted
import ActionReplay.Proofs.Timeline.Pointers

/-!
# The tools on a timeline

Every motion on a timeline has the tool of the pointer source that shows it
(`exists_source_of_ofSources`). A payload should act with one pointer type only, and almost does:
accepting compares the types that sources name, and compiling asks of every pointer source but the
first that it be a touch pointer. A first source that names another type and a later one that names
none pass both, although the later one is a touch pointer too (`Source.MixesTools`). There is no
other way to mix tools (`Timeline.tools_agree_iff_of_compile`).
-/

set_option autoImplicit false
set_option relaxedAutoImplicit false

namespace ActionReplay

variable {locate : Locator} {s : Source} {sources : List Source} {t : Timeline}

theorem PointerType.tool_injective : Function.Injective PointerType.tool := by
  intro type other htool
  cases type <;> cases other <;> simp_all [PointerType.tool]

/-! ### Whose motion it is -/

theorem Cue.Rejoins.exists_motion {booked : Cue} {standing : MotionCue}
    (hrejoins : booked.Rejoins (.motion standing)) :
    ∃ cue : MotionCue, booked = .motion cue ∧ standing.pointer = cue.pointer ∧
      standing.tool = cue.tool := by
  cases booked with
  | key cue => exact hrejoins.elim
  | motion cue =>
    obtain ⟨hsame, -⟩ := hrejoins
    rw [hsame]
    exact ⟨cue, rfl, rfl, rfl⟩

/-- Assumes: sources that compile alone to known tracks. A motion that the ordered tracks book is
booked by a pointer source, and carries the ordinal and the tool of that source. -/
theorem Source.exists_source_of_mem_orderedTracks {track : Source → List Booking}
    (hsolo : ∀ s ∈ sources, s.soloTrack locate = .ok (track s)) {booking : Booking}
    (hbooking : booking ∈ (orderedTracks track sources).flatten) {cue : MotionCue}
    (hcue : booking.cue = some (.motion cue)) :
    ∃ s, (ofKind sources .pointer)[cue.pointer]? = some s ∧ cue.tool = s.tool ∧
      ∃ alone ∈ track s, booking = alone.withPointer cue.pointer := by
  obtain ⟨bookings, hbookings, hmem⟩ := List.mem_flatten.1 hbooking
  rcases List.mem_append.1 hbookings with hother | hpointer
  · obtain ⟨s, hs, rfl⟩ := List.mem_map.1 hother
    obtain ⟨hs, hkind⟩ := mem_ofKind_append hs
    have hnone := motion_soloTrack hkind (hsolo s hs) booking hmem
    rw [Booking.motion?, hcue] at hnone
    cases hnone
  · obtain ⟨x, hx, rfl⟩ := List.mem_map.1 hpointer
    obtain ⟨alone, halone, rfl⟩ := List.mem_map.1 hmem
    have htrack := pointerTrack_of_mem hsolo (List.fst_mem_of_mem_zipIdx hx)
    have howns := Booking.owns_withPointer (owns_pointerTrack htrack alone halone) x.2
    rcases howns with hnone | ⟨motion, hmotion, hid, htool⟩
    · rw [hcue] at hnone
      cases hnone
    · rw [hcue] at hmotion
      cases hmotion
      refine ⟨x.1, ?_, htool, alone, halone, ?_⟩
      · rw [hid]
        exact List.mk_mem_zipIdx_iff_getElem?.1 hx
      · rw [hid]

/-- Every motion on a timeline carries the ordinal and the tool of a pointer source. -/
theorem Timeline.exists_source_of_ofSources (ht : ofSources locate sources = .ok t) {tick : Tick}
    {cue : MotionCue} (hcue : .motion cue ∈ t.cuesAt tick) :
    ∃ s, (Source.ofKind sources .pointer)[cue.pointer]? = some s ∧ cue.tool = s.tool := by
  obtain ⟨track, hsolo, rfl⟩ := exists_track_of_ofSources ht
  obtain ⟨standing, hstanding, hrejoins⟩ :=
    empty.cuesAt_bookAll (Source.orderedTracks track sources).flatten tick
  rw [hstanding, cuesAt_empty, List.nil_append] at hcue
  obtain ⟨place, hplace, hget⟩ := List.mem_iff_getElem.1 hcue
  have hbooked := hrejoins.get (by rw [hrejoins.length_eq]; exact hplace) hplace
  rw [List.get_eq_getElem, List.get_eq_getElem, hget] at hbooked
  obtain ⟨booked, hsame, hpointer, htool⟩ := hbooked.exists_motion
  have hmem : .motion booked ∈ Booking.cuesAt (Source.orderedTracks track sources).flatten tick :=
    hsame ▸ List.getElem_mem _
  obtain ⟨booking, hbooking, -, hmotion⟩ := Booking.mem_cuesAt hmem
  obtain ⟨s, hs, hstool, -⟩ := Source.exists_source_of_mem_orderedTracks hsolo hbooking hmotion
  rw [hpointer, htool]
  exact ⟨s, hs, hstool⟩

/-! ### Pointer types -/

namespace Source

/-- The first pointer source acts with a type that is not touch, and is not the only one. -/
def MixesTools (sources : List Source) : Prop :=
  ∃ first others, ofKind sources .pointer = first :: others ∧ others ≠ [] ∧
    first.effectivePointerType ≠ .touch

/-- Assumes: no pointer source but the first that is not a touch pointer. -/
theorem effectivePointerTypes_agree_iff (htouch : TouchAfterFirst sources) :
    (∀ s ∈ ofKind sources .pointer, ∀ r ∈ ofKind sources .pointer,
        s.effectivePointerType = r.effectivePointerType) ↔ ¬MixesTools sources := by
  unfold TouchAfterFirst at htouch
  unfold MixesTools
  generalize ofKind sources .pointer = pointers at htouch ⊢
  cases pointers with
  | nil => simp
  | cons first others =>
    rw [List.tail_cons] at htouch
    constructor
    · rintro hagree ⟨_, _, hsame, hothers, hfirst⟩
      obtain ⟨rfl, rfl⟩ := List.cons.inj hsame
      obtain ⟨second, hsecond⟩ := List.exists_mem_of_ne_nil _ hothers
      refine hfirst ((hagree first List.mem_cons_self second ?_).trans (htouch second hsecond))
      exact List.mem_cons_of_mem _ hsecond
    · intro hmixes
      have hone : ∀ s ∈ first :: others, s.effectivePointerType = first.effectivePointerType := by
        refine List.forall_mem_cons.2 ⟨rfl, fun s hs ↦ (htouch s hs).trans ?_⟩
        by_contra hne
        exact hmixes ⟨first, others, rfl, List.ne_nil_of_mem hs, Ne.symm hne⟩
      exact fun s hs r hr ↦ (hone s hs).trans (hone r hr).symm

theorem TouchAfterFirst.tool_eq (htouch : TouchAfterFirst sources) {ordinal : Nat}
    (hget : (ofKind sources .pointer)[ordinal]? = some s) (hlater : ordinal ≠ 0) :
    s.tool = .finger := by
  obtain ⟨place, rfl⟩ := Nat.exists_eq_succ_of_ne_zero hlater
  rw [← List.getElem?_tail] at hget
  exact congrArg PointerType.tool (htouch s (List.mem_of_getElem? hget))

/-- Assumes: accepted sources, no pointer source but the first that is not a touch pointer. If tools
are mixed, the later pointer sources name no pointer type. -/
theorem MixesTools.pointerType_eq_none {read : List Source} (hmixes : MixesTools sources)
    (haccept : accept read = .ok sources) (htouch : TouchAfterFirst sources) :
    ∀ s ∈ (ofKind sources .pointer).tail, s.pointerType = none := by
  obtain ⟨first, others, hpointers, -, hfirst⟩ := hmixes
  intro s hs
  have hacts : s.effectivePointerType = .touch := htouch s hs
  rw [hpointers, List.tail_cons] at hs
  have hmem : ∀ r ∈ first :: others, r ∈ sources := by
    rw [← hpointers]
    exact fun r hr ↦ (mem_ofKind.1 hr).1
  cases htype : s.pointerType with
  | none => rfl
  | some type =>
    obtain rfl : type = .touch := by simpa [effectivePointerType, htype] using hacts
    cases hnamed : first.pointerType with
    | none => exact absurd (by simp [effectivePointerType, hnamed]) hfirst
    | some other =>
      have hsame := pointerType_eq_of_accept haccept (hmem first List.mem_cons_self)
        (hmem s (List.mem_cons_of_mem _ hs)) hnamed htype
      exact absurd (by simp [effectivePointerType, hnamed, hsame]) hfirst

end Source

/-! ### The tools -/

namespace Timeline

/-- A motion of a pointer is on the timeline. -/
def ShowsMotion (t : Timeline) (pointer : Nat) : Prop :=
  ∃ tick cue, .motion cue ∈ t.cuesAt tick ∧ cue.pointer = pointer

/-- All motions on the timeline are of one tool. -/
def OneTool (t : Timeline) : Prop :=
  ∀ tick cue, .motion cue ∈ t.cuesAt tick →
    ∀ later other, .motion other ∈ t.cuesAt later → cue.tool = other.tool

/-- Tools are mixed on a timeline exactly when they are mixed in its sources, and both the first
pointer source and a later one show motions. Otherwise any two motions are both of the first source, or
neither is. -/
theorem oneTool_iff (ht : ofSources locate sources = .ok t)
    (htouch : Source.TouchAfterFirst sources) :
    t.OneTool ↔ ¬(Source.MixesTools sources ∧ t.ShowsMotion 0 ∧
      ∃ ordinal, ordinal ≠ 0 ∧ t.ShowsMotion ordinal) := by
  have hlater : ∀ {tick cue}, .motion cue ∈ t.cuesAt tick → cue.pointer ≠ 0 →
      cue.tool = .finger := by
    intro tick cue hcue hordinal
    obtain ⟨s, hget, htool⟩ := exists_source_of_ofSources ht hcue
    exact htool.trans (htouch.tool_eq hget hordinal)
  constructor
  · rintro hone ⟨⟨first, others, hpointers, -, hfirst⟩, ⟨tick, cue, hcue, hzero⟩,
      ordinal, hordinal, later, other, hother, rfl⟩
    obtain ⟨s, hget, htool⟩ := exists_source_of_ofSources ht hcue
    rw [hzero, hpointers] at hget
    obtain rfl : first = s := Option.some.inj hget
    have hsame : first.tool = .finger :=
      htool.symm.trans ((hone tick cue hcue later other hother).trans (hlater hother hordinal))
    exact hfirst (PointerType.tool_injective hsame)
  · intro hmixes tick cue hcue later other hother
    obtain ⟨s, hs, hcueTool⟩ := exists_source_of_ofSources ht hcue
    obtain ⟨r, hr, hotherTool⟩ := exists_source_of_ofSources ht hother
    by_cases hmixed : Source.MixesTools sources
    · by_cases hzero : cue.pointer = 0
      · by_cases hotherZero : other.pointer = 0
        · rw [hzero] at hs
          rw [hotherZero] at hr
          rw [hcueTool, hotherTool, Option.some.inj (hs.symm.trans hr)]
        · exact absurd ⟨hmixed, ⟨tick, cue, hcue, hzero⟩, other.pointer, hotherZero,
            later, other, hother, rfl⟩ hmixes
      · by_cases hotherZero : other.pointer = 0
        · exact absurd ⟨hmixed, ⟨later, other, hother, hotherZero⟩, cue.pointer, hzero,
            tick, cue, hcue, rfl⟩ hmixes
        · rw [hlater hcue hzero, hlater hother hotherZero]
    · have hagree := (Source.effectivePointerTypes_agree_iff htouch).2 hmixed s
        (List.mem_of_getElem? hs) r (List.mem_of_getElem? hr)
      rw [hcueTool, hotherTool]
      exact congrArg PointerType.tool hagree

/-- Assumes: a payload that compiles. Every motion on its timeline has the tool of its pointer
source. The pointer sources act with one pointer type, whether they name it or not, if and only if
the first of them is the only one or a touch pointer. All motions on the timeline have one tool if
and only if the pointer sources do, or only the first one or only later ones show motions. Where the
types differ, no pointer source but the first names one. -/
theorem tools_agree_iff_of_compile {actions : Json} (ht : compile locate actions = .ok t) :
    ∃ sources, (Source.readAll actions >>= Source.accept) = .ok sources ∧
      (∀ tick cue, .motion cue ∈ t.cuesAt tick →
        ∃ s, (Source.ofKind sources .pointer)[cue.pointer]? = some s ∧ cue.tool = s.tool) ∧
      ((∀ s ∈ Source.ofKind sources .pointer, ∀ r ∈ Source.ofKind sources .pointer,
          s.effectivePointerType = r.effectivePointerType) ↔ ¬Source.MixesTools sources) ∧
      (t.OneTool ↔ ¬(Source.MixesTools sources ∧ t.ShowsMotion 0 ∧
        ∃ ordinal, ordinal ≠ 0 ∧ t.ShowsMotion ordinal)) ∧
      (Source.MixesTools sources →
        ∀ s ∈ (Source.ofKind sources .pointer).tail, s.pointerType = none) := by
  obtain ⟨sources, hread, hsources⟩ := exists_sources_of_compile ht
  obtain ⟨read, -, haccept⟩ := bind_eq_ok.1 hread
  obtain ⟨tracks, htracks, -⟩ := ofSources_eq_ok.1 hsources
  obtain ⟨-, htouch⟩ := Source.exists_of_tracks htracks
  refine ⟨sources, hread, ?_, ?_, ?_, ?_⟩
  · exact fun tick cue hcue ↦ exists_source_of_ofSources hsources hcue
  · exact Source.effectivePointerTypes_agree_iff htouch
  · exact oneTool_iff hsources htouch
  · exact fun hmixes ↦ hmixes.pointerType_eq_none haccept htouch

/-- A pointer source with a type and one without, both of which go down. -/
def typedAndUntyped (type : PointerType) : Json :=
  .array [
    Json.typedPointerSource "m" type [
      Json.item .pointerMove [(.duration, 0), (.x, 1), (.y, 2)],
      Json.item .pointerDown []],
    Json.pointerSource "f" [
      Json.item .pointerMove [(.duration, 0), (.x, 1), (.y, 2)],
      Json.item .pointerDown []]]

/-- A finger that is named and one that is not are of one tool. -/
theorem tools_agree_twoFingers :
    ∃ t sources, compile (fun _ ↦ none) (typedAndUntyped .touch) = .ok t ∧
      (Source.readAll (typedAndUntyped .touch) >>= Source.accept) = .ok sources ∧
      ¬Source.MixesTools sources ∧ t.OneTool := by
  have htypes : (Source.readAll (typedAndUntyped .touch) >>= Source.accept).toOption.map
      (fun sources ↦ (Source.ofKind sources .pointer).map Source.effectivePointerType) =
        some [.touch, .touch] := by
    decide +kernel
  have hcompile : ∃ t, compile (fun _ ↦ none) (typedAndUntyped .touch) = .ok t := ⟨_, rfl⟩
  obtain ⟨t, ht⟩ := hcompile
  obtain ⟨sources, hread, -, -, hone, -⟩ := tools_agree_iff_of_compile ht
  rw [hread] at htypes
  have hmixes : ¬Source.MixesTools sources := by
    rintro ⟨first, others, hpointers, -, htype⟩
    have hall : (first :: others).map Source.effectivePointerType = [.touch, .touch] :=
      hpointers ▸ Option.some.inj htypes
    exact htype (List.cons.inj hall).1
  exact ⟨t, sources, ht, hread, hmixes, hone.2 fun hmixed ↦ hmixes hmixed.1⟩

/-- A mouse, and a finger that is not named, are accepted together. -/
theorem not_oneTool_mouseAndFinger :
    ¬∀ t, compile (fun _ ↦ none) (typedAndUntyped .mouse) = .ok t → t.OneTool := by
  have htools : (compile (fun _ ↦ none) (typedAndUntyped .mouse)).toOption.map
      (fun t ↦ ((t.cuesAt 0).filterMap Cue.motion?).map MotionCue.tool) =
        some [.mouse, .finger] := by
    decide +kernel
  have hcompile : ∃ t, compile (fun _ ↦ none) (typedAndUntyped .mouse) = .ok t := ⟨_, rfl⟩
  obtain ⟨t, ht⟩ := hcompile
  rw [ht] at htools
  have hall : ((t.cuesAt 0).filterMap Cue.motion?).map MotionCue.tool = [.mouse, .finger] :=
    Option.some.inj htools
  have hshows : ∀ tool ∈ [Tool.mouse, .finger],
      ∃ cue, .motion cue ∈ t.cuesAt 0 ∧ cue.tool = tool := by
    intro tool htool
    rw [← hall] at htool
    obtain ⟨cue, hcue, rfl⟩ := List.mem_map.1 htool
    obtain ⟨shown, hshown, hmotion⟩ := List.mem_filterMap.1 hcue
    cases shown with
    | key _ => cases hmotion
    | motion _ =>
      cases hmotion
      exact ⟨cue, hshown, rfl⟩
  intro hone
  obtain ⟨cue, hcue, hmouse⟩ := hshows .mouse (by simp)
  obtain ⟨other, hother, hfinger⟩ := hshows .finger (by simp)
  have hsame := hone t ht 0 cue hcue 0 other hother
  rw [hmouse, hfinger] at hsame
  cases hsame

end Timeline

end ActionReplay
