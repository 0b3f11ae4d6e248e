import ActionReplay.Proofs.Replay.Conserved
import ActionReplay.Proofs.Source.Consistent
import ActionReplay.Proofs.Timeline.Faults

/-!
# What acceptance settles

Reading and accepting a payload leaves later stages nothing to check of its shape. A track only finds
an item unexpected that its source may not hold, or a cancel, and accepted sources hold neither
(`Source.allows_of_accept`), so the faults of reading and accepting are not met again when a timeline
is made (`Source.not_isPreliminary_of_raises`). The keys of a timeline are characters, and every
character is a key (`Key.exists_ofCodePoint?_eq_some_iff`), so no key of a timeline strays
(`Timeline.strayKeys_eq_zero`), a replay is never told of an unknown key, and its outcome counts exactly
what the device was handed. `Timeline.settled_of_accept` states both for every payload whose sources are
accepted.
-/

set_option autoImplicit false
set_option relaxedAutoImplicit false

namespace ActionReplay

/-- The faults of reading and accepting sources that tell of the shape of a payload. -/
def Fault.IsPreliminary : Fault → Prop
  | .notAnArray | .missingSourceField .. | .duplicateId _ | .unsupportedKind ..
  | .unsupportedPointerType .. | .pointerTypeOnNonPointer _ | .mixedPointerTypes _
  | .unsupportedItem .. | .missingItemType .. => True
  | _ => False

namespace Source

variable {s : Source} {sources accepted : List Source} {fault : Fault}

/-- Accepted sources hold only items of their kind, and no cancel. -/
theorem allows_of_accept (haccept : accept sources = .ok accepted) (hs : s ∈ accepted) :
    (∀ item ∈ s.items, s.kind.allows item = true) ∧ Item.pointerCancel ∉ s.items := by
  obtain ⟨hconsistent, rfl⟩ := accept_eq_ok_iff_consistent.1 haccept
  refine ⟨hconsistent.withoutCancelled.allowed s hs, ?_⟩
  obtain ⟨whole, -, rfl⟩ := List.mem_map.1 hs
  intro hcancel
  cases (Item.mem_of_mem_dropCancelled hcancel).2

/-- Assumes: a source that holds only items of its kind, and no cancel. Its track ends in no fault of
its shape. -/
theorem not_isPreliminary_of_raises (hallowed : ∀ item ∈ s.items, s.kind.allows item = true)
    (hcancel : Item.pointerCancel ∉ s.items) (hraises : s.Raises s.kind fault) :
    ¬fault.IsPreliminary := by
  cases hraises with
  | unexpected hitem hforeign =>
    exact absurd (hforeign (hallowed _ hitem) ▸ hitem) hcancel
  | lacking | negative | tooLong | emptyValue | unknownElement | zeroSizeElement | unplaced
  | simultaneous | upWithoutDown | tooMany => exact not_false

end Source

/-- Exactly the characters are keys. -/
theorem Key.exists_ofCodePoint?_eq_some_iff {codePoint : UInt32} :
    (∃ key, Key.ofCodePoint? codePoint = some key) ↔ codePoint.isValidChar := by
  rw [← Option.isSome_iff_exists, ← Option.ne_none_iff_isSome, ne_eq, ofCodePoint?_eq_none_iff,
    not_not]

namespace Timeline

variable {locate : Locator} {sources : List Source} {t : Timeline}

theorem isValidChar_of_ofSources (ht : ofSources locate sources = .ok t) {tick : Tick}
    {cue : KeyCue} (hcue : .key cue ∈ t.cuesAt tick) : cue.codePoint.isValidChar :=
  tellable_of_ofSources ht tick _ hcue

theorem strayKeys_eq_zero (ht : ofSources locate sources = .ok t) : t.strayKeys = 0 := by
  unfold strayKeys keyCues
  rw [toList_eq, List.flatMap_map, List.countP_eq_zero]
  intro cue hcue
  obtain ⟨tick, -, hcue⟩ := List.mem_flatMap.1 hcue
  obtain ⟨other, hother, hkey⟩ := List.mem_filterMap.1 hcue
  cases other with
  | motion => cases hkey
  | key =>
    cases hkey
    rw [decide_eq_true_eq, not_not]
    exact isValidChar_of_ofSources ht hother

/-- Assumes: a payload that is read into sources that are accepted. Whatever the elements, its sources
do not end in a fault of their shape. If it compiles, then every key of the timeline is a character
and stands for a key, no signal of a replay tells of an unknown key, and whatever device the timeline
is dispatched to, the outcome counts the events that the device was handed, and as failed those that
it refused. -/
theorem settled_of_accept {actions : Json}
    (hread : (Source.readAll actions >>= Source.accept) = .ok sources) (locate : Locator) :
    (∀ fault, ofSources locate sources = .error fault → ¬fault.IsPreliminary) ∧
      ∀ t, compile locate actions = .ok t →
        (∀ tick cue, .key cue ∈ t.cuesAt tick →
          cue.codePoint.isValidChar ∧ ∃ key, Key.ofCodePoint? cue.codePoint = some key) ∧
        (∀ signal ∈ t.signals, signal.isUnknown = false) ∧
        ∀ {σ : Type} (device : Device σ) (pacing : Bool) (memory : σ),
          (device.dispatch pacing memory t).1.injected =
            (device.answers pacing memory t).length ∧
          (device.dispatch pacing memory t).1.failed =
            (device.answers pacing memory t).countP fun answer ↦ !answer.2 := by
  constructor
  · intro fault hfault
    obtain ⟨s, hs, hraises⟩ := exists_raises_of_ofSources hfault
    obtain ⟨read, -, haccept⟩ := bind_eq_ok.1 hread
    obtain ⟨hallowed, hcancel⟩ := Source.allows_of_accept haccept hs
    exact Source.not_isPreliminary_of_raises hallowed hcancel hraises
  · intro t ht
    rw [compile_eq_of_read hread] at ht
    have hstray := strayKeys_eq_zero ht
    refine ⟨fun tick cue hcue ↦ ?_, fun signal hsignal ↦ ?_, ?_⟩
    · have hvalid := isValidChar_of_ofSources ht hcue
      exact ⟨hvalid, Key.exists_ofCodePoint?_eq_some_iff.2 hvalid⟩
    · have hnone := t.countP_signals.trans hstray
      exact Bool.eq_false_iff.2 (List.countP_eq_zero.1 hnone signal hsignal)
    · intro σ device pacing memory
      constructor
      · rw [Device.injected_dispatch, hstray, Nat.add_zero]
      · rw [Device.failed_dispatch, hstray, Nat.add_zero]

/-- Keys of every sort: a modifier, a digit of the number pad, the last character before the
surrogates, the last one of all, and the key that lets go of all modifiers. -/
def sortsOfKeys : Json :=
  .array [
    .object [("id", .string "k"), ("type", .string SourceKind.key.name), ("actions", .array [
      keyItem .keyDown "\ue008",
      keyItem .keyDown "\ue01a",
      keyItem .keyDown "\ud7ff",
      keyItem .keyDown (String.singleton (Char.ofNat 0x10ffff)),
      keyItem .keyDown "\ue000"])]]

/-- All keys are told. A pointer that goes up and never went down is accepted, and the fault it ends
in is not of its shape. -/
theorem settled_sortsOfKeys :
    (∃ t, compile (fun _ ↦ none) sortsOfKeys = .ok t ∧
      (t.cuesAt 0).length = 5 ∧ (∀ signal ∈ t.signals, signal.isUnknown = false) ∧
        ((Device.recorder fun _ _ ↦ true).dispatch true [] t).1.injected =
          ((Device.recorder fun _ _ ↦ true).answers true [] t).length) ∧
      ∃ sources fault, ofSources (fun _ ↦ none) sources = .error fault ∧
        (Source.readAll (.array [Json.pointerSource "f" [Json.item .pointerUp []]]) >>=
          Source.accept) = .ok sources ∧ ¬fault.IsPreliminary := by
  constructor
  · have hread : ∃ sources, (Source.readAll sortsOfKeys >>= Source.accept) = .ok sources :=
      ⟨_, rfl⟩
    have hcompile : ∃ t, compile (fun _ ↦ none) sortsOfKeys = .ok t ∧ (t.cuesAt 0).length = 5 :=
      ⟨_, rfl, rfl⟩
    obtain ⟨sources, hread⟩ := hread
    obtain ⟨t, ht, hlength⟩ := hcompile
    obtain ⟨-, hsignals, hcounts⟩ := (settled_of_accept hread fun _ ↦ none).2 t ht
    exact ⟨t, ht, hlength, hsignals, (hcounts (Device.recorder fun _ _ ↦ true) true []).1⟩
  · have hread : ∃ sources,
        (Source.readAll (.array [Json.pointerSource "f" [Json.item .pointerUp []]]) >>=
          Source.accept) = .ok sources ∧
        ofSources (fun _ ↦ none) sources = .error (.upWithoutDown "f" 0) := ⟨_, rfl, rfl⟩
    obtain ⟨sources, hread, hfault⟩ := hread
    exact ⟨sources, _, hfault, hread, (settled_of_accept hread fun _ ↦ none).1 _ hfault⟩

end Timeline

end ActionReplay
