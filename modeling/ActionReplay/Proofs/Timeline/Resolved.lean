import ActionReplay.Proofs.Timeline.Pointers
import ActionReplay.Proofs.Track.Playable

/-!
# Which positions a payload has to have

A pointer source asks for positions only where it needs one: where the pointer goes down or up, and
at both ends of a move that takes time. A position depends on the items back to the last anchor, so
an item is used (`Source.Uses`) if its source asks for a position that depends on it. A payload
compiles exactly if its sources keep the rules that do not speak of positions (`Source.Orderly`) and
every item that is used is resolvable (`exists_compile_iff_resolvable`). What is wrong with the
position of an item that is not used is never noticed.
-/

set_option autoImplicit false
set_option relaxedAutoImplicit false

namespace ActionReplay

variable {locate : Locator} {s : Source} {sources : List Source}

namespace Source

/-- A position is asked for that depends on the item at a place. -/
def Uses (s : Source) (place : Nat) : Prop :=
  ∃ k ∈ s.asked, s.LeadsTo place k

/-- A source that keeps all rules but those about positions. -/
def Orderly (s : Source) : Prop :=
  match s.kind with
  | .none => ∃ track, s.restTrack = .ok track
  | .key => ∃ track, s.keyTrack = .ok track
  | .pointer => s.Playable

/-- The positions that a source asks for exist exactly if every item that is used is resolvable. -/
theorem forall_mem_asked_iff :
    (∀ k ∈ s.asked, s.HasPosition locate k) ↔
      ∀ place item, s.Uses place → s.items[place]? = some item →
        item.Resolvable locate (s.HasPositionBefore locate place) := by
  constructor
  · rintro hasked place item ⟨k, hk, hleads⟩ hitem
    have hplace := (hasPosition_iff_forall (lt_length_of_mem_asked hk)).1 (hasked k hk)
    exact hplace place item hleads hitem
  · intro hused k hk
    refine (hasPosition_iff_forall (lt_length_of_mem_asked hk)).2 ?_
    exact fun place item hleads hitem ↦ hused place item ⟨k, hk, hleads⟩ hitem

/-- A source compiles alone exactly if it is orderly and, being a pointer source, has resolvable
items wherever they are used. -/
theorem exists_soloTrack_iff :
    (∃ track, s.soloTrack locate = .ok track) ↔
      s.Orderly ∧ (s.kind = .pointer → ∀ place item, s.Uses place → s.items[place]? = some item →
        item.Resolvable locate (s.HasPositionBefore locate place)) := by
  unfold soloTrack Orderly
  cases s.kind with
  | none => simp
  | key => simp
  | pointer => simp only [exists_pointerTrack_iff, forall_mem_asked_iff, true_or, true_and,
      forall_const]

end Source

namespace Timeline

/-- Sources compile exactly if each of them does, and all pointer sources but the first are touch
pointers. -/
theorem exists_ofSources_iff :
    (∃ t, ofSources locate sources = .ok t) ↔
      (∀ s ∈ sources, ∃ track, s.soloTrack locate = .ok track) ∧
        Source.TouchAfterFirst sources := by
  constructor
  · rintro ⟨t, ht⟩
    obtain ⟨tracks, htracks, -⟩ := ofSources_eq_ok.1 ht
    exact Source.exists_of_tracks htracks
  · rintro ⟨hsolo, htouch⟩
    choose! track htrack using hsolo
    exact ⟨_, ofSources_eq_ok.2 ⟨_, Source.tracks_eq_ok htrack htouch, rfl⟩⟩

/-- Assumes: a payload that is read into sources that are accepted. It compiles exactly if all
pointer sources but the first are touch pointers, every source keeps the rules that do not speak of
positions, and in every pointer source each item that is used is resolvable. -/
theorem exists_compile_iff_resolvable {actions : Json}
    (hread : (Source.readAll actions >>= Source.accept) = .ok sources) :
    (∃ t, compile locate actions = .ok t) ↔
      (Source.TouchAfterFirst sources ∧ ∀ s ∈ sources, s.Orderly) ∧
        ∀ s ∈ Source.ofKind sources .pointer, ∀ place item, s.Uses place →
          s.items[place]? = some item →
            item.Resolvable locate (s.HasPositionBefore locate place) := by
  rw [compile_eq_of_read hread, exists_ofSources_iff]
  simp only [Source.exists_soloTrack_iff, Source.mem_ofKind]
  constructor
  · rintro ⟨hall, htouch⟩
    exact ⟨⟨htouch, fun s hs ↦ (hall s hs).1⟩, fun s hs ↦ (hall s hs.1).2 hs.2⟩
  · rintro ⟨⟨htouch, horderly⟩, hused⟩
    exact ⟨fun s hs ↦ ⟨horderly s hs, fun hkind ↦ hused s ⟨hs, hkind⟩⟩, htouch⟩

/-- A pointer source whose first item is a move that takes no time, to an element. -/
def moveToElement (handle : String) (later : List Json) : Json :=
  .array [
    Json.pointerSource "f" (.object [
      ("type", .string ItemType.pointerMove.name), (ItemField.duration.name, .number (.unsigned 0)),
      (ItemField.origin.name, .string handle)] :: later)]

/-- Without a known element the move is an obstacle to a down after it. -/
theorem not_exists_compile_moveToElement :
    ¬∃ t, compile (fun _ ↦ none) (moveToElement "ghost" [Json.item .pointerDown []]) = .ok t := by
  have hread : ∃ s move, (Source.readAll (moveToElement "ghost" [Json.item .pointerDown []]) >>=
      Source.accept) = .ok [s] ∧ s.kind = .pointer ∧
        s.items = [.pointerMove move, .pointerDown none] ∧ move.origin = .element "ghost" :=
    ⟨_, _, rfl, rfl, rfl, rfl⟩
  obtain ⟨s, move, hread, hkind, hitems, horigin⟩ := hread
  have huses : s.Uses 0 := by
    refine ⟨1, ?_, Nat.zero_le 1, ?_⟩
    · rw [Source.asked, hitems]
      exact List.mem_append_right _ List.mem_cons_self
    · intro k item hlt hle hitem
      obtain rfl : k = 1 := by omega
      rw [hitems] at hitem
      cases hitem
      rfl
  intro hcompiles
  obtain ⟨-, hused⟩ := (exists_compile_iff_resolvable hread).1 hcompiles
  have hmove : move.Resolvable (fun _ ↦ none) (s.HasPositionBefore (fun _ ↦ none) 0) :=
    hused s (Source.mem_ofKind.2 ⟨List.mem_cons_self, hkind⟩) 0 (.pointerMove move) huses
      (by rw [hitems]; rfl)
  simp only [PointerMove.Resolvable, horigin] at hmove
  obtain ⟨bounds, hbounds, -⟩ := hmove
  cases hbounds

/-- The move alone compiles, although it is not resolvable. -/
theorem not_resolvable_moveToElement :
    ¬∀ t sources, compile (fun _ ↦ none) (moveToElement "ghost" []) = .ok t →
      (Source.readAll (moveToElement "ghost" []) >>= Source.accept) = .ok sources →
        ∀ s ∈ sources, ∀ place move, s.items[place]? = some (Item.pointerMove move) →
          move.Resolvable (fun _ ↦ none) (s.HasPositionBefore (fun _ ↦ none) place) := by
  have hread : ∃ s move, (Source.readAll (moveToElement "ghost" []) >>= Source.accept) = .ok [s] ∧
      s.items[0]? = some (.pointerMove move) ∧ move.origin = .element "ghost" :=
    ⟨_, _, rfl, rfl, rfl⟩
  have hcompile : ∃ t, compile (fun _ ↦ none) (moveToElement "ghost" []) = .ok t := ⟨_, rfl⟩
  obtain ⟨s, move, hread, hitem, horigin⟩ := hread
  obtain ⟨t, ht⟩ := hcompile
  intro hall
  have hmove := hall t [s] ht hread s List.mem_cons_self 0 move hitem
  simp only [PointerMove.Resolvable, horigin] at hmove
  obtain ⟨bounds, hbounds, -⟩ := hmove
  cases hbounds

end Timeline

end ActionReplay
