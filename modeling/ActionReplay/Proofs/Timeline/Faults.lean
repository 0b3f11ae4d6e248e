import ActionReplay.Proofs.Source.Sent
import ActionReplay.Proofs.Timeline.Pointers

/-!
# Which item of a payload a fault is about

A payload that is accepted and still does not compile ends in a fault of one of its sources, and
what the fault reports of an item is true of a value that was sent: it is among the items of the
source with the reported id, names the reported type, and has nothing under the reported key
(`exists_sent_of_compile`). The place that is reported is the place among the items that no cancel
takes back, which is the place in the payload exactly if no cancel comes before the item.
-/

set_option autoImplicit false
set_option relaxedAutoImplicit false

namespace ActionReplay

variable {locate : Locator} {s : Source} {sources : List Source} {fault : Fault}

namespace Source

theorem exists_raises_of_pointerTracksFrom {ordinal : Nat} {pointers : List Source}
    (hfault : pointerTracksFrom locate ordinal pointers = .error fault) :
    ∃ s ∈ pointers, s.Raises .pointer fault := by
  induction pointers generalizing ordinal with
  | nil => cases hfault
  | cons s rest ih =>
    rcases bind_eq_error.1 hfault with hfirst | ⟨track, -, hfault⟩
    · exact ⟨s, List.mem_cons_self, raises_pointerTrack hfirst⟩
    · rcases bind_eq_error.1 hfault with hrest | ⟨tracks, -, hfault⟩
      · obtain ⟨other, hother, hraises⟩ := ih hrest
        exact ⟨other, List.mem_cons_of_mem s hother, hraises⟩
      · cases hfault

end Source

namespace Timeline

/-- The fault that sources end in is one that the track of one of them can end in. -/
theorem exists_raises_of_ofSources (hfault : ofSources locate sources = .error fault) :
    ∃ s ∈ sources, s.Raises s.kind fault := by
  have hkind : ∀ {kind}, (∃ s ∈ Source.ofKind sources kind, s.Raises kind fault) →
      ∃ s ∈ sources, s.Raises s.kind fault := by
    rintro kind ⟨s, hs, hraises⟩
    obtain ⟨hmem, rfl⟩ := Source.mem_ofKind.1 hs
    exact ⟨s, hmem, hraises⟩
  rcases bind_eq_error.1 hfault with htracks | ⟨tracks, -, hfault⟩
  · rcases bind_eq_error.1 htracks with hrests | ⟨rests, -, htracks⟩
    · obtain ⟨s, hs, hsfault⟩ := exists_error_of_mapM hrests
      exact hkind ⟨s, hs, Source.raises_restTrackFrom rfl hsfault⟩
    rcases bind_eq_error.1 htracks with hkeys | ⟨keys, -, htracks⟩
    · obtain ⟨s, hs, hsfault⟩ := exists_error_of_mapM hkeys
      exact hkind ⟨s, hs, Source.raises_keyTrackFrom rfl hsfault⟩
    rcases bind_eq_error.1 htracks with hpointers | ⟨pointers, -, htracks⟩
    · exact hkind (Source.exists_raises_of_pointerTracksFrom hpointers)
    · cases htracks
  · cases hfault

/-- Assumes: a payload whose sources are accepted, and which does not compile for a fault that
reports an item by its type. Among the values of the items of the source with the reported id there
is one that names the reported type and has nothing under the reported key, and the reported place
is its place among those that no cancel takes back. That is its place among all of them exactly if
no cancel comes before it. -/
theorem exists_sent_of_compile {actions : Json}
    (hread : (Source.readAll actions >>= Source.accept) = .ok sources)
    (hfault : compile locate actions = .error fault) {r : Report}
    (hreport : fault.report? = some r) :
    ∃ before v later, actions.itemsOf r.id = before ++ v :: later ∧
      v.typeName? = some r.type.name ∧
        (∀ field, r.missing = some field → v.LacksMember field.name) ∧
          (Json.uncancelled (actions.itemsOf r.id))[r.place]? = some v ∧
            r.place = (Json.uncancelled before).length ∧
              (r.place = before.length ↔ ∀ earlier ∈ before, earlier.isCancel = false) := by
  rw [compile_eq_of_read hread] at hfault
  obtain ⟨s, hs, hraises⟩ := exists_raises_of_ofSources hfault
  obtain ⟨hid, item, hitem, htype, hlacks⟩ := hraises.explains r hreport
  obtain ⟨v, hv, hsent⟩ := Source.exists_sent_of_accept hread hs hitem
  rw [← hid] at hv
  obtain ⟨-, before, later, hitems, hplace⟩ := Json.exists_append_of_uncancelled hv
  refine ⟨before, v, later, hitems, htype ▸ hsent.type, ?_, hv, hplace.symm, ?_⟩
  · exact fun field hfield ↦ hsent.lacks field (hlacks field hfield)
  · rw [← hplace]
    exact Json.length_uncancelled_eq_iff before

/-- A pointer source with some items and then a move that does not say how long it takes. -/
def untimedMoveAfter (items : List Json) : Json :=
  .array [Json.pointerSource "f" (items ++ [Json.item .pointerMove []])]

/-- After a pause the move is reported at its place. -/
theorem exists_sent_untimedMove :
    ∃ fault r before v later,
      compile (fun _ ↦ none) (untimedMoveAfter [Json.item .pause [(.duration, 10)]]) =
          .error fault ∧
        fault.report? = some r ∧
          (untimedMoveAfter [Json.item .pause [(.duration, 10)]]).itemsOf r.id =
              before ++ v :: later ∧
            r.place = before.length ∧ v.typeName? = some "pointerMove" ∧
              v.LacksMember "duration" := by
  have hread : ∃ sources,
      (Source.readAll (untimedMoveAfter [Json.item .pause [(.duration, 10)]]) >>=
        Source.accept) = .ok sources := ⟨_, rfl⟩
  have hfault : compile (fun _ ↦ none) (untimedMoveAfter [Json.item .pause [(.duration, 10)]]) =
      .error (.missingItemField "f" 1 .pointerMove .duration) := rfl
  have hplain : ∀ v ∈ (untimedMoveAfter [Json.item .pause [(.duration, 10)]]).itemsOf "f",
      v.isCancel = false := by
    intro v hv
    rcases List.mem_pair.1 hv with rfl | rfl
    · rfl
    · rfl
  obtain ⟨sources, hread⟩ := hread
  obtain ⟨before, v, later, hitems, htype, hlacks, -, -, hplace⟩ :=
    exists_sent_of_compile hread hfault rfl
  refine ⟨_, _, before, v, later, hfault, rfl, hitems, hplace.2 ?_, htype, hlacks .duration rfl⟩
  exact fun earlier hearlier ↦ hplain earlier (hitems ▸ List.mem_append_left _ hearlier)

/-- After a pause that is cancelled the place of the pause is reported as that of a move. -/
theorem not_sent_untimedMove :
    ¬∀ sources fault r,
      (Source.readAll (untimedMoveAfter [Json.item .pause [(.duration, 10)],
          Json.item .pointerCancel []]) >>= Source.accept) = .ok sources →
        compile (fun _ ↦ none) (untimedMoveAfter [Json.item .pause [(.duration, 10)],
            Json.item .pointerCancel []]) = .error fault →
          fault.report? = some r →
            ∃ v, ((untimedMoveAfter [Json.item .pause [(.duration, 10)],
                Json.item .pointerCancel []]).itemsOf r.id)[r.place]? = some v ∧
              v.typeName? = some r.type.name ∧
                ∀ field, r.missing = some field → v.LacksMember field.name := by
  intro hall
  have hread : ∃ sources, (Source.readAll (untimedMoveAfter [Json.item .pause [(.duration, 10)],
      Json.item .pointerCancel []]) >>= Source.accept) = .ok sources := ⟨_, rfl⟩
  obtain ⟨sources, hread⟩ := hread
  obtain ⟨v, hv, htype, -⟩ :=
    hall sources (.missingItemField "f" 0 .pointerMove .duration) _ hread rfl rfl
  cases hv
  exact absurd htype (by decide +kernel)

end Timeline

end ActionReplay
