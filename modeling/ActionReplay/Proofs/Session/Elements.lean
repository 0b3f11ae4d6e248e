import ActionReplay.Proofs.Session.Isolated
import ActionReplay.Proofs.Timeline.Elements
import ActionReplay.Proofs.Timeline.Resolved

/-!
# Other elements do not matter

A session looks an element up where a payload names it and nowhere else. Sessions that know different
elements, but the same bounds of those that a payload names, compile it alike, and serve it alike: the
same answer, the same records in the same time, and afterwards they still differ in their elements only
(`Session.servesAlike`). Registering an element, moving it to other bounds or forgetting it leaves the
bounds of all others (`Registry.locate_register_of_ne`, `Registry.locate_forget_of_ne`), so it does not
change what becomes of a payload that does not name it (`Session.indifferent_to_unnamed`).
-/

set_option autoImplicit false
set_option relaxedAutoImplicit false

namespace ActionReplay

/-- The sources that a request asks to perform. -/
def Request.actions? : Request → Option Json
  | .run payload => Payload.actions? payload
  | .perform actions => some actions
  | .register _ _ | .setDryRun _ => none

namespace Registry

variable {r : Registry} {handle asked : String}

theorem locate_register_of_ne (hne : asked ≠ handle) (bounds : Bounds) :
    (r.register handle bounds).2.locate asked = r.locate asked :=
  (Table.find?_insert handle asked bounds r).trans (if_neg hne)

theorem locate_forget_of_ne (hne : asked ≠ handle) :
    (r.forget handle).2.locate asked = r.locate asked :=
  (Table.find?_erase handle asked r).trans (if_neg hne)

end Registry

namespace Session

variable {s : Session}

/-- A request is answered alike by two sessions, with the same records, in the same time if it is a
payload, and changes the two alike. -/
structure ServesAlike (s other : Session) (r : Request) : Prop where
  answer : (other.serve r).1 = (s.serve r).1
  said : (other.serve r).2.1 = (s.serve r).2.1
  after : (other.serve r).2.2 = { (s.serve r).2.2 with elements := other.elements }
  duration : ∀ payload, r = .run payload → other.duration payload = s.duration payload

/-- A registry that knows the same bounds of what a payload names as a session does. -/
def Supplies (s : Session) (elements : Registry) (actions : Json) : Prop :=
  ∀ handle, actions.NamesElement handle → elements.locate handle = s.elements.locate handle

variable {elements : Registry} {actions payload : Json}

theorem perform_of_supplies (hsupplies : s.Supplies elements actions) :
    { s with elements }.perform actions =
      ((s.perform actions).1, (s.perform actions).2.1,
        { (s.perform actions).2.2 with elements }) := by
  unfold perform
  rw [Timeline.compile_congr hsupplies]
  cases Timeline.compile s.elements.locate actions with
  | error fault => rfl
  | ok t => rfl

theorem run_eq_perform (hcarries : Payload.actions? payload = some actions) :
    s.run payload = s.perform actions := by
  unfold run
  rw [hcarries]

theorem serve_of_supplies (hsupplies : s.Supplies elements actions) {r : Request}
    (hasks : r.actions? = some actions) :
    { s with elements }.serve r =
      ((s.serve r).1, (s.serve r).2.1, { (s.serve r).2.2 with elements }) := by
  cases r with
  | run payload =>
    unfold serve
    dsimp only
    rw [run_eq_perform hasks, run_eq_perform hasks, perform_of_supplies hsupplies]
  | perform asked =>
    cases hasks
    unfold serve
    dsimp only
    rw [perform_of_supplies hsupplies]
  | register | setDryRun => cases hasks

theorem duration_of_supplies (hsupplies : s.Supplies elements actions)
    (hcarries : Payload.actions? payload = some actions) :
    { s with elements }.duration payload = s.duration payload := by
  unfold duration
  rw [hcarries, Option.map_some, Option.map_some, Timeline.compile_congr hsupplies]

/-- Assumes: two sessions that differ in the elements they know, but not in those that a payload
names. They serve it alike. -/
theorem servesAlike (hsupplies : s.Supplies elements actions) {r : Request}
    (hasks : r.actions? = some actions) : s.ServesAlike { s with elements } r := by
  have hserve := serve_of_supplies hsupplies hasks
  constructor
  · rw [hserve]
  · rw [hserve]
  · rw [hserve]
  · rintro payload rfl
    exact duration_of_supplies hsupplies hasks

/-- A payload compiles alike with any two locators that agree on the elements that it names. So a
session serves it alike before and after an element that it does not name is registered, moved or
forgotten. -/
theorem indifferent_to_unnamed (actions : Json) :
    (∀ locate other : Locator,
      (∀ handle, actions.NamesElement handle → locate handle = other handle) →
        Timeline.compile locate actions = Timeline.compile other actions) ∧
      ∀ handle, ¬actions.NamesElement handle → ∀ (s : Session) (r : Request),
        r.actions? = some actions →
          (∀ bounds, s.ServesAlike (s.register handle bounds).2 r) ∧
            s.ServesAlike { s with elements := (s.elements.forget handle).2 } r := by
  refine ⟨fun _ _ hagree ↦ Timeline.compile_congr hagree, fun handle hunnamed s r hasks ↦ ?_⟩
  have hother : ∀ asked, actions.NamesElement asked → asked ≠ handle := by
    rintro asked hnames rfl
    exact hunnamed hnames
  constructor
  · intro bounds
    exact servesAlike
      (fun asked hnames ↦ Registry.locate_register_of_ne (hother asked hnames) bounds) hasks
  · exact servesAlike (fun asked hnames ↦ Registry.locate_forget_of_ne (hother asked hnames)) hasks

/-- A session that knows a button. -/
def ofButton : Session :=
  { pacing := true, elements := [("button", ⟨10, 20, 30, 40⟩)], desktop := { dryRun := true } }

/-- A move to the button, where it goes down. -/
def pressButton : Json :=
  Timeline.moveToElement "button" [Json.item .pointerDown []]

/-- The move names the button but no menu. It is performed, and nothing changes when a menu is
registered where the button is. -/
theorem indifferent_to_menu :
    pressButton.NamesElement "button" ∧
      (∃ t, Timeline.compile ofButton.elements.locate pressButton = .ok t ∧
        Timeline.compile (ofButton.register "menu" ⟨10, 20, 30, 40⟩).2.elements.locate pressButton =
          .ok t) ∧
      ofButton.ServesAlike (ofButton.register "menu" ⟨10, 20, 30, 40⟩).2
        (.perform pressButton) := by
  have hunnamed : ¬pressButton.NamesElement "menu" := by
    rintro ⟨sources, hsources, v, hv, items, hitems, w, hw, htype, origin, horigin, hspells⟩
    cases hsources
    obtain rfl := List.mem_singleton.1 hv
    cases Option.some.inj (hitems : some (Json.array _) = some (.array items))
    rcases List.mem_cons.1 hw with rfl | hw
    · obtain rfl : .string "button" = origin := Option.some.inj horigin
      have hsame : "button" = "menu" := by
        generalize "button" = named, "menu" = handle at hspells
        cases hspells
        rfl
      revert hsame
      decide
    · obtain rfl := List.mem_singleton.1 hw
      have htype : ItemType.pointerDown.name = "pointerMove" :=
        Json.string.inj (Option.some.inj htype)
      revert htype
      decide
  have hnamed : pressButton.NamesElement "button" :=
    ⟨_, rfl, _, List.mem_singleton_self _, _, rfl, _, List.mem_cons_self, rfl, _, rfl,
      .handle (by decide) (by decide)⟩
  obtain ⟨hcompile, hserve⟩ := indifferent_to_unnamed pressButton
  have hagree : ∀ handle, pressButton.NamesElement handle →
      ofButton.elements.locate handle =
        (ofButton.register "menu" ⟨10, 20, 30, 40⟩).2.elements.locate handle := by
    intro handle hnames
    refine (Registry.locate_register_of_ne ?_ _).symm
    rintro rfl
    exact hunnamed hnames
  obtain ⟨t, ht⟩ : ∃ t, Timeline.compile ofButton.elements.locate pressButton = .ok t := ⟨_, rfl⟩
  exact ⟨hnamed, ⟨t, ht, hcompile _ _ hagree ▸ ht⟩,
    (hserve "menu" hunnamed ofButton (.perform pressButton) rfl).1 _⟩

end Session

end ActionReplay
