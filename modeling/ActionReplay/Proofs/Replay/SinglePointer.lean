import ActionReplay.Proofs.Replay.Down
import ActionReplay.Proofs.Replay.Watched

/-!
# A single pointer

A payload with one pointer source makes plain downs and plain ups only, one for every contact of the
source and in the order of its items, whatever else it holds, as long as the source does not go up
and then down at one tick (`Timeline.contactActions_of_compile`). If it does, the down is replayed
before the up, finds another down open, and both are told as those of a further pointer.
-/

set_option autoImplicit false
set_option relaxedAutoImplicit false

namespace ActionReplay

open MotionCue

/-! ### Contacts among events -/

namespace MotionEvent

/-- The action of an event in which a pointer goes down or up. -/
def contact? (e : MotionEvent) : Option MotionAction :=
  if e.action.isPress || e.action.isLift then some e.action else none

theorem contact?_of_isPress {e : MotionEvent} (hpress : e.action.isPress = true) :
    e.contact? = some e.action := by
  simp [contact?, hpress]

theorem contact?_of_isLift {e : MotionEvent} (hlift : e.action.isLift = true) :
    e.contact? = some e.action := by
  simp [contact?, hlift]

theorem contact?_of_move {e : MotionEvent} (hmove : e.action = .move) : e.contact? = none := by
  simp [contact?, hmove, MotionAction.isPress, MotionAction.isLift]

theorem contact?_of_isHover {e : MotionEvent} (hhover : e.action.isHover = true) :
    e.contact? = none := by
  unfold contact?
  cases haction : e.action with
  | hoverEnter => rfl
  | hoverMove => rfl
  | hoverExit => rfl
  | down => simp [haction, MotionAction.isHover] at hhover
  | up => simp [haction, MotionAction.isHover] at hhover
  | move => simp [haction, MotionAction.isHover] at hhover
  | pointerDown index => simp [haction, MotionAction.isHover] at hhover
  | pointerUp index => simp [haction, MotionAction.isHover] at hhover

/-- The contacts of a round are those of its presses, and then those of its lifts. -/
theorem Round.filterMap_contact? {m k n : Nat} {presses moves lifts : List MotionEvent}
    (hround : Round m k n presses moves lifts) :
    (presses ++ moves ++ lifts).filterMap contact? =
      presses.map MotionEvent.action ++ lifts.map MotionEvent.action := by
  have hnone : moves.filterMap contact? = [] :=
    List.filterMap_eq_nil_iff.2 fun e he ↦ contact?_of_move (hround.move e he)
  rw [List.filterMap_append, List.filterMap_append, hnone, List.append_nil,
    List.filterMap_congr fun e he ↦ contact?_of_isPress (hround.press e he),
    List.filterMap_congr fun e he ↦ contact?_of_isLift (hround.lift e he)]
  simp

end MotionEvent

/-- The action of an event in which a pointer goes down or up. -/
def InputEvent.contact? : InputEvent → Option MotionAction
  | .motion e => e.contact?
  | .key _ => none

namespace Contact

/-- The plain action of a contact. -/
def primary (contact : Contact) : MotionAction :=
  if contact.isDown then .down else .up

/-- An up comes before a down of the same tick. -/
def Regrips (contacts : List Contact) : Prop :=
  ∃ tick, List.Sublist [⟨tick, false⟩, ⟨tick, true⟩] contacts

theorem TakeTurns.regrips_iff {contacts : List Contact} (hturns : TakeTurns contacts) :
    Regrips contacts ↔ ∃ tick, during contacts tick = [⟨tick, false⟩, ⟨tick, true⟩] := by
  refine exists_congr fun tick ↦ ⟨fun hsublist ↦ ?_, fun hduring ↦ ?_⟩
  · have hturn := hturns.turn tick
    have hduring : List.Sublist [⟨tick, false⟩, ⟨tick, true⟩] (during contacts tick) := by
      have hfilter := hsublist.filter fun contact ↦ contact.tick = tick
      unfold during
      simpa using hfilter
    generalize heldBefore contacts tick = held, during contacts tick = here,
      heldBefore contacts (tick + 1) = later at hturn hduring ⊢
    cases hturn with
    | rest => exact absurd hduring.length_le (by simp)
    | press => exact absurd hduring.length_le (by simp)
    | tap => exact absurd (hduring.eq_of_length rfl) (by simp)
    | lift => exact absurd hduring.length_le (by simp)
    | regrip => rfl
  · rw [← hduring]
    exact List.filter_sublist

/-- Assumes: a turn of a pointer, and a round with a press for its down and a lift for its up, if it
has them, told while no other down is open. They are plain and in the order of the turn, unless the
pointer goes up and then down: then a press is told that is not plain. -/
theorem Turn.contacts {tick : Tick} {held later : Bool} {here : List Contact} {k : Nat}
    {presses moves lifts : List MotionEvent} (hturn : Turn tick held here later)
    (hround : MotionEvent.Round (if held then 1 else 0) k (if later then 1 else 0) presses moves
      lifts)
    (hdowns : presses.length = if (⟨tick, true⟩ : Contact) ∈ here then 1 else 0)
    (hups : lifts.length = if (⟨tick, false⟩ : Contact) ∈ here then 1 else 0) :
    (here ≠ [⟨tick, false⟩, ⟨tick, true⟩] →
        presses.map MotionEvent.action ++ lifts.map MotionEvent.action = here.map primary) ∧
      (here = [⟨tick, false⟩, ⟨tick, true⟩] →
        ∃ action ∈ presses.map MotionEvent.action ++ lifts.map MotionEvent.action,
          action ≠ .down ∧ action ≠ .up) := by
  obtain ⟨hpresses, -, hlifts, hpress, -, hlift⟩ := hround
  cases hturn with
  | rest =>
    obtain rfl := List.eq_nil_of_length_eq_zero hdowns
    obtain rfl := List.eq_nil_of_length_eq_zero hups
    exact ⟨fun _ ↦ rfl, fun hregrip ↦ absurd hregrip (List.cons_ne_nil _ _).symm⟩
  | press =>
    obtain ⟨down, rfl⟩ := List.length_eq_one_iff.1 (hdowns.trans (if_pos List.mem_cons_self))
    obtain rfl := List.eq_nil_of_length_eq_zero (hups.trans (if_neg (by simp)))
    obtain ⟨-, hplain, -⟩ := hpresses.step.press (hpress down List.mem_cons_self)
    have hdown : down.action = .down := hplain.2 rfl
    exact ⟨fun _ ↦ by simp [primary, hdown], fun hregrip ↦ by simp at hregrip⟩
  | tap =>
    obtain ⟨down, rfl⟩ := List.length_eq_one_iff.1 (hdowns.trans (if_pos (by simp)))
    obtain ⟨up, rfl⟩ := List.length_eq_one_iff.1 (hups.trans (if_pos (by simp)))
    obtain ⟨-, hplain, -⟩ := hpresses.step.press (hpress down List.mem_cons_self)
    have hdown : down.action = .down := hplain.2 rfl
    have hup : up.action = .up := (hlifts.step.lift (hlift up List.mem_cons_self)).2.2 rfl
    exact ⟨fun _ ↦ by simp [primary, hdown, hup], fun hregrip ↦ by simp at hregrip⟩
  | lift =>
    obtain rfl := List.eq_nil_of_length_eq_zero (hdowns.trans (if_neg (by simp)))
    obtain ⟨up, rfl⟩ := List.length_eq_one_iff.1 (hups.trans (if_pos List.mem_cons_self))
    have hup : up.action = .up := (hlifts.step.lift (hlift up List.mem_cons_self)).2.2 rfl
    exact ⟨fun _ ↦ by simp [primary, hup], fun hregrip ↦ by simp at hregrip⟩
  | regrip =>
    obtain ⟨down, rfl⟩ := List.length_eq_one_iff.1 (hdowns.trans (if_pos (by simp)))
    obtain ⟨-, hplain, hup⟩ := hpresses.step.press (hpress down List.mem_cons_self)
    have hdown : down.action ≠ .down := fun h ↦ one_ne_zero (hplain.1 h)
    exact ⟨fun hnot ↦ absurd rfl hnot, fun _ ↦ ⟨down.action, by simp, hdown, hup⟩⟩

end Contact

/-- The contacts of the only pointer source. -/
theorem Source.contactsOf_single {sources : List Source} {s : Source}
    (hsingle : Source.ofKind sources .pointer = [s]) (tool : Tool) :
    Source.contactsOf sources tool 0 = if s.tool = tool then s.contacts else [] := by
  rw [Source.contactsOf, hsingle]
  rfl

namespace Timeline

/-- The actions of all events in which a pointer goes down or up, in the order in which they are
sent. -/
def contactActions (t : Timeline) : List MotionAction :=
  (t.signals.filterMap Signal.event?).filterMap InputEvent.contact?

namespace Shows

variable {t : Timeline} {contacts : Tool → Nat → List Contact}

/-! ### A single pointer at a tick -/

/-- The only pointer has all cues of a contact. -/
theorem length_having (hshows : t.Shows 1 contacts) (tool : Tool) (tick : Tick) (isDown : Bool) :
    (having (.ofContact isDown) (t.motionsAt tool tick)).length =
      if (⟨tick, isDown⟩ : Contact) ∈ contacts tool 0 then 1 else 0 := by
  apply hshows.length_having_of_others
  intro other hother
  rw [hshows.few tool other (Nat.pos_of_ne_zero hother)]
  exact List.not_mem_nil

theorem balance_gestureBefore (hshows : t.Shows 1 contacts) (tool : Tool) (tick : Tick) :
    (t.gestureBefore tool tick).balance =
      if Contact.heldBefore (contacts tool 0) tick then 1 else 0 := by
  apply hshows.balance_gestureBefore_of_others
  intro other hother
  rw [hshows.few tool other (Nat.pos_of_ne_zero hother)]
  rfl

/-- At a tick the single pointer of a tool tells its contacts plainly, unless it goes up and then
down. -/
theorem contacts_touchesAt (hshows : t.Shows 1 contacts) (tool : Tool) (tick : Tick) :
    (Contact.during (contacts tool 0) tick ≠ [⟨tick, false⟩, ⟨tick, true⟩] →
        (t.touchesAt tool tick).filterMap MotionEvent.contact? =
          (Contact.during (contacts tool 0) tick).map Contact.primary) ∧
      (Contact.during (contacts tool 0) tick = [⟨tick, false⟩, ⟨tick, true⟩] →
        ∃ action ∈ (t.touchesAt tool tick).filterMap MotionEvent.contact?,
          action ≠ .down ∧ action ≠ .up) := by
  obtain ⟨presses, moves, lifts, k, htouches, hround, hdowns, hups, -⟩ :=
    hshows.exists_round tool tick
  have hturn := (hshows.turns tool 0).turn tick
  have hdown := hshows.length_having tool tick true
  have hup := hshows.length_having tool tick false
  simp only [Contact.mem_iff_mem_during (contacts tool 0)] at hdown hup
  rw [hshows.balance_gestureBefore, hshows.balance_gestureBefore] at hround
  rw [htouches, hround.filterMap_contact?]
  exact hturn.contacts hround (hdowns.trans hdown) (hups.trans hup)

/-! ### A single pointer at all ticks -/

/-- A single pointer that never goes up and then down at one tick tells its contacts plainly and in
order. -/
theorem contacts_touches (hshows : t.Shows 1 contacts) (tool : Tool)
    (hnone : ¬Contact.Regrips (contacts tool 0)) :
    (t.touches tool).filterMap MotionEvent.contact? =
      (contacts tool 0).map Contact.primary := by
  have hturns := hshows.turns tool 0
  obtain ⟨last, hlast⟩ := t.exists_touches_eq tool
  obtain ⟨latest, hlatest⟩ := exists_bound ((contacts tool 0).map Contact.tick)
  have hall : Contact.before (contacts tool 0) (max last latest) = contacts tool 0 := by
    apply List.filter_eq_self.2
    intro contact hcontact
    exact decide_eq_true (lt_max_of_lt_right (hlatest _ (List.mem_map_of_mem hcontact)))
  rw [hlast _ (le_max_left last latest), List.filterMap_flatMap]
  calc (List.range (max last latest)).flatMap
        (fun tick ↦ (t.touchesAt tool tick).filterMap MotionEvent.contact?)
      = (List.range (max last latest)).flatMap
          (fun tick ↦ (Contact.during (contacts tool 0) tick).map Contact.primary) :=
        List.flatMap_congr fun tick _ ↦ (hshows.contacts_touchesAt tool tick).1 fun hregrip ↦
          hnone (hturns.regrips_iff.2 ⟨tick, hregrip⟩)
    _ = ((List.range (max last latest)).flatMap
          (Contact.during (contacts tool 0))).map Contact.primary := List.map_flatMap.symm
    _ = (contacts tool 0).map Contact.primary := by
        rw [Contact.flatMap_during hturns.ordered, hall]

/-- A single pointer that goes up and then down at one tick tells a contact that is not plain. -/
theorem exists_secondary (hshows : t.Shows 1 contacts) (tool : Tool)
    (hregrips : Contact.Regrips (contacts tool 0)) :
    ∃ action ∈ (t.touches tool).filterMap MotionEvent.contact?, action ≠ .down ∧ action ≠ .up := by
  obtain ⟨tick, hregrip⟩ := (hshows.turns tool 0).regrips_iff.1 hregrips
  obtain ⟨last, hlast⟩ := t.exists_touches_eq tool
  obtain ⟨action, haction, hplain⟩ := (hshows.contacts_touchesAt tool tick).2 hregrip
  refine ⟨action, ?_, hplain⟩
  rw [hlast _ (le_max_left last (tick + 1)), List.filterMap_flatMap, List.mem_flatMap]
  exact ⟨tick, List.mem_range.2 (lt_max_of_lt_right (Nat.lt_succ_self tick)), haction⟩

end Shows

/-- Assumes: a timeline on which only one tool makes contacts. All contacts are told of that
tool. -/
theorem contactActions_eq {t : Timeline} {tool : Tool}
    (hothers : ∀ other, other ≠ tool → (t.touches other).filterMap MotionEvent.contact? = []) :
    t.contactActions = (t.touches tool).filterMap MotionEvent.contact? := by
  unfold contactActions
  unfold touches InputEvent.touches at hothers ⊢
  generalize t.signals.filterMap Signal.event? = events at hothers ⊢
  rw [List.filterMap_filterMap]
  apply List.filterMap_congr
  intro event hevent
  cases event with
  | key e => rfl
  | motion e =>
    have hother : e.tool ≠ tool → e.contact? = none := by
      intro hne
      by_cases htouch : e.action.isHover = false
      · refine List.filterMap_eq_nil_iff.1 (hothers e.tool hne) e ?_
        exact List.mem_filterMap.2 ⟨.motion e, hevent, by simp [InputEvent.touch?, htouch]⟩
      · exact MotionEvent.contact?_of_isHover (Bool.eq_true_of_not_eq_false htouch)
    by_cases htool : e.tool = tool
    · by_cases htouch : e.action.isHover = false
      · simp [InputEvent.touch?, InputEvent.contact?, htool, htouch]
      · have hnone := MotionEvent.contact?_of_isHover (Bool.eq_true_of_not_eq_false htouch)
        simp [InputEvent.touch?, InputEvent.contact?, htouch, hnone]
    · simp [InputEvent.touch?, InputEvent.contact?, htool, hother]

/-- Assumes: a single pointer, which makes contacts with one tool only. All contacts are told of
that tool. -/
theorem Shows.contactActions_eq_touches {t : Timeline} {contacts : Tool → Nat → List Contact}
    (hshows : t.Shows 1 contacts) {tool : Tool}
    (hothers : ∀ other, other ≠ tool → contacts other 0 = []) :
    t.contactActions = (t.touches tool).filterMap MotionEvent.contact? := by
  apply contactActions_eq
  intro other hother
  have hnone : contacts other 0 = [] := hothers other hother
  have hempty : ¬Contact.Regrips (contacts other 0) := by
    rintro ⟨tick, hsublist⟩
    rw [hnone] at hsublist
    exact absurd hsublist.length_le (by simp)
  rw [hshows.contacts_touches other hempty, hnone]
  rfl

/-- Assumes: a payload that compiles, with one pointer source. All downs and ups that a device is handed,
whichever the device, are plain if and only if the source never goes up and then down at one tick. Then
there is one for every contact of the source, in the order of its items, and they alternate, a down
first. -/
theorem contactActions_of_compile {locate : Locator} {actions : Json} {t : Timeline}
    {sources : List Source} {s : Source} (ht : compile locate actions = .ok t)
    (hread : (Source.readAll actions >>= Source.accept) = .ok sources)
    (hsingle : Source.ofKind sources .pointer = [s]) :
    (∀ (σ : Type) (device : Device σ) (pacing : Bool) (memory : σ),
      ((device.answers pacing memory t).map Prod.fst).filterMap InputEvent.contact? =
        t.contactActions) ∧
      ((∀ action ∈ t.contactActions, action = .down ∨ action = .up) ↔
        ¬Contact.Regrips s.contacts) ∧
      (¬Contact.Regrips s.contacts →
        t.contactActions = s.contacts.map Contact.primary ∧
          Contact.Alternate false s.contacts) := by
  obtain ⟨accepted, haccepted, hsources⟩ := exists_sources_of_compile ht
  obtain rfl := Except.ok.inj (hread.symm.trans haccepted)
  have hshows := shows_of_ofSources hsources
  rw [hsingle] at hshows
  have hours : Source.contactsOf sources s.tool 0 = s.contacts :=
    (Source.contactsOf_single hsingle s.tool).trans (if_pos rfl)
  have hactions : t.contactActions = (t.touches s.tool).filterMap MotionEvent.contact? :=
    hshows.contactActions_eq_touches fun other hother ↦
      (Source.contactsOf_single hsingle other).trans (if_neg (Ne.symm hother))
  have hplain : ¬Contact.Regrips s.contacts →
      t.contactActions = s.contacts.map Contact.primary := by
    intro hnone
    rw [← hours] at hnone ⊢
    exact hactions.trans (hshows.contacts_touches s.tool hnone)
  refine ⟨?_, ⟨?_, ?_⟩, fun hnone ↦ ⟨hplain hnone, ?_⟩⟩
  · intro σ device pacing memory
    rw [device.map_fst_answers, contactActions]
  · intro hall hregrips
    rw [← hours] at hregrips
    obtain ⟨action, haction, hdown, hup⟩ := hshows.exists_secondary s.tool hregrips
    rw [← hactions] at haction
    rcases hall action haction with hsame | hsame
    · exact hdown hsame
    · exact hup hsame
  · intro hnone
    rw [hplain hnone]
    intro action haction
    obtain ⟨contact, -, rfl⟩ := List.mem_map.1 haction
    cases hkind : contact.isDown with
    | true => exact .inl (by simp [Contact.primary, hkind])
    | false => exact .inr (by simp [Contact.primary, hkind])
  · rw [← hours]
    exact (hshows.turns s.tool 0).alternate

/-- A finger that taps and then drags, while a key goes down. -/
def tapThenDrag : Json :=
  .array [
    Json.pointerSource "m" [
      Json.item .pointerMove [(.duration, 0), (.x, 1), (.y, 2)],
      Json.item .pointerDown [],
      Json.item .pointerUp [],
      Json.item .pause [(.duration, 10)],
      Json.item .pointerDown [],
      Json.item .pointerMove [(.duration, 10), (.x, 3), (.y, 2)],
      Json.item .pointerUp []],
    .object [
      ("id", .string "k"),
      ("type", .string "key"),
      ("actions", .array [.object [("type", .string "keyDown"), ("value", .string "a")]])]]

/-- The tap and the drag are told plainly and in order. -/
theorem contactActions_tapThenDrag :
    ∃ t sources s, compile (fun _ ↦ none) tapThenDrag = .ok t ∧
      (Source.readAll tapThenDrag >>= Source.accept) = .ok sources ∧
      Source.ofKind sources .pointer = [s] ∧ t.contactActions = [.down, .up, .down, .up] ∧
      t.contactActions = s.contacts.map Contact.primary ∧ Contact.Alternate false s.contacts := by
  have hactions : (compile (fun _ ↦ none) tapThenDrag).toOption.map contactActions =
      some [.down, .up, .down, .up] := by
    decide +kernel
  have hcompile : ∃ t, compile (fun _ ↦ none) tapThenDrag = .ok t := ⟨_, rfl⟩
  have hread : ∃ sources s, (Source.readAll tapThenDrag >>= Source.accept) = .ok sources ∧
      Source.ofKind sources .pointer = [s] := ⟨_, _, rfl, rfl⟩
  obtain ⟨t, ht⟩ := hcompile
  obtain ⟨sources, s, hsources, hsingle⟩ := hread
  rw [ht] at hactions
  have hplain : t.contactActions = [.down, .up, .down, .up] := Option.some.inj hactions
  obtain ⟨-, hiff, horder⟩ := contactActions_of_compile ht hsources hsingle
  have hnone : ¬Contact.Regrips s.contacts := by
    rw [← hiff, hplain]
    decide
  exact ⟨t, sources, s, ht, hsources, hsingle, hplain, horder hnone⟩

/-- A finger that taps, and goes down again at the tick at which it goes up. -/
def tapAgain : Json :=
  .array [
    Json.pointerSource "m" [
      Json.item .pointerMove [(.duration, 0), (.x, 1), (.y, 2)],
      Json.item .pointerDown [],
      Json.item .pause [(.duration, 10)],
      Json.item .pointerUp [],
      Json.item .pointerDown [],
      Json.item .pause [(.duration, 10)],
      Json.item .pointerUp []]]

/-- The second down is told as that of a further pointer, before the first up. -/
theorem not_plain_tapAgain :
    ¬∀ t sources s, compile (fun _ ↦ none) tapAgain = .ok t →
      (Source.readAll tapAgain >>= Source.accept) = .ok sources →
      Source.ofKind sources .pointer = [s] →
        (∀ action ∈ t.contactActions, action = .down ∨ action = .up) ∧
          t.contactActions = s.contacts.map Contact.primary := by
  have hactions : (compile (fun _ ↦ none) tapAgain).toOption.map contactActions =
      some [.down, .pointerDown 0, .pointerUp 0, .up] := by
    decide +kernel
  have hcompile : ∃ t, compile (fun _ ↦ none) tapAgain = .ok t := ⟨_, rfl⟩
  have hread : ∃ sources s, (Source.readAll tapAgain >>= Source.accept) = .ok sources ∧
      Source.ofKind sources .pointer = [s] := ⟨_, _, rfl, rfl⟩
  obtain ⟨t, ht⟩ := hcompile
  obtain ⟨sources, s, hsources, hsingle⟩ := hread
  rw [ht] at hactions
  have htold : t.contactActions = [.down, .pointerDown 0, .pointerUp 0, .up] :=
    Option.some.inj hactions
  intro hplain
  have hall := (hplain t sources s ht hsources hsingle).1
  rw [htold] at hall
  exact absurd hall (by decide)

end Timeline

end ActionReplay
