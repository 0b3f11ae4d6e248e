import ActionReplay.Proofs.Replay.Conserved

/-!
# What a motion event lists

Any timeline can be replayed, also one that no sources compile to: pointers may go down twice, go up
without having gone down, or move while they are up. The table of a gesture stays in order through all
of this, so whatever is told of a press or of a lift lists pointers in increasing order, and the pointer
of the cue where the cue puts it, at the place that the action names (`MotionEvent.Lists`).

What a move lists can be said without the gesture. An up closes an open down, or is passed over if there
is none (`MotionCue.addContact`). A pointer stands where its last down or move put it, as long as the last
of its downs and of the ups that are told is a down (`MotionCue.standing?`). A gesture agrees with this
after any cues (`Gesture.Remembers`): each press, each move and each lift keeps the agreement, so a whole
tick does, and so does a whole replay (`Timeline.remembers_gestureBefore`). A move lists the pointers that
stand somewhere, where they stand (`Timeline.listed_of_dispatch`).
-/

set_option autoImplicit false
set_option relaxedAutoImplicit false

namespace ActionReplay

namespace MotionCue

variable {history : List MotionCue} {cue : MotionCue}

theorem action_of_mem_having {action : CueAction} {cues : List MotionCue}
    (hmem : cue ∈ having action cues) : cue.action = action :=
  of_decide_eq_true (List.mem_filter.1 hmem).2

theorem filter_concat (P : MotionCue → Prop) [DecidablePred P] (cues : List MotionCue)
    (cue : MotionCue) :
    (cues ++ [cue]).filter (fun cue ↦ P cue) =
      cues.filter (fun cue ↦ P cue) ++ if P cue then [cue] else [] := by
  rw [List.filter_append, List.filter_singleton]
  by_cases hkept : P cue
  · rw [if_pos hkept, decide_eq_true hkept]
    rfl
  · rw [if_neg hkept, decide_eq_false hkept]
    rfl

theorem length_having_concat (action : CueAction) (cues : List MotionCue) (cue : MotionCue) :
    (having action (cues ++ [cue])).length =
      (having action cues).length + if cue.action = action then 1 else 0 := by
  rw [having, filter_concat, List.length_append, apply_ite List.length]
  rfl

/-- The cues that do not hover, in the order in which they are replayed. -/
def touching (cues : List MotionCue) : List MotionCue :=
  having .down cues ++ (having .move cues ++ having .up cues)

/-! ### Where a pointer stands after some cues -/

/-- The last cue of a pointer. -/
def last? (pointer : Nat) (cues : List MotionCue) : Option MotionCue :=
  (cues.filter fun cue ↦ cue.pointer = pointer).getLast?

theorem last?_concat (pointer : Nat) (cues : List MotionCue) (cue : MotionCue) :
    last? pointer (cues ++ [cue]) =
      if pointer = cue.pointer then some cue else last? pointer cues := by
  rw [last?, filter_concat]
  by_cases hsame : pointer = cue.pointer
  · rw [if_pos hsame, if_pos hsame.symm, List.getLast?_concat]
  · rw [if_neg hsame, if_neg (Ne.symm hsame), List.append_nil]
    rfl

/-- How many downs are not closed, if every up closes one. -/
def openDowns (told : List MotionCue) : Nat :=
  (having .down told).length - (having .up told).length

/-- Adds a cue to the downs and ups that are told. An up is passed over if no down is open. -/
def addContact (told : List MotionCue) (cue : MotionCue) : List MotionCue :=
  match cue.action with
  | .down => told ++ [cue]
  | .up => if openDowns told = 0 then told else told ++ [cue]
  | _ => told

/-- The downs and ups among some cues that are told. -/
def contacts (history : List MotionCue) : List MotionCue :=
  history.foldl addContact []

/-- The downs and moves of some cues. -/
def placings (history : List MotionCue) : List MotionCue :=
  history.filter fun cue ↦ cue.action = .down ∨ cue.action = .move

/-- The last contact of a pointer is a down. -/
def IsDown (pointer : Nat) (history : List MotionCue) : Prop :=
  (last? pointer (contacts history)).map MotionCue.action = some .down

instance (pointer : Nat) (history : List MotionCue) : Decidable (IsDown pointer history) :=
  inferInstanceAs (Decidable (_ = _))

/-- Where the last down or move of a pointer puts it, if it is down. -/
def standing? (pointer : Nat) (history : List MotionCue) : Option Position :=
  if IsDown pointer history then (last? pointer (placings history)).map MotionCue.position else none

theorem contacts_concat (history : List MotionCue) (cue : MotionCue) :
    contacts (history ++ [cue]) = addContact (contacts history) cue :=
  List.foldl_concat addContact [] cue history

theorem contacts_of_down (hdown : cue.action = .down) :
    contacts (history ++ [cue]) = contacts history ++ [cue] := by
  rw [contacts_concat, addContact, hdown]

theorem contacts_of_move (hmove : cue.action = .move) :
    contacts (history ++ [cue]) = contacts history := by
  rw [contacts_concat, addContact, hmove]

theorem contacts_of_up_of_zero (hup : cue.action = .up) (hzero : openDowns (contacts history) = 0) :
    contacts (history ++ [cue]) = contacts history := by
  rw [contacts_concat, addContact, hup]
  exact if_pos hzero

theorem contacts_of_up_of_ne_zero (hup : cue.action = .up)
    (hopen : openDowns (contacts history) ≠ 0) :
    contacts (history ++ [cue]) = contacts history ++ [cue] := by
  rw [contacts_concat, addContact, hup]
  exact if_neg hopen

theorem contacts_subset (history : List MotionCue) : contacts history ⊆ history := by
  induction history using List.reverseRecOn with
  | nil => exact List.Subset.refl []
  | append_singleton history cue ih =>
    have hkept : contacts history ⊆ history ++ [cue] :=
      List.Subset.trans ih (List.subset_append_left history [cue])
    have htold : contacts history ++ [cue] ⊆ history ++ [cue] := List.append_subset.2
      ⟨hkept, List.subset_append_right history [cue]⟩
    rw [contacts_concat, addContact]
    split
    · exact htold
    · split
      · exact hkept
      · exact htold
    · exact hkept

theorem placings_concat (history : List MotionCue) (cue : MotionCue) :
    placings (history ++ [cue]) =
      placings history ++ if cue.action = .down ∨ cue.action = .move then [cue] else [] :=
  filter_concat _ history cue

/-- A contact that is told is the last one of its pointer. -/
theorem isDown_concat (htold : contacts (history ++ [cue]) = contacts history ++ [cue])
    (pointer : Nat) :
    IsDown pointer (history ++ [cue]) ↔
      if pointer = cue.pointer then cue.action = .down else IsDown pointer history := by
  unfold IsDown
  rw [htold, last?_concat]
  by_cases hsame : pointer = cue.pointer
  · rw [if_pos hsame, if_pos hsame, Option.map_some, Option.some_inj]
  · rw [if_neg hsame, if_neg hsame]

theorem isDown_congr {other : List MotionCue} (hsame : contacts other = contacts history)
    (pointer : Nat) : IsDown pointer other ↔ IsDown pointer history := by
  unfold IsDown
  rw [hsame]

/-- A pointer stands somewhere exactly if it is down. -/
theorem standing?_eq_none_iff {pointer : Nat} :
    standing? pointer history = none ↔ ¬IsDown pointer history := by
  rw [standing?]
  by_cases hdown : IsDown pointer history
  · obtain ⟨cue, hlast, haction⟩ := Option.map_eq_some_iff.1 hdown
    obtain ⟨hcontact, hpointer⟩ := List.mem_filter.1 (List.mem_of_getLast? hlast)
    have hplacing : cue ∈ placings history := List.mem_filter.2
      ⟨contacts_subset history hcontact, decide_eq_true (.inl haction)⟩
    have hsome : last? pointer (placings history) ≠ none := fun hnone ↦ List.ne_nil_of_mem
      (List.mem_filter.2 ⟨hplacing, hpointer⟩) (List.getLast?_eq_none_iff.1 hnone)
    rw [if_pos hdown, Option.map_eq_none_iff]
    exact iff_of_false hsome (not_not_intro hdown)
  · rw [if_neg hdown]
    exact iff_of_true rfl hdown

/-- A down puts its pointer somewhere, and no other. -/
theorem standing?_down (hdown : cue.action = .down) (pointer : Nat) :
    standing? pointer (history ++ [cue]) =
      if pointer = cue.pointer then some cue.position else standing? pointer history := by
  simp only [standing?, isDown_concat (contacts_of_down hdown), placings_concat, hdown, true_or,
    if_true, last?_concat]
  by_cases hsame : pointer = cue.pointer
  · simp only [hsame, if_true, Option.map_some]
  · simp only [hsame, if_false]

/-- A move puts its pointer elsewhere if it is down, and no other. -/
theorem standing?_move (hmove : cue.action = .move) (pointer : Nat) :
    standing? pointer (history ++ [cue]) =
      if pointer = cue.pointer ∧ IsDown pointer history then some cue.position
      else standing? pointer history := by
  simp only [standing?, isDown_congr (contacts_of_move hmove), placings_concat, hmove, or_true,
    if_true, last?_concat]
  by_cases hdown : IsDown pointer history
  · simp only [hdown, and_true, if_true, apply_ite (Option.map MotionCue.position), Option.map_some]
  · simp only [hdown, and_false, if_false]

/-- An up that is passed over changes nothing. -/
theorem standing?_up_of_zero (hup : cue.action = .up) (hzero : openDowns (contacts history) = 0)
    (pointer : Nat) : standing? pointer (history ++ [cue]) = standing? pointer history := by
  simp [standing?, isDown_congr (contacts_of_up_of_zero hup hzero), placings_concat, hup]

/-- An up that is told lets its pointer stand nowhere, and changes no other. -/
theorem standing?_up_of_ne_zero (hup : cue.action = .up)
    (hopen : openDowns (contacts history) ≠ 0) (pointer : Nat) :
    standing? pointer (history ++ [cue]) =
      if pointer = cue.pointer then none else standing? pointer history := by
  have htold := contacts_of_up_of_ne_zero hup hopen
  by_cases hsame : pointer = cue.pointer
  · simp [standing?, isDown_concat htold, hsame, hup]
  · simp [standing?, isDown_concat htold, hsame, placings_concat, hup]

end MotionCue

/-! ### One event -/

namespace MotionEvent

/-- Assumes: an event that tells a cue. It lists pointers in increasing order, and if its action names a
place, the pointer of the cue stands there. -/
structure Lists (e : MotionEvent) (cue : MotionCue) : Prop extends e.IsOf cue where
  ascending : (e.pointers.map Prod.fst).Pairwise (· < ·)
  place : ∀ index, e.action = .pointerDown index ∨ e.action = .pointerUp index →
    e.pointers[index]? = some (cue.pointer, cue.position)

/-- Assumes: the cues that are replayed up to an event. It lists all pointers that are down, in
increasing order, where they stand. -/
structure Surveys (e : MotionEvent) (history : List MotionCue) : Prop where
  ascending : (e.pointers.map Prod.fst).Pairwise (· < ·)
  mem : ∀ pointer position, (pointer, position) ∈ e.pointers ↔
    MotionCue.standing? pointer history = some position

end MotionEvent

namespace Gesture

open MotionCue

variable {g : Gesture} {tool : Tool} {history cues : List MotionCue} {cue : MotionCue}

theorem pairwise_keys {live : Table Nat Position} :
    (live.map Prod.fst).Pairwise (· < ·) ↔ live.Ascending :=
  List.pairwise_map

/-- An entry that is found stands at the place at which its key is found. -/
theorem getElem?_indexOf {live : Table Nat Position} {pointer : Nat} {position : Position}
    (hfound : live.find? pointer = some position) :
    live[indexOf live pointer]? = some (pointer, position) := by
  induction live with
  | nil => cases hfound
  | cons entry rest ih =>
    rw [Table.find?_cons] at hfound
    unfold indexOf at ih ⊢
    rw [List.findIdx?_cons]
    by_cases hsame : entry.1 = pointer
    · rw [if_pos hsame] at hfound
      rw [decide_eq_true hsame, if_pos rfl]
      exact congrArg some (Prod.ext hsame (Option.some.inj hfound))
    · rw [if_neg hsame] at hfound
      have hlater := ih hfound
      rw [decide_eq_false hsame, if_neg Bool.false_ne_true]
      cases hindex : rest.findIdx? fun entry ↦ entry.1 = pointer with
      | none =>
        rw [List.findIdx?_eq_none_iff] at hindex
        have hmem := Table.mem_of_find? hfound
        exact absurd rfl (of_decide_eq_false (hindex _ hmem))
      | some index =>
        rw [hindex] at hlater
        exact hlater

/-- An event of a cue that lists a table in which the cue has just been written. -/
theorem lists_event (hascending : g.live.Ascending) {action : MotionAction}
    (haction : ∀ index, action = .pointerDown index ∨ action = .pointerUp index →
      index = indexOf (g.live.insert cue.pointer cue.position) cue.pointer)
    (flags : UInt32) :
    MotionEvent.Lists
      { downTick := cue.entry, action, tool := cue.tool,
        pointers := g.live.insert cue.pointer cue.position, metaState := flags,
        buttonState := cue.button } cue := by
  refine ⟨⟨rfl, rfl, Table.mem_insert_self _ _ _⟩,
    pairwise_keys.2 (Table.ascending_insert hascending _ _), fun index hindex ↦ ?_⟩
  rw [haction index hindex]
  exact getElem?_indexOf ((Table.find?_insert _ _ _ _).trans (if_pos rfl))

/-- Every down is told by one press, which lists its pointer. -/
theorem exists_presses (hascending : g.live.Ascending) (flags : UInt32) (cues : List MotionCue) :
    ∃ presses : List MotionEvent, (g.pressAll flags cues).1 = presses.map .motion ∧
      List.Forall₂ (fun cue e ↦ e.Lists cue ∧ e.action.isPress = true) cues presses := by
  induction cues generalizing g with
  | nil => exact ⟨[], rfl, .nil⟩
  | cons cue rest ih =>
    obtain ⟨presses, htold, hpresses⟩ :=
      ih (g := (g.press flags cue).2) (Table.ascending_insert hascending _ _)
    rw [pressAll_cons, htold]
    refine ⟨_ :: presses, rfl, .cons ⟨lists_event hascending ?_ flags, ?_⟩ hpresses⟩
    · intro index hindex
      split_ifs at hindex with hfirst
      · simp at hindex
      · simpa [eq_comm] using hindex
    · dsimp only
      split_ifs with hfirst
      · rfl
      · rfl

/-- As many ups as downs are open are told, by one lift each, which lists its pointer. -/
theorem exists_lifts (hascending : g.live.Ascending) (flags : UInt32) (cues : List MotionCue) :
    ∃ lifts : List MotionEvent, (g.liftAll flags cues).1 = lifts.map .motion ∧
      List.Forall₂ (fun cue e ↦ e.Lists cue ∧ e.action.isLift = true) (cues.take g.balance)
        lifts := by
  induction cues generalizing g with
  | nil =>
    rw [List.take_nil]
    exact ⟨[], rfl, .nil⟩
  | cons cue rest ih =>
    rw [liftAll_cons]
    by_cases hbalance : g.balance = 0
    · obtain ⟨lifts, htold, hlifts⟩ := ih hascending
      rw [hbalance, List.take_zero] at hlifts
      rw [lift_of_zero hbalance, htold, hbalance]
      exact ⟨lifts, rfl, hlifts⟩
    · obtain ⟨count, hcount⟩ := Nat.exists_eq_succ_of_ne_zero hbalance
      obtain ⟨lifts, htold, hlifts⟩ := ih (g := (g.lift flags cue).2) (by
        rw [lift_of_ne_zero hbalance]
        exact (Table.ascending_insert hascending _ _).erase _)
      rw [htold, hcount, List.take_succ_cons]
      rw [lift_of_ne_zero hbalance] at hlifts ⊢
      rw [hcount] at hlifts
      refine ⟨_ :: lifts, rfl, .cons ⟨lists_event hascending ?_ flags, ?_⟩ hlifts⟩
      · intro index hindex
        split_ifs at hindex with hlast
        · simp at hindex
        · simpa [eq_comm] using hindex
      · dsimp only
        split_ifs with hlast
        · rfl
        · rfl

/-! ### Gestures that agree with a history -/

/-- Assumes: the cues that a gesture has replayed. It counts the downs that are open, and its table holds
the pointers that are down where they stand. -/
structure Remembers (g : Gesture) (history : List MotionCue) : Prop where
  balance : g.balance + (having .up (contacts history)).length =
    (having .down (contacts history)).length
  ascending : g.live.Ascending
  find? : ∀ pointer, g.live.find? pointer = standing? pointer history

theorem Remembers.openDowns (hremembers : g.Remembers history) :
    openDowns (contacts history) = g.balance :=
  Nat.sub_eq_of_eq_add hremembers.balance.symm

theorem Remembers.mem_keys_iff (hremembers : g.Remembers history) (pointer : Nat) :
    pointer ∈ g.live.keys ↔ IsDown pointer history := by
  rw [Table.mem_keys_iff, hremembers.find? pointer, Ne, standing?_eq_none_iff, not_not]

theorem remembers_start : Remembers {} [] := ⟨rfl, .nil, fun _ ↦ rfl⟩

theorem Remembers.press (hremembers : g.Remembers history) (hdown : cue.action = .down)
    (flags : UInt32) : (g.press flags cue).2.Remembers (history ++ [cue]) := by
  refine ⟨?_, Table.ascending_insert hremembers.ascending _ _, fun pointer ↦ ?_⟩
  · show g.balance + 1 + _ = _
    rw [contacts_of_down hdown, length_having_concat, length_having_concat, hdown, if_pos rfl,
      if_neg CueAction.noConfusion, ← hremembers.balance]
    omega
  · rw [standing?_down hdown, ← hremembers.find? pointer]
    exact Table.find?_insert _ _ _ _

theorem Remembers.move (hremembers : g.Remembers history) (hmove : cue.action = .move)
    (buttons : UInt32) :
    Remembers { g with live := (follow (buttons, g.live) cue).2 } (history ++ [cue]) := by
  refine ⟨?_, (keys_follow (buttons, g.live) cue).2 hremembers.ascending, fun pointer ↦ ?_⟩
  · rw [contacts_of_move hmove]
    exact hremembers.balance
  have hlive := hremembers.mem_keys_iff cue.pointer
  rw [standing?_move hmove, ← hremembers.find? pointer]
  dsimp only
  by_cases hmem : cue.pointer ∈ g.live.keys
  · rw [follow_of_mem hmem, Table.find?_insert]
    refine if_congr (iff_self_and.2 ?_) rfl rfl
    rintro rfl
    exact hlive.1 hmem
  · rw [follow_of_none (Table.find?_eq_none_iff.2 hmem), if_neg]
    rintro ⟨rfl, hdown⟩
    exact hmem (hlive.2 hdown)

theorem Remembers.lift (hremembers : g.Remembers history) (hup : cue.action = .up)
    (flags : UInt32) : (g.lift flags cue).2.Remembers (history ++ [cue]) := by
  by_cases hbalance : g.balance = 0
  · have hzero := hremembers.openDowns.trans hbalance
    rw [lift_of_zero hbalance]
    refine ⟨contacts_of_up_of_zero hup hzero ▸ hremembers.balance, hremembers.ascending, fun pointer ↦ ?_⟩
    rw [standing?_up_of_zero hup hzero, hremembers.find? pointer]
  · have hopen : MotionCue.openDowns (contacts history) ≠ 0 := hremembers.openDowns ▸ hbalance
    rw [lift_of_ne_zero hbalance]
    refine ⟨?_, (Table.ascending_insert hremembers.ascending _ _).erase _, fun pointer ↦ ?_⟩
    · have hbefore := hremembers.balance
      show g.balance - 1 + _ = _
      rw [contacts_of_up_of_ne_zero hup hopen, length_having_concat, length_having_concat, hup,
        if_pos rfl, if_neg CueAction.noConfusion]
      omega
    · rw [standing?_up_of_ne_zero hup hopen, Table.find?_erase, Table.find?_insert,
        hremembers.find? pointer]
      exact ite_congr rfl (fun _ ↦ rfl) fun hother ↦ if_neg hother

theorem Remembers.pressAll (hremembers : g.Remembers history)
    (hdown : ∀ cue ∈ cues, cue.action = .down) (flags : UInt32) :
    (g.pressAll flags cues).2.Remembers (history ++ cues) := by
  induction cues generalizing g history with
  | nil => exact (List.append_nil history).symm ▸ hremembers
  | cons cue rest ih =>
    obtain ⟨hcue, hrest⟩ := List.forall_mem_cons.1 hdown
    rw [List.append_cons]
    exact ih (hremembers.press hcue flags) hrest

theorem Remembers.drag (hremembers : g.Remembers history)
    (hmove : ∀ cue ∈ cues, cue.action = .move) (flags : UInt32) :
    (g.drag flags cues).2.Remembers (history ++ cues) := by
  rw [drag_snd]
  generalize (0 : UInt32) = buttons
  induction cues generalizing g history buttons with
  | nil => exact (List.append_nil history).symm ▸ hremembers
  | cons cue rest ih =>
    obtain ⟨hcue, hrest⟩ := List.forall_mem_cons.1 hmove
    rw [List.append_cons]
    exact ih (hremembers.move hcue buttons) hrest (follow (buttons, g.live) cue).1

theorem Remembers.liftAll (hremembers : g.Remembers history)
    (hup : ∀ cue ∈ cues, cue.action = .up) (flags : UInt32) :
    (g.liftAll flags cues).2.Remembers (history ++ cues) := by
  induction cues generalizing g history with
  | nil => exact (List.append_nil history).symm ▸ hremembers
  | cons cue rest ih =>
    obtain ⟨hcue, hrest⟩ := List.forall_mem_cons.1 hup
    rw [List.append_cons]
    exact ih (hremembers.lift hcue flags) hrest

theorem Remembers.pressed (hremembers : g.Remembers history) (flags : UInt32)
    (cues : List MotionCue) : (g.pressed flags cues).Remembers (history ++ having .down cues) :=
  hremembers.pressAll (fun _ ↦ action_of_mem_having) flags

theorem Remembers.dragged (hremembers : g.Remembers history) (flags : UInt32)
    (cues : List MotionCue) :
    (g.dragged flags cues).Remembers (history ++ having .down cues ++ having .move cues) :=
  (hremembers.pressed flags cues).drag (fun _ ↦ action_of_mem_having) flags

/-- A gesture that agrees with a history goes on to do so with the cues of one more tick. -/
theorem Remembers.replay (hremembers : g.Remembers history) (flags : UInt32)
    (cues : List MotionCue) : (g.replay flags cues).2.Remembers (history ++ touching cues) := by
  rw [touching, ← List.append_assoc, ← List.append_assoc]
  exact (hremembers.dragged flags cues).liftAll (fun _ ↦ action_of_mem_having) flags

/-- An event that lists the table lists what is down. -/
theorem Remembers.surveys (hremembers : g.Remembers history) {e : MotionEvent}
    (hpointers : e.pointers = g.live) : e.Surveys history := by
  refine ⟨hpointers ▸ pairwise_keys.2 hremembers.ascending, fun pointer position ↦ ?_⟩
  rw [hpointers, ← hremembers.find? pointer]
  exact ⟨Table.find?_of_mem hremembers.ascending, Table.mem_of_find?⟩

theorem Remembers.live_ne_nil_iff (hremembers : g.Remembers history) :
    g.live ≠ [] ↔ ∃ pointer, IsDown pointer history := by
  rw [Ne, ← Table.keys_eq_nil_iff, List.eq_nil_iff_forall_not_mem, not_forall]
  exact exists_congr fun pointer ↦ not_not.trans (hremembers.mem_keys_iff pointer)

/-- Moves are told by one event if any pointer is down, and otherwise by none. It lists the pointers that
are down where they stand after the moves. -/
theorem Remembers.exists_move (hremembers : g.Remembers history)
    (hmove : ∀ cue ∈ cues, cue.action = .move ∧ cue.tool = tool) (flags : UInt32) :
    ∃ move? : Option MotionEvent, (g.drag flags cues).1 = move?.map .motion ∧
      (move?.isSome = true ↔ cues ≠ [] ∧ ∃ pointer, IsDown pointer history) ∧
      ∀ e ∈ move?, e.tool = tool ∧ e.action = .move ∧ e.pointers ≠ [] ∧
        e.Surveys (history ++ cues) := by
  have hdragged := hremembers.drag (fun cue hcue ↦ (hmove cue hcue).1) flags
  rw [drag_snd] at hdragged
  rw [← hremembers.live_ne_nil_iff]
  cases cues with
  | nil => exact ⟨none, rfl, iff_of_false Bool.false_ne_true fun hsome ↦ hsome.1 rfl, by simp⟩
  | cons first rest =>
    have hempty : ((first :: rest).foldl follow (0, g.live)).2 = [] ↔ g.live = [] :=
      foldl_follow_eq_nil_iff (first :: rest) (0, g.live)
    unfold Gesture.drag
    dsimp only
    by_cases hlive : g.live = []
    · rw [if_pos (List.isEmpty_iff.2 (hempty.2 hlive))]
      exact ⟨none, rfl, iff_of_false Bool.false_ne_true fun hsome ↦ hsome.2 hlive, by simp⟩
    · have hsome := mt hempty.1 hlive
      rw [if_neg (mt List.isEmpty_iff.1 hsome)]
      refine ⟨some _, rfl, iff_of_true rfl ⟨List.cons_ne_nil _ _, hlive⟩, ?_⟩
      rintro e ⟨⟩
      exact ⟨(hmove first List.mem_cons_self).2, rfl, hsome, hdragged.surveys rfl⟩

end Gesture

namespace InputEvent

/-- Motions of a tool that do not hover are read as they are. -/
theorem touches_map_motion {tool : Tool} {events : List MotionEvent}
    (hevents : ∀ e ∈ events, e.tool = tool ∧ e.action.isHover = false) :
    touches tool (events.map .motion) = events := by
  induction events with
  | nil => rfl
  | cons e rest ih =>
    obtain ⟨hfirst, hrest⟩ := List.forall_mem_cons.1 hevents
    have htouch : touches tool [.motion e] = [e] := List.filterMap_cons_some (if_pos hfirst)
    rw [List.map_cons, touches_cons, ih hrest, htouch]
    rfl

theorem mem_touches_iff {tool : Tool} {events : List InputEvent} {e : MotionEvent} :
    e ∈ touches tool events ↔
      InputEvent.motion e ∈ events ∧ e.tool = tool ∧ e.action.isHover = false := by
  rw [touches, List.mem_filterMap]
  constructor
  · rintro ⟨event, hevent, htouch⟩
    cases event with
    | key => cases htouch
    | motion other =>
      obtain ⟨hkind, hsame⟩ := Option.ite_none_right_eq_some.1 htouch
      obtain rfl := Option.some.inj hsame
      exact ⟨hevent, hkind⟩
  · rintro ⟨hevent, hkind⟩
    exact ⟨_, hevent, if_pos hkind⟩

end InputEvent

theorem MotionEvent.Lists.pointers_ne_nil {e : MotionEvent} {cue : MotionCue}
    (hlists : e.Lists cue) : e.pointers ≠ [] :=
  List.ne_nil_of_mem hlists.pointer

namespace MotionCue

/-- Assumes: the cues of a tool that are replayed before a tick, and its cues at the tick. What is told of
them, hovers aside: every down one press, all moves together one move if any pointer is down, and
every up one lift as long as downs are open. A press and a lift list the pointer of their cue where the
cue puts it, and the move lists all pointers that are down where they stand. -/
structure TouchedBy (history cues : List MotionCue) (presses : List MotionEvent)
    (move? : Option MotionEvent) (lifts : List MotionEvent) : Prop where
  presses : List.Forall₂ (fun cue e ↦ e.Lists cue ∧ e.action.isPress = true) (having .down cues)
    presses
  isSome_move : move?.isSome = true ↔
    having .move cues ≠ [] ∧ ∃ pointer, IsDown pointer (history ++ having .down cues)
  move : ∀ e ∈ move?, e.action = .move ∧ e.pointers ≠ [] ∧
    e.Surveys (history ++ having .down cues ++ having .move cues)
  lifts : List.Forall₂ (fun cue e ↦ e.Lists cue ∧ e.action.isLift = true)
    ((having .up cues).take (openDowns (contacts (history ++ having .down cues)))) lifts

/-- Whatever is told lists some pointers, in increasing order. -/
theorem TouchedBy.ascending {history cues : List MotionCue} {presses lifts : List MotionEvent}
    {move? : Option MotionEvent} (htouched : TouchedBy history cues presses move? lifts) :
    ∀ e ∈ presses ++ move?.toList ++ lifts,
      e.pointers ≠ [] ∧ (e.pointers.map Prod.fst).Pairwise (· < ·) := by
  refine List.forall_mem_append.2 ⟨List.forall_mem_append.2 ⟨?_, ?_⟩, ?_⟩
  · intro e he
    obtain ⟨cue, -, hlists, -⟩ := exists_mem_left_of_forall₂ htouched.presses he
    exact ⟨hlists.pointers_ne_nil, hlists.ascending⟩
  · intro e he
    obtain ⟨-, hsome, hsurveys⟩ := htouched.move e (Option.mem_toList.1 he)
    exact ⟨hsome, hsurveys.ascending⟩
  · intro e he
    obtain ⟨cue, -, hlists, -⟩ := exists_mem_left_of_forall₂ htouched.lifts he
    exact ⟨hlists.pointers_ne_nil, hlists.ascending⟩

end MotionCue

namespace Gesture

open MotionCue

variable {g : Gesture} {tool : Tool} {history cues : List MotionCue}

/-- A gesture that agrees with a history tells the cues of one more tick. -/
theorem Remembers.exists_touchedBy (hremembers : g.Remembers history)
    (htool : ∀ cue ∈ cues, cue.tool = tool) (flags : UInt32) :
    ∃ presses move? lifts,
      InputEvent.touches tool (g.replay flags cues).1 = presses ++ move?.toList ++ lifts ∧
        TouchedBy history cues presses move? lifts := by
  have htools : ∀ action, ∀ cue ∈ having action cues, cue.tool = tool := fun _ cue hcue ↦
    htool cue (List.mem_filter.1 hcue).1
  have hpressed := hremembers.pressed flags cues
  obtain ⟨presses, hpresses, hdowns⟩ :=
    exists_presses hremembers.ascending flags (having .down cues)
  obtain ⟨move?, hmove, hsome, hsurveys⟩ := hpressed.exists_move
    (fun cue hcue ↦ ⟨action_of_mem_having hcue, htools .move cue hcue⟩) flags
  obtain ⟨lifts, hlifts, hups⟩ :=
    exists_lifts (hremembers.dragged flags cues).ascending flags (having .up cues)
  have hpress : InputEvent.touches tool (presses.map .motion) = presses := by
    refine InputEvent.touches_map_motion fun e he ↦ ?_
    obtain ⟨cue, hcue, hlists, haction⟩ := exists_mem_left_of_forall₂ hdowns he
    exact ⟨hlists.tool.trans (htools .down cue hcue), MotionAction.isHover_of_isPress haction⟩
  have hlift : InputEvent.touches tool (lifts.map .motion) = lifts := by
    refine InputEvent.touches_map_motion fun e he ↦ ?_
    obtain ⟨cue, hcue, hlists, haction⟩ := exists_mem_left_of_forall₂ hups he
    exact ⟨hlists.tool.trans (htools .up cue (List.mem_of_mem_take hcue)),
      MotionAction.isHover_of_isLift haction⟩
  have hdrag : InputEvent.touches tool (move?.toList.map .motion) = move?.toList := by
    refine InputEvent.touches_map_motion fun e he ↦ ?_
    obtain ⟨htool, haction, -⟩ := hsurveys e (Option.mem_toList.1 he)
    rw [haction]
    exact ⟨htool, rfl⟩
  rw [balance_dragged, ← hpressed.openDowns] at hups
  refine ⟨presses, move?, lifts, ?_, hdowns, hsome, fun e he ↦ (hsurveys e he).2, hups⟩
  rw [touches_replay, hpresses, hpress, hmove, Option.toList_map, hdrag, hlifts, hlift]

end Gesture

namespace Timeline

open MotionCue

variable (t : Timeline) (tool : Tool)

/-- The cues of a tool that do not hover, up to a tick. -/
def touchingBefore (tick : Tick) : List MotionCue :=
  (List.range tick).flatMap fun earlier ↦ touching (t.motionsAt tool earlier)

theorem remembers_gestureBefore (tick : Tick) :
    (t.gestureBefore tool tick).Remembers (t.touchingBefore tool tick) := by
  induction tick with
  | zero =>
    rw [gestureBefore_zero]
    exact Gesture.remembers_start
  | succ tick ih =>
    rw [gestureBefore_succ, touchingBefore, List.range_succ, List.flatMap_append,
      List.flatMap_singleton]
    exact ih.replay (t.flagsAt tick) (t.motionsAt tool tick)

/-- Any timeline, also one that no sources compile to, is handed over tick by tick, whether the time is
kept or not. Every event that does not hover lists some pointers, in increasing order. For a tool and a
tick these are a press for each down, a move if there are moves and pointers that are down, and a lift
for each up as long as downs are open. A press or a lift lists the pointer of its cue where the cue
puts it, at the place that the action names, if it names one. A move lists exactly the pointers that are
down, each where its last down or move puts it. -/
theorem listed_of_dispatch {σ : Type} (device : Device σ) (pacing : Bool) (memory : σ) :
    (device.answers pacing memory t).map Prod.fst = t.ticks.flatMap t.eventsAt ∧
      (∀ tick, ∀ e : MotionEvent, .motion e ∈ t.eventsAt tick → e.action.isHover = false →
        e.pointers ≠ [] ∧ (e.pointers.map Prod.fst).Pairwise (· < ·)) ∧
      ∀ tool tick, ∃ presses move? lifts,
        InputEvent.touches tool (t.eventsAt tick) = presses ++ move?.toList ++ lifts ∧
          TouchedBy (t.touchingBefore tool tick) (t.motionsAt tool tick) presses move? lifts := by
  have htold := fun tool tick ↦ (t.remembers_gestureBefore tool tick).exists_touchedBy
    (t.tool_motionsAt tool tick) (t.flagsAt tick)
  simp only [← touchesAt_eq] at htold
  refine ⟨?_, fun tick e he hhover ↦ ?_, htold⟩
  · rw [device.map_fst_answers, filterMap_signals]
  · obtain ⟨presses, move?, lifts, htouches, htouched⟩ := htold e.tool tick
    have hmem : e ∈ t.touchesAt e.tool tick := InputEvent.mem_touches_iff.2 ⟨he, rfl, hhover⟩
    rw [htouches] at hmem
    exact htouched.ascending e hmem

end Timeline

end ActionReplay
