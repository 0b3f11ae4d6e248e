import ActionReplay.Proofs.Replay.Live
import ActionReplay.Proofs.Replay.SinglePointer
import ActionReplay.Proofs.Timeline.Apart

/-!
# When a gesture began

Every motion event carries the tick at which its gesture began. Of pointers that are apart one at
most is down at a time, so that a gesture is a hold, and all its events should carry the tick of its
down (`MotionEvent.Dated`). Downs and ups do: a down enters a chain, and an up belongs to the chain
of the down that it ends. The event of some moves however is dated by the first of them, even if it
is a move of a pointer that is up, or one that is made before the down or after the up, at the same
tick. The events of a tool are dated well exactly if no source of the tool goes up and down again at
one tick, and whenever the tool moves in a hold, the first of the moves belongs to the chain that
the hold began (`Timeline.dated_iff_of_compile`).
-/

set_option autoImplicit false
set_option relaxedAutoImplicit false

namespace ActionReplay

open MotionCue

/-! ### Dates -/

namespace MotionEvent

/-- Events, each with the tick at which it is told, of a pointer that is down since a tick or up. A
down is dated by its own tick, and every event after it by the same one, up to the next up. -/
def Dated : Option Tick → List (Tick × MotionEvent) → Prop
  | _, [] => True
  | since, (tick, e) :: rest =>
    match e.action with
    | .down => e.downTick = tick ∧ Dated (some tick) rest
    | .up => since = some e.downTick ∧ Dated none rest
    | _ => since = some e.downTick ∧ Dated since rest

variable {since : Option Tick} {tick : Tick} {e : MotionEvent} {rest : List (Tick × MotionEvent)}

theorem dated_down (haction : e.action = .down) :
    Dated since ((tick, e) :: rest) ↔ e.downTick = tick ∧ Dated (some tick) rest := by
  simp only [Dated, haction]

theorem dated_up (haction : e.action = .up) :
    Dated since ((tick, e) :: rest) ↔ since = some e.downTick ∧ Dated none rest := by
  simp only [Dated, haction]

theorem dated_of_ne (hdown : e.action ≠ .down) (hup : e.action ≠ .up) :
    Dated since ((tick, e) :: rest) ↔ since = some e.downTick ∧ Dated since rest := by
  rw [Dated]
  split
  · exact absurd ‹_› hdown
  · exact absurd ‹_› hup
  · exact Iff.rfl

instance decidableDated :
    (since : Option Tick) → (events : List (Tick × MotionEvent)) → Decidable (Dated since events)
  | _, [] => inferInstanceAs (Decidable True)
  | since, (tick, e) :: rest =>
    have := decidableDated (some tick) rest
    have := decidableDated none rest
    have := decidableDated since rest
    if hdown : e.action = .down then decidable_of_iff' _ (dated_down hdown)
    else if hup : e.action = .up then decidable_of_iff' _ (dated_up hup)
    else decidable_of_iff' _ (dated_of_ne hdown hup)

theorem dated_moves {moves : List MotionEvent} (hmove : ∀ e ∈ moves, e.action = .move) :
    Dated since (moves.map (Prod.mk tick) ++ rest) ↔
      (∀ e ∈ moves, since = some e.downTick) ∧ Dated since rest := by
  induction moves with
  | nil => simp
  | cons e moves ih =>
    obtain ⟨hfirst, hothers⟩ := List.forall_mem_cons.1 hmove
    rw [List.map_cons, List.cons_append,
      dated_of_ne (hfirst ▸ MotionAction.noConfusion) (hfirst ▸ MotionAction.noConfusion),
      ih hothers, List.forall_mem_cons, and_assoc]

/-- Events that are dated by the chains of some cues. -/
theorem forall_downTick {events : List MotionEvent} {cues : List MotionCue}
    (hdates : events.map MotionEvent.downTick = cues.map MotionCue.entry) {P : Tick → Prop}
    (hall : ∀ cue ∈ cues, P cue.entry) : ∀ e ∈ events, P e.downTick := by
  rw [← List.forall_mem_map, hdates, List.forall_mem_map]
  exact hall

end MotionEvent

/-! ### One pointer at a tick -/

namespace Contact

open MotionEvent

/-- Assumes: a turn of a pointer, and a round with a press for its down and a lift for its up, if it
has them, told while no other down is open. The press is dated by the tick and the lift by the hold
that it ends. The round is dated well exactly if the pointer does not go up and then down, and the
moves are dated by its hold: if it does, the press is told as that of a further pointer, and is dated
by its own tick. -/
theorem Turn.dated {tick : Tick} {held later : Bool} {here : List Contact} {k : Nat}
    {presses moves lifts : List MotionEvent} {since : Option Tick}
    (hturn : Turn tick held here later)
    (hround : Round (if held then 1 else 0) k (if later then 1 else 0) presses moves lifts)
    (hdowns : presses.length = if (⟨tick, true⟩ : Contact) ∈ here then 1 else 0)
    (hups : lifts.length = if (⟨tick, false⟩ : Contact) ∈ here then 1 else 0)
    (hheld : since.isSome = held) (hearlier : since ≠ some tick)
    (hpress : ∀ e ∈ presses, e.downTick = tick)
    (hlift : ∀ e ∈ lifts, since = some e.downTick ∨
      e.downTick = tick ∧ (⟨tick, true⟩ : Contact) ∈ here)
    (rest : List (Tick × MotionEvent)) :
    Dated since ((presses ++ moves ++ lifts).map (Prod.mk tick) ++ rest) ↔
      (here ≠ [⟨tick, false⟩, ⟨tick, true⟩] ∧
          ∀ e ∈ moves, since = some e.downTick ∨
            e.downTick = tick ∧ (⟨tick, true⟩ : Contact) ∈ here) ∧
        Dated (sinceAfter since here) rest := by
  obtain ⟨hpresses, -, hlifts, hdown, hmove, hup⟩ := hround
  rw [List.map_append, List.map_append, List.append_assoc, List.append_assoc]
  cases hturn with
  | rest =>
    obtain rfl := List.eq_nil_of_length_eq_zero hdowns
    obtain rfl := List.eq_nil_of_length_eq_zero hups
    simp only [List.map_nil, List.nil_append]
    rw [dated_moves hmove]
    simp [sinceAfter]
  | press =>
    obtain ⟨down, rfl⟩ := List.length_eq_one_iff.1 (hdowns.trans (if_pos List.mem_cons_self))
    obtain rfl := List.eq_nil_of_length_eq_zero (hups.trans (if_neg (by simp)))
    obtain ⟨-, hplain, -⟩ := hpresses.step.press (hdown down List.mem_cons_self)
    obtain rfl : since = none := by simpa using hheld
    have hdate : down.downTick = tick := hpress down List.mem_cons_self
    simp only [List.map_cons, List.map_nil, List.cons_append, List.nil_append]
    rw [dated_down (hplain.2 rfl), dated_moves hmove]
    simp [sinceAfter, hdate, eq_comm (a := tick)]
  | tap =>
    obtain ⟨down, rfl⟩ := List.length_eq_one_iff.1 (hdowns.trans (if_pos (by simp)))
    obtain ⟨up, rfl⟩ := List.length_eq_one_iff.1 (hups.trans (if_pos (by simp)))
    obtain ⟨-, hplain, -⟩ := hpresses.step.press (hdown down List.mem_cons_self)
    obtain ⟨-, -, hlast⟩ := hlifts.step.lift (hup up List.mem_cons_self)
    obtain rfl : since = none := by simpa using hheld
    have hdate : down.downTick = tick := hpress down List.mem_cons_self
    have hend : up.downTick = tick := by simpa using hlift up List.mem_cons_self
    simp only [List.map_cons, List.map_nil, List.cons_append, List.nil_append]
    rw [dated_down (hplain.2 rfl), dated_moves hmove, dated_up (hlast rfl)]
    simp [sinceAfter, hdate, hend, eq_comm (a := tick)]
  | lift =>
    obtain rfl := List.eq_nil_of_length_eq_zero (hdowns.trans (if_neg (by simp)))
    obtain ⟨up, rfl⟩ := List.length_eq_one_iff.1 (hups.trans (if_pos List.mem_cons_self))
    obtain ⟨-, -, hlast⟩ := hlifts.step.lift (hup up List.mem_cons_self)
    have hend : since = some up.downTick := by simpa using hlift up List.mem_cons_self
    simp only [List.map_cons, List.map_nil, List.cons_append, List.nil_append]
    rw [dated_moves hmove, dated_up (hlast rfl)]
    simp [sinceAfter, hend]
  | regrip =>
    obtain ⟨down, rfl⟩ := List.length_eq_one_iff.1 (hdowns.trans (if_pos (by simp)))
    obtain ⟨-, hplain, hnotUp⟩ := hpresses.step.press (hdown down List.mem_cons_self)
    have hnotDown : down.action ≠ .down := fun h ↦ one_ne_zero (hplain.1 h)
    refine iff_of_false ?_ fun hwell ↦ hwell.1.1 rfl
    simp only [List.map_cons, List.map_nil, List.cons_append, List.nil_append]
    rw [dated_of_ne hnotDown hnotUp, hpress down List.mem_cons_self]
    exact fun hdated ↦ hearlier hdated.1

/-! ### Pointers that are apart -/

variable {contacts : List Contact} {tick : Tick}

/-- Assumes: a round with a press for the down of a pointer, if it has one, told while no other down
is open. If moves are told, the pointer is in a hold. -/
theorem TakeTurns.exists_holdsFrom (hturns : TakeTurns contacts) {k n : Nat}
    {presses moves lifts : List MotionEvent}
    (hround : Round (if heldBefore contacts tick then 1 else 0) k n presses moves lifts)
    (hdowns : presses.length = if (⟨tick, true⟩ : Contact) ∈ during contacts tick then 1 else 0)
    (hmoves : moves ≠ []) : ∃ pressed, HoldsFrom contacts pressed tick := by
  simp only [hturns.holdsFrom_iff]
  cases hsince : sinceBefore contacts tick with
  | some pressed => exact ⟨pressed, .inl rfl⟩
  | none =>
    by_cases hdown : (⟨tick, true⟩ : Contact) ∈ during contacts tick
    · exact ⟨tick, .inr ⟨rfl, hdown⟩⟩
    · rw [if_neg hdown] at hdowns
      obtain rfl := List.eq_nil_of_length_eq_zero hdowns
      rw [← isSome_sinceBefore, hsince] at hround
      obtain ⟨first, others, rfl⟩ := List.exists_cons_of_ne_nil hmoves
      have hmove := hround.move first List.mem_cons_self
      cases hround.runPresses
      cases hround.runMoves with
      | cons hstep =>
        cases hstep with
        | move hopen => exact absurd hopen (lt_irrefl 0)
        | down haction => exact absurd (hmove.symm.trans haction) MotionAction.noConfusion
        | pointerDown hopen => exact absurd hopen (lt_irrefl 0)

/-- Assumes: a pointer that does not go up and then down at a tick. The tick is in one hold of the
pointer at most. -/
theorem TakeTurns.holdsFrom_unique (hturns : TakeTurns contacts)
    (hplain : during contacts tick ≠ [⟨tick, false⟩, ⟨tick, true⟩]) {first second : Tick}
    (hfirst : HoldsFrom contacts first tick) (hsecond : HoldsFrom contacts second tick) :
    first = second := by
  have hnot : (sinceBefore contacts tick).isSome →
      (⟨tick, true⟩ : Contact) ∉ during contacts tick := by
    rw [isSome_sinceBefore]
    have hturn := hturns.turn tick
    generalize heldBefore contacts tick = held, during contacts tick = here,
      heldBefore contacts (tick + 1) = later at hturn hplain ⊢
    cases hturn with
    | rest => simp
    | press => simp
    | tap => simp
    | lift => simp
    | regrip => exact absurd rfl hplain
  rw [hturns.holdsFrom_iff] at hfirst hsecond
  rcases hfirst with hfirst | ⟨rfl, hfirst⟩
  · rcases hsecond with hsecond | ⟨rfl, hsecond⟩
    · exact Option.some.inj (hfirst.symm.trans hsecond)
    · exact absurd hsecond (hnot (hfirst ▸ rfl))
  · rcases hsecond with hsecond | ⟨rfl, hsecond⟩
    · exact absurd hfirst (hnot (hsecond ▸ rfl))
    · rfl

/-- A pointer that is not regripped before a tick, and does not go up and then down at it, is not
regripped after it. -/
theorem TakeTurns.not_regrippedBefore_succ (hturns : TakeTurns contacts)
    (hgrip : ¬RegrippedBefore contacts tick)
    (hplain : during contacts tick ≠ [⟨tick, false⟩, ⟨tick, true⟩]) :
    ¬RegrippedBefore contacts (tick + 1) := by
  have hturn := hturns.turn tick
  have hlast := hturns.getLast?_before_succ tick
  have hmem := mem_iff_mem_during contacts tick
  unfold RegrippedBefore at hgrip ⊢
  rw [hlast]
  generalize heldBefore contacts tick = held, hhere : during contacts tick = here,
    heldBefore contacts (tick + 1) = later at hturn hmem hplain ⊢
  cases hturn with
  | rest => simpa using hgrip
  | press => simp [hmem]
  | tap => simp
  | lift => simp
  | regrip => exact absurd rfl hplain

/-- Since when some pointer is down before a tick, if any is. -/
def AnySince (pointers : Nat → List Contact) (tick : Tick) (since : Option Tick) : Prop :=
  ∀ pressed, since = some pressed ↔ ∃ p, sinceBefore (pointers p) tick = some pressed

variable {pointers : Nat → List Contact} {p : Nat}

theorem anySince_zero : AnySince pointers 0 none := by
  intro pressed
  simp [sinceBefore, before_eq_nil, sinceAfter]

/-- Assumes: no pointer but one is down before a tick. -/
theorem anySince_iff (hothers : ∀ q, q ≠ p → sinceBefore (pointers q) tick = none)
    {since : Option Tick} :
    AnySince pointers tick since ↔ since = sinceBefore (pointers p) tick := by
  have honly : ∀ pressed, (∃ q, sinceBefore (pointers q) tick = some pressed) ↔
      sinceBefore (pointers p) tick = some pressed := by
    refine fun pressed ↦ ⟨fun ⟨q, hq⟩ ↦ ?_, fun hp ↦ ⟨p, hp⟩⟩
    by_cases hsame : q = p
    · exact hsame ▸ hq
    · rw [hothers q hsame] at hq
      cases hq
  unfold AnySince
  simp only [honly]
  exact Option.ext_iff.symm

end Contact

/-! ### A tool at a tick -/

namespace Timeline

variable {t : Timeline} {count : Nat} {contacts : Tool → Nat → List Contact}

/-- Downs and ups belong to the chains of the downs that begin their holds. -/
structure Enters (t : Timeline) (contacts : Tool → Nat → List Contact) : Prop where
  down : ∀ tool tick, ∀ cue ∈ having .down (t.motionsAt tool tick), cue.entry = tick
  up : ∀ tool tick, ∀ cue ∈ having .up (t.motionsAt tool tick),
    Contact.HoldsFrom (contacts tool cue.pointer) cue.entry tick

/-- At a tick no pointer goes up and down again, and if the tick is in a hold, the first move of the
tool belongs to the chain that the hold began. -/
structure DatesWell (t : Timeline) (tool : Tool) (pointers : Nat → List Contact) (tick : Tick) :
    Prop where
  plain : ∀ p, Contact.during (pointers p) tick ≠ [⟨tick, false⟩, ⟨tick, true⟩]
  moves : ∀ p pressed, Contact.HoldsFrom (pointers p) pressed tick →
    ∀ first ∈ (having .move (t.motionsAt tool tick)).head?, first.entry = pressed

namespace Shows

variable {tool : Tool} {tick : Tick} {p : Nat}

/-- Assumes: pointers all of which but one are idle at a tick, and that one is not regripped before
it. The moves that are told at the tick are dated by the hold of that pointer exactly if the first
of them belongs to its chain: in a hold the pointer is down, so that the moves are told. -/
theorem datesWell_iff_of_idle (hshows : t.Shows count contacts)
    (hidle : ∀ q, q ≠ p → Contact.Idle (contacts tool q) tick)
    (hgrip : ¬Contact.RegrippedBefore (contacts tool p) tick) {moves : List MotionEvent}
    (hmoves : having .move (t.motionsAt tool tick) ≠ [] →
      Contact.GrippedBefore (contacts tool p) tick ∨
        (⟨tick, true⟩ : Contact) ∈ contacts tool p → moves ≠ [])
    (hholds : moves ≠ [] → ∃ pressed, Contact.HoldsFrom (contacts tool p) pressed tick)
    (hdates : ∀ e ∈ moves,
      (having .move (t.motionsAt tool tick)).head?.map MotionCue.entry = some e.downTick) :
    t.DatesWell tool (contacts tool) tick ↔
      Contact.during (contacts tool p) tick ≠ [⟨tick, false⟩, ⟨tick, true⟩] ∧
        ∀ e ∈ moves, Contact.HoldsFrom (contacts tool p) e.downTick tick := by
  have hturns := hshows.turns tool
  constructor
  · intro hwell
    refine ⟨hwell.plain p, fun e he ↦ ?_⟩
    obtain ⟨pressed, hpressed⟩ := hholds (List.ne_nil_of_mem he)
    obtain ⟨first, hfirst, hentry⟩ := Option.map_eq_some_iff.1 (hdates e he)
    rw [← hentry, hwell.moves p pressed hpressed first hfirst]
    exact hpressed
  · rintro ⟨hplain, hmove⟩
    refine ⟨fun q ↦ ?_, fun q pressed hpressed first hfirst ↦ ?_⟩
    · by_cases hsame : q = p
      · rwa [hsame]
      · rw [(hidle q hsame).during]
        exact (List.cons_ne_nil _ _).symm
    · obtain rfl : q = p := by
        by_contra hne
        exact (hidle q hne).not_holdsFrom (hturns q) hpressed
      have hdown : Contact.GrippedBefore (contacts tool q) tick ∨
          (⟨tick, true⟩ : Contact) ∈ contacts tool q := by
        rcases (hturns q).holdsFrom_iff.1 hpressed with hsince | ⟨-, hmem⟩
        · refine .inl ⟨?_, hgrip⟩
          rw [← Contact.isSome_sinceBefore, hsince]
          rfl
        · exact .inr ((Contact.mem_iff_mem_during _ _ _).2 hmem)
      have hsome := List.ne_nil_of_mem (List.mem_of_mem_head? hfirst)
      obtain ⟨e, he⟩ := List.exists_mem_of_ne_nil _ (hmoves hsome hdown)
      have hentry := hdates e he
      rw [Option.mem_def.1 hfirst] at hentry
      rw [Option.some.inj hentry]
      exact (hturns q).holdsFrom_unique hplain (hmove e he) hpressed

/-- Assumes: pointers all of which but one are idle at a tick, and that one is not regripped before
it. The events of the tick are dated well exactly if the pointer does not go up and down again at
the tick, and the first move belongs to its chain. -/
theorem dated_touchesAt_of_idle (hshows : t.Shows count contacts) (henters : t.Enters contacts)
    (hidle : ∀ q, q ≠ p → Contact.Idle (contacts tool q) tick)
    (hgrip : ¬Contact.RegrippedBefore (contacts tool p) tick) (rest : List (Tick × MotionEvent)) :
    MotionEvent.Dated (Contact.sinceBefore (contacts tool p) tick)
        ((t.touchesAt tool tick).map (Prod.mk tick) ++ rest) ↔
      t.DatesWell tool (contacts tool) tick ∧
        MotionEvent.Dated (Contact.sinceBefore (contacts tool p) (tick + 1)) rest := by
  have hturns := hshows.turns tool
  obtain ⟨presses, moves, lifts, k, htouches, hround, hdowns, hups, hmoves, hdates⟩ :=
    hshows.exists_round tool tick
  have hbalance := hshows.balance_gestureBefore_of_others fun q hq ↦ (hidle q hq).heldBefore
  have hlater : ∀ q, q ≠ p → Contact.heldBefore (contacts tool q) (tick + 1) = false :=
    fun q hq ↦ (hidle q hq).heldBefore_succ (hturns q)
  have hnext := hshows.balance_gestureBefore_of_others hlater
  rw [hbalance, hnext] at hround
  have hdown := hshows.length_having_of_others fun q hq ↦ (hidle q hq).not_mem true
  have hup := hshows.length_having_of_others fun q hq ↦ (hidle q hq).not_mem false
  simp only [Contact.mem_iff_mem_during (contacts tool p)] at hdown hup
  have hpress : ∀ e ∈ presses, e.downTick = tick :=
    MotionEvent.forall_downTick (P := fun entry ↦ entry = tick) hdates.presses
      (henters.down tool tick)
  have hlift : ∀ e ∈ lifts, Contact.HoldsFrom (contacts tool p) e.downTick tick := by
    refine MotionEvent.forall_downTick (P := fun entry ↦
      Contact.HoldsFrom (contacts tool p) entry tick) hdates.lifts fun cue hcue ↦ ?_
    have hholds := henters.up tool tick cue hcue
    have hours : cue.pointer = p := by
      by_contra hne
      exact (hidle _ hne).not_holdsFrom (hturns _) hholds
    rwa [hours] at hholds
  have hearlier : Contact.sinceBefore (contacts tool p) tick ≠ some tick := fun hsince ↦
    lt_irrefl tick (Contact.lt_of_sinceBefore hsince)
  have hdated := ((hturns p).turn tick).dated hround (hdowns.trans hdown) (hups.trans hup)
    (Contact.isSome_sinceBefore _ _) hearlier hpress
    (fun e he ↦ (hturns p).holdsFrom_iff.1 (hlift e he)) rest
  simp only [← (hturns p).holdsFrom_iff] at hdated
  have htold : having .move (t.motionsAt tool tick) ≠ [] →
      Contact.GrippedBefore (contacts tool p) tick ∨
        (⟨tick, true⟩ : Contact) ∈ contacts tool p → moves ≠ [] := by
    intro hsome hgripped
    obtain ⟨e, he, -⟩ := (hmoves hsome p).2 hgripped
    exact List.ne_nil_of_mem he
  have hwell := hshows.datesWell_iff_of_idle hidle hgrip htold
    ((hturns p).exists_holdsFrom hround (hdowns.trans hdown)) hdates.moves
  rw [htouches, hdated, (hturns p).sinceBefore_succ, hwell]

/-! ### A tool at all ticks -/

/-- Assumes: pointers that are apart. Unless one of them is regripped before a tick, the events of
the tick are dated well exactly if its downs, its ups and its first move allow it. -/
theorem exists_dated_touchesAt (hshows : t.Shows count contacts) (henters : t.Enters contacts)
    (hapart : ∀ p q, p ≠ q → Contact.Apart (contacts tool p) (contacts tool q))
    {since : Option Tick} (hsince : Contact.AnySince (contacts tool) tick since) :
    ∃ next, Contact.AnySince (contacts tool) (tick + 1) next ∧
      ((∀ p, ¬Contact.RegrippedBefore (contacts tool p) tick) → ∀ rest,
        (MotionEvent.Dated since ((t.touchesAt tool tick).map (Prod.mk tick) ++ rest) ↔
          t.DatesWell tool (contacts tool) tick ∧ MotionEvent.Dated next rest)) := by
  have hturns := hshows.turns tool
  obtain ⟨p, hidle⟩ := Contact.exists_only hturns hapart tick
  obtain rfl := (Contact.anySince_iff fun q hq ↦ (hidle q hq).since).1 hsince
  refine ⟨_, (Contact.anySince_iff fun q hq ↦ (hidle q hq).sinceBefore_succ (hturns q)).2 rfl, ?_⟩
  exact fun hgrip ↦ hshows.dated_touchesAt_of_idle henters hidle (hgrip p)

theorem not_regrippedBefore (hshows : t.Shows count contacts) {last : Tick}
    (hwell : ∀ tick < last, t.DatesWell tool (contacts tool) tick) (p : Nat) :
    ¬Contact.RegrippedBefore (contacts tool p) last := by
  induction last with
  | zero =>
    rintro ⟨pressed, hlast, -⟩
    rw [Contact.before_eq_nil] at hlast
    cases hlast
  | succ last ih =>
    have hgrip := ih fun tick htick ↦ hwell tick (Nat.lt_succ_of_lt htick)
    exact (hshows.turns tool p).not_regrippedBefore_succ hgrip
      ((hwell last (Nat.lt_succ_self last)).plain p)

/-- Assumes: pointers that are apart. The events before a tick are dated well exactly if the downs,
the ups and the first moves of all these ticks allow it. -/
theorem exists_dated_flatMap (hshows : t.Shows count contacts) (henters : t.Enters contacts)
    (hapart : ∀ p q, p ≠ q → Contact.Apart (contacts tool p) (contacts tool q)) (last : Tick) :
    ∃ since, Contact.AnySince (contacts tool) last since ∧
      ∀ rest, MotionEvent.Dated none ((List.range last).flatMap
          (fun tick ↦ (t.touchesAt tool tick).map (Prod.mk tick)) ++ rest) ↔
        (∀ tick < last, t.DatesWell tool (contacts tool) tick) ∧ MotionEvent.Dated since rest := by
  induction last with
  | zero => exact ⟨none, Contact.anySince_zero, fun rest ↦ by simp⟩
  | succ last ih =>
    obtain ⟨since, hsince, hdated⟩ := ih
    obtain ⟨next, hnext, hstep⟩ := hshows.exists_dated_touchesAt henters hapart hsince
    refine ⟨next, hnext, fun rest ↦ ?_⟩
    rw [List.range_succ, List.flatMap_append, List.flatMap_singleton, List.append_assoc, hdated,
      Nat.forall_lt_succ_right, and_assoc]
    exact and_congr_right fun hwell ↦ hstep (hshows.not_regrippedBefore hwell) rest

end Shows

/-- The events of a tool that touch, each with the tick at which it is sent. -/
def timedTouches (t : Timeline) (tool : Tool) : List (Tick × MotionEvent) :=
  t.signalsByTick.flatMap fun (tick, signals) ↦
    (InputEvent.touches tool (signals.filterMap Signal.event?)).map (Prod.mk tick)

theorem map_snd_timedTouches (t : Timeline) (tool : Tool) :
    (t.timedTouches tool).map Prod.snd = t.touches tool := by
  unfold timedTouches touches signals InputEvent.touches
  rw [List.map_flatMap, List.filterMap_flatMap, List.filterMap_flatMap]
  refine List.flatMap_congr fun entry _ ↦ ?_
  rw [List.map_map]
  exact List.map_id _

theorem timedTouches_eq (t : Timeline) (tool : Tool) {bound : Nat}
    (hbound : ∀ tick ∈ t.ticks, tick < bound) :
    t.timedTouches tool =
      (List.range bound).flatMap fun tick ↦ (t.touchesAt tool tick).map (Prod.mk tick) := by
  rw [timedTouches, signalsByTick_eq, List.flatMap_map]
  refine flatMap_ticks (fun tick htick ↦ ?_) hbound
  rw [signalsAt_eq_nil htick]
  rfl

/-- Assumes: pointers that are apart. The events of a tool are dated well exactly if the downs, the
ups and the first moves of all ticks allow it. -/
theorem Shows.dated_timedTouches_iff (hshows : t.Shows count contacts)
    (henters : t.Enters contacts) (tool : Tool)
    (hapart : ∀ p q, p ≠ q → Contact.Apart (contacts tool p) (contacts tool q)) :
    MotionEvent.Dated none (t.timedTouches tool) ↔
      ∀ tick, t.DatesWell tool (contacts tool) tick := by
  have hdated : ∀ bound : Nat, (∀ tick ∈ t.ticks, tick < bound) →
      (MotionEvent.Dated none (t.timedTouches tool) ↔
        ∀ tick < bound, t.DatesWell tool (contacts tool) tick) := by
    intro bound hbound
    obtain ⟨since, -, hiff⟩ := hshows.exists_dated_flatMap henters hapart bound
    rw [t.timedTouches_eq tool hbound, ← List.append_nil (List.flatMap _ _), hiff]
    exact and_iff_left trivial
  obtain ⟨last, hlast⟩ := exists_bound t.ticks
  constructor
  · intro hwell tick
    refine (hdated (max last (tick + 1)) fun reached hreached ↦ ?_).1 hwell tick ?_
    · exact lt_max_of_lt_left (hlast reached hreached)
    · exact lt_max_of_lt_right (Nat.lt_succ_self tick)
  · exact fun hall ↦ (hdated last hlast).2 fun tick _ ↦ hall tick

end Timeline

/-! ### Payloads -/

namespace Timeline

variable {locate : Locator} {sources : List Source} {t : Timeline}

theorem motion_mem_cuesAt {tool : Tool} {tick : Tick} {action : CueAction} {cue : MotionCue}
    (hcue : cue ∈ having action (t.motionsAt tool tick)) :
    .motion cue ∈ t.cuesAt tick ∧ cue.tool = tool ∧ cue.action = action := by
  obtain ⟨hmotion, haction⟩ := List.mem_filter.1 hcue
  obtain ⟨hmem, htool⟩ := List.mem_filter.1 hmotion
  obtain ⟨booked, hbooked, hsome⟩ := List.mem_filterMap.1 hmem
  cases booked with
  | key booked => cases hsome
  | motion booked =>
    obtain rfl := Option.some.inj hsome
    exact ⟨hbooked, of_decide_eq_true htool, of_decide_eq_true haction⟩

/-- Assumes: pointer sources that are apart. Their downs and ups belong to the chains of the downs
that begin their holds. -/
theorem enters_of_ofSources (ht : ofSources locate sources = .ok t)
    (hapart : Source.Apart sources) : t.Enters (Source.contactsOf sources) := by
  refine ⟨fun tool tick cue hcue ↦ ?_, fun tool tick cue hcue ↦ ?_⟩
  · obtain ⟨hmem, -, haction⟩ := motion_mem_cuesAt hcue
    obtain ⟨s, -, -, before, item, later, -, hmade⟩ :=
      exists_makes_of_mem_cuesAt ht hapart hmem (haction ▸ rfl)
    rw [hmade.entry, if_pos haction]
  · obtain ⟨hmem, htool, haction⟩ := motion_mem_cuesAt hcue
    obtain ⟨s, hs, hsource, hmakes⟩ :=
      exists_makes_of_mem_cuesAt ht hapart hmem (haction ▸ rfl)
    have hcontacts : Source.contactsOf sources tool cue.pointer = s.contacts := by
      rw [Source.contactsOf, hs]
      exact if_pos (hsource.symm.trans htool)
    have hturns := (shows_of_ofSources ht).turns tool cue.pointer
    rw [hcontacts] at hturns ⊢
    exact hmakes.holdsFrom haction hturns.alternate

theorem apart_contactsOf (hapart : Source.Apart sources) (tool : Tool) {p q : Nat} (hne : p ≠ q) :
    Contact.Apart (Source.contactsOf sources tool p) (Source.contactsOf sources tool q) := by
  intro pressed other tick hp hq
  have hsources := fun since ↦ Source.contactsOf_iff sources
    (P := fun contacts ↦ Contact.HoldsFrom contacts since tick) Contact.not_holdsFrom_nil tool
  obtain ⟨s, hs, -, hsource⟩ := (hsources pressed p).1 hp
  obtain ⟨r, hr, -, hother⟩ := (hsources other q).1 hq
  obtain ⟨hpast, rfl⟩ := List.getElem?_eq_some_iff.1 hs
  obtain ⟨hlast, rfl⟩ := List.getElem?_eq_some_iff.1 hr
  have hpairs := List.pairwise_iff_getElem.1 hapart
  rcases lt_or_gt_of_ne hne with hlt | hgt
  · exact hpairs p q hpast hlast hlt _ _ _ hsource hother
  · exact hpairs q p hlast hpast hgt _ _ _ hother hsource

/-- What a source needs at all ticks for its events to be dated well. -/
theorem forall_datesWell_iff (ht : ofSources locate sources = .ok t) (tool : Tool) :
    (∀ tick, t.DatesWell tool (Source.contactsOf sources tool) tick) ↔
      ∀ s ∈ Source.ofKind sources .pointer, s.tool = tool →
        ¬Contact.Regrips s.contacts ∧ ∀ pressed tick, Contact.HoldsFrom s.contacts pressed tick →
          ∀ first ∈ (having .move (t.motionsAt tool tick)).head?, first.entry = pressed := by
  have hturns := (shows_of_ofSources ht).turns tool
  have hnone : ¬Contact.Regrips [] ∧ ∀ pressed tick, Contact.HoldsFrom [] pressed tick →
      ∀ first ∈ (having .move (t.motionsAt tool tick)).head?, first.entry = pressed := by
    refine ⟨?_, fun pressed tick hholds ↦ absurd hholds Contact.not_holdsFrom_nil⟩
    rintro ⟨tick, hsublist⟩
    exact absurd hsublist.length_le (by simp)
  rw [← Source.forall_contactsOf_iff sources (P := fun contacts ↦ ¬Contact.Regrips contacts ∧
    ∀ pressed tick, Contact.HoldsFrom contacts pressed tick →
      ∀ first ∈ (having .move (t.motionsAt tool tick)).head?, first.entry = pressed) hnone]
  simp only [(hturns _).regrips_iff, not_exists]
  constructor
  · exact fun hall p ↦ ⟨fun tick ↦ (hall tick).plain p,
      fun pressed tick ↦ (hall tick).moves p pressed⟩
  · exact fun hall tick ↦ ⟨fun p ↦ (hall p).1 tick, fun p pressed ↦ (hall p).2 pressed tick⟩

/-- Assumes: a payload that compiles, and pointer sources no two of which are down at one tick. Any
device is handed the events of one tick after another. Those of a tool that touch are dated by the downs that begin their holds if and only if no pointer source of
the tool goes up and down again at one tick, and at every tick of a hold the first move of the tool,
if there is any, belongs to the chain that the hold began. A move belongs to the chain that the last
contact before its item entered, in its own source. -/
theorem dated_iff_of_compile {actions : Json} (ht : compile locate actions = .ok t)
    (hread : (Source.readAll actions >>= Source.accept) = .ok sources)
    (hapart : Source.Apart sources) (tool : Tool) :
    (∀ (σ : Type) (device : Device σ) (pacing : Bool) (memory : σ),
      (device.answers pacing memory t).map Prod.fst =
          t.signalsByTick.flatMap (fun entry ↦ entry.2.filterMap Signal.event?) ∧
        InputEvent.touches tool ((device.answers pacing memory t).map Prod.fst) =
          (t.timedTouches tool).map Prod.snd) ∧
      (MotionEvent.Dated none (t.timedTouches tool) ↔
        ∀ s ∈ Source.ofKind sources .pointer, s.tool = tool →
          ¬Contact.Regrips s.contacts ∧
            ∀ pressed tick, Contact.HoldsFrom s.contacts pressed tick →
              ∀ first ∈ (having .move (t.motionsAt tool tick)).head?, first.entry = pressed) ∧
      ∀ tick, ∀ cue ∈ having .move (t.motionsAt tool tick),
        ∃ s, (Source.ofKind sources .pointer)[cue.pointer]? = some s ∧ s.tool = tool ∧
          s.Makes tick cue := by
  rw [compile_eq_of_read hread] at ht
  refine ⟨?_, ?_, fun tick cue hcue ↦ ?_⟩
  · intro σ device pacing memory
    refine ⟨device.map_fst_answers_byTick pacing memory t, ?_⟩
    rw [map_snd_timedTouches, device.map_fst_answers, touches]
  · rw [(shows_of_ofSources ht).dated_timedTouches_iff (enters_of_ofSources ht hapart) tool
      fun p q ↦ apart_contactsOf hapart tool]
    exact forall_datesWell_iff ht tool
  · obtain ⟨hmem, htool, haction⟩ := motion_mem_cuesAt hcue
    obtain ⟨s, hs, hsource, hmakes⟩ :=
      exists_makes_of_mem_cuesAt ht hapart hmem (haction ▸ rfl)
    exact ⟨s, hs, hsource.symm.trans htool, hmakes⟩

/-- A finger that drags from tick 5 to tick 15. -/
def draggingFinger : Json :=
  Json.pointerSource "finger" [
    Json.item .pointerMove [(.duration, 0), (.x, 5), (.y, 5)],
    Json.item .pause [(.duration, 5)],
    Json.item .pointerDown [],
    Json.item .pointerMove [(.duration, 10), (.x, 7), (.y, 5)],
    Json.item .pointerUp []]

/-- The finger drags first, and another one, which moves meanwhile, taps afterwards. -/
def dragThenTap : Json :=
  .array [
    draggingFinger,
    Json.pointerSource "other" [
      Json.item .pointerMove [(.duration, 0), (.x, 1), (.y, 2)],
      Json.item .pointerMove [(.duration, 10), (.x, 9), (.y, 2)],
      Json.item .pause [(.duration, 10)],
      Json.item .pointerDown [],
      Json.item .pause [(.duration, 5)],
      Json.item .pointerUp []]]

/-- The moves of the drag come before those of the other finger. -/
theorem dated_dragThenTap :
    ∃ t sources, compile (fun _ ↦ none) dragThenTap = .ok t ∧
      (Source.readAll dragThenTap >>= Source.accept) = .ok sources ∧ Source.Apart sources ∧
      MotionEvent.Dated none (t.timedTouches .finger) ∧
      ∀ s ∈ Source.ofKind sources .pointer, s.tool = .finger →
        ¬Contact.Regrips s.contacts ∧
          ∀ pressed tick, Contact.HoldsFrom s.contacts pressed tick →
            ∀ first ∈ (having .move (t.motionsAt .finger tick)).head?, first.entry = pressed := by
  have hdated : (compile (fun _ ↦ none) dragThenTap).toOption.map
      (fun t ↦ decide (MotionEvent.Dated none (t.timedTouches .finger))) = some true := by
    decide +kernel
  have hcontacts : (Source.readAll dragThenTap >>= Source.accept).toOption.map
      (fun sources ↦ (Source.ofKind sources .pointer).map Source.contacts) =
        some [[⟨5, true⟩, ⟨15, false⟩], [⟨20, true⟩, ⟨25, false⟩]] := by
    decide +kernel
  have hcompile : ∃ t, compile (fun _ ↦ none) dragThenTap = .ok t := ⟨_, rfl⟩
  have hread : ∃ sources, (Source.readAll dragThenTap >>= Source.accept) = .ok sources := ⟨_, rfl⟩
  obtain ⟨t, ht⟩ := hcompile
  obtain ⟨sources, hsources⟩ := hread
  rw [ht] at hdated
  rw [hsources] at hcontacts
  have hwell := of_decide_eq_true (Option.some.inj hdated)
  have hapart : Source.Apart sources := by
    have hpointers : (Source.ofKind sources .pointer).map Source.contacts =
        [[⟨5, true⟩, ⟨15, false⟩], [⟨20, true⟩, ⟨25, false⟩]] := Option.some.inj hcontacts
    rw [Source.apart_iff, hpointers, List.pairwise_pair]
    intro pressed other tick hdrag htap
    have hearly : 5 = pressed ∧ pressed ≤ tick ∧ tick ≤ 15 := by
      simpa [Contact.holdsFrom_cons, Contact.not_holdsFrom_nil] using hdrag
    have hlate : 20 = other ∧ other ≤ tick ∧ tick ≤ 25 := by
      simpa [Contact.holdsFrom_cons, Contact.not_holdsFrom_nil] using htap
    exact absurd ((hlate.1 ▸ hlate.2.1).trans hearly.2.2) (by decide)
  obtain ⟨-, hdates, -⟩ := dated_iff_of_compile ht hsources hapart .finger
  exact ⟨t, sources, ht, hsources, hapart, hwell, hdates.1 hwell⟩

/-- A finger moves without ever going down while the other one drags. -/
def dragBeside : Json :=
  .array [
    Json.pointerSource "mover" [
      Json.item .pointerMove [(.duration, 0), (.x, 1), (.y, 2)],
      Json.item .pointerMove [(.duration, 20), (.x, 9), (.y, 2)]],
    draggingFinger]

/-- All moves of the drag, which begins at tick 5, are dated by the other finger, at tick 0. -/
theorem not_dated_dragBeside :
    ¬∀ t sources, compile (fun _ ↦ none) dragBeside = .ok t →
      (Source.readAll dragBeside >>= Source.accept) = .ok sources → Source.Apart sources →
        ∀ tool, MotionEvent.Dated none (t.timedTouches tool) := by
  have hdated : (compile (fun _ ↦ none) dragBeside).toOption.map
      (fun t ↦ decide (MotionEvent.Dated none (t.timedTouches .finger))) = some false := by
    decide +kernel
  have hcontacts : (Source.readAll dragBeside >>= Source.accept).toOption.map
      (fun sources ↦ (Source.ofKind sources .pointer).map Source.contacts) =
        some [[], [⟨5, true⟩, ⟨15, false⟩]] := by
    decide +kernel
  have hcompile : ∃ t, compile (fun _ ↦ none) dragBeside = .ok t := ⟨_, rfl⟩
  have hread : ∃ sources, (Source.readAll dragBeside >>= Source.accept) = .ok sources := ⟨_, rfl⟩
  obtain ⟨t, ht⟩ := hcompile
  obtain ⟨sources, hsources⟩ := hread
  rw [ht] at hdated
  rw [hsources] at hcontacts
  have hapart : Source.Apart sources := by
    have hpointers : (Source.ofKind sources .pointer).map Source.contacts =
        [[], [⟨5, true⟩, ⟨15, false⟩]] := Option.some.inj hcontacts
    rw [Source.apart_iff, hpointers, List.pairwise_pair]
    exact fun pressed other tick hnone ↦ absurd hnone Contact.not_holdsFrom_nil
  intro hall
  exact of_decide_eq_false (Option.some.inj hdated) (hall t sources ht hsources hapart .finger)

end Timeline

end ActionReplay
