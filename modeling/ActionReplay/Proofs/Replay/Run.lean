import ActionReplay.Proofs.Replay.Touches

/-!
# Runs of a tool

What may be told of the pointers of one tool depends on how many of its downs are open. A plain down
opens a gesture and a plain up closes it, and both are told of a single pointer; further downs and
ups, and moves, come only while some down is open (`MotionEvent.Step`). Events told one after
another make a run (`MotionEvent.Run`), and the events of a tick a round: presses, then moves, then
lifts (`MotionEvent.Round`).
-/

set_option autoImplicit false
set_option relaxedAutoImplicit false

namespace ActionReplay.MotionEvent

/-- What may be told of a tool while a number of its downs are open, and how many are open after
it. -/
inductive Step : Nat → MotionEvent → Nat → Prop
  | down {e : MotionEvent} (haction : e.action = .down) (hsingle : e.pointers.length = 1) :
    Step 0 e 1
  | pointerDown {e : MotionEvent} {n index : Nat} (hopen : 0 < n)
    (haction : e.action = .pointerDown index) : Step n e (n + 1)
  | move {e : MotionEvent} {n : Nat} (hopen : 0 < n) (haction : e.action = .move) : Step n e n
  | pointerUp {e : MotionEvent} {n index : Nat} (hopen : 0 < n)
    (haction : e.action = .pointerUp index) : Step (n + 1) e n
  | up {e : MotionEvent} (haction : e.action = .up) (hsingle : e.pointers.length = 1) : Step 1 e 0

/-- Events told one after another. -/
inductive Run : Nat → List MotionEvent → Nat → Prop
  | nil (n : Nat) : Run n [] n
  | cons {m k n : Nat} {e : MotionEvent} {rest : List MotionEvent} (hstep : Step m e k)
    (hrest : Run k rest n) : Run m (e :: rest) n

variable {m k n : Nat} {e : MotionEvent} {events : List MotionEvent}

/-! ### Steps -/

theorem Step.add_one (hstep : Step m e n) :
    m + (if e.action.isPress then 1 else 0) = n + if e.action.isLift then 1 else 0 := by
  cases hstep with
  | down haction => simp [haction, MotionAction.isPress, MotionAction.isLift]
  | pointerDown _ haction => simp [haction, MotionAction.isPress, MotionAction.isLift]
  | move _ haction => simp [haction, MotionAction.isPress, MotionAction.isLift]
  | pointerUp _ haction => simp [haction, MotionAction.isPress, MotionAction.isLift]
  | up haction => simp [haction, MotionAction.isPress, MotionAction.isLift]

/-- A press is plain if and only if no down is open. -/
theorem Step.press (hstep : Step m e n) (hpress : e.action.isPress = true) :
    n = m + 1 ∧ (e.action = .down ↔ m = 0) ∧ e.action ≠ .up := by
  cases hstep with
  | down haction => simp [haction]
  | pointerDown hopen haction => simp [haction, hopen.ne']
  | move _ haction => simp [haction, MotionAction.isPress] at hpress
  | pointerUp _ haction => simp [haction, MotionAction.isPress] at hpress
  | up haction => simp [haction, MotionAction.isPress] at hpress

/-- A lift is plain if and only if it leaves no down open. -/
theorem Step.lift (hstep : Step m e n) (hlift : e.action.isLift = true) :
    m = n + 1 ∧ (e.action = .up ↔ n = 0) := by
  cases hstep with
  | down haction => simp [haction, MotionAction.isLift] at hlift
  | pointerDown _ haction => simp [haction, MotionAction.isLift] at hlift
  | move _ haction => simp [haction, MotionAction.isLift] at hlift
  | pointerUp hopen haction => simp [haction, hopen.ne']
  | up haction => simp [haction]

/-! ### Runs -/

theorem Run.append {before later : List MotionEvent} (hbefore : Run m before k)
    (hlater : Run k later n) : Run m (before ++ later) n := by
  induction hbefore with
  | nil => exact hlater
  | cons hstep _ ih => exact .cons hstep (ih hlater)

theorem Run.exists_of_append {before later : List MotionEvent}
    (hrun : Run m (before ++ later) n) : ∃ k, Run m before k ∧ Run k later n := by
  induction before generalizing m with
  | nil => exact ⟨m, .nil m, hrun⟩
  | cons e rest ih =>
    cases hrun with
    | cons hstep hrest =>
      obtain ⟨k, hbefore, hlater⟩ := ih hrest
      exact ⟨k, .cons hstep hbefore, hlater⟩

theorem Run.single (hstep : Step m e n) : Run m [e] n :=
  .cons hstep (.nil n)

theorem Run.step (hrun : Run m [e] n) : Step m e n := by
  cases hrun with
  | cons hstep hnil =>
    cases hnil
    exact hstep

/-- Open downs, and those that come, are the ups that come and the downs left open. -/
theorem Run.add_countP (hrun : Run m events n) :
    m + events.countP (fun e ↦ e.action.isPress) = n + events.countP fun e ↦ e.action.isLift := by
  induction hrun with
  | nil n => rfl
  | cons hstep _ ih =>
    have hfirst := hstep.add_one
    rw [List.countP_cons, List.countP_cons]
    omega

/-- Plain downs and ups are those of a single pointer. -/
theorem Run.length_pointers (hrun : Run m events n) :
    ∀ e ∈ events, e.action = .down ∨ e.action = .up → e.pointers.length = 1 := by
  induction hrun with
  | nil n => exact List.forall_mem_nil _
  | cons hstep _ ih =>
    refine List.forall_mem_cons.2 ⟨?_, ih⟩
    intro hplain
    cases hstep with
    | down _ hsingle => exact hsingle
    | pointerDown _ haction => simp [haction] at hplain
    | move _ haction => simp [haction] at hplain
    | pointerUp _ haction => simp [haction] at hplain
    | up _ hsingle => exact hsingle

/-! ### Rounds -/

/-- The events of a tick: presses that leave `k` downs open, moves, and lifts. -/
structure Round (m k n : Nat) (presses moves lifts : List MotionEvent) : Prop where
  runPresses : Run m presses k
  runMoves : Run k moves k
  runLifts : Run k lifts n
  press : ∀ e ∈ presses, e.action.isPress = true
  move : ∀ e ∈ moves, e.action = .move
  lift : ∀ e ∈ lifts, e.action.isLift = true

theorem Round.run {presses moves lifts : List MotionEvent}
    (hround : Round m k n presses moves lifts) : Run m (presses ++ moves ++ lifts) n :=
  (hround.runPresses.append hround.runMoves).append hround.runLifts

/-- Only the lifts of a round are lifts. -/
theorem Round.countP_isLift {presses moves lifts : List MotionEvent}
    (hround : Round m k n presses moves lifts) :
    (presses ++ moves ++ lifts).countP (fun e ↦ e.action.isLift) = lifts.length := by
  have hpresses : presses.countP (fun e ↦ e.action.isLift) = 0 :=
    List.countP_eq_zero.2 fun e he ↦
      Bool.eq_false_iff.1 (MotionAction.isLift_of_isPress (hround.press e he))
  have hmoves : moves.countP (fun e ↦ e.action.isLift) = 0 := by
    apply List.countP_eq_zero.2
    intro e he
    rw [hround.move e he]
    exact Bool.false_ne_true
  rw [List.countP_append, List.countP_append, hpresses, hmoves,
    List.countP_eq_length.2 hround.lift]
  exact Nat.zero_add _

end ActionReplay.MotionEvent
