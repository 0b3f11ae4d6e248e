import ActionReplay.Proofs.Replay.Down
import ActionReplay.Proofs.Replay.Watched

/-!
# Gestures are complete

The motion events of a tool that touch are gestures, one after another. A gesture starts with one
plain down and ends with one plain up, both of a single pointer, and holds only moves and the downs
and ups of further pointers in between. Only the last gesture may be cut short, if the payload ends
while a pointer is down. Downs and ups cancel out exactly where gestures meet
(`Timeline.gestures_of_compile`).
-/

set_option autoImplicit false
set_option relaxedAutoImplicit false

namespace ActionReplay

namespace MotionEvent

variable {m n : Nat} {events : List MotionEvent}

/-! ### Shapes -/

/-- What stands between the first down and the last up of a gesture. -/
def IsInner (e : MotionEvent) : Prop :=
  e.action = .move ∨ ∃ index, e.action = .pointerDown index ∨ e.action = .pointerUp index

/-- A gesture from its down to its up. -/
def IsGesture (events : List MotionEvent) : Prop :=
  ∃ first inner last, events = first :: (inner ++ [last]) ∧ first.action = .down ∧
    (∀ e ∈ inner, e.IsInner) ∧ last.action = .up

/-- A gesture without its up, or nothing at all. -/
def IsCutShort (events : List MotionEvent) : Prop :=
  events = [] ∨ ∃ first inner, events = first :: inner ∧ first.action = .down ∧
    ∀ e ∈ inner, e.IsInner

/-- Events that are gestures one after another, with what is left of a last one. -/
structure AreGestures (events : List MotionEvent) (complete : List (List MotionEvent))
    (cut : List MotionEvent) : Prop where
  parts : events = complete.flatten ++ cut
  complete : ∀ gesture ∈ complete, IsGesture gesture
  cut : IsCutShort cut

/-- Assumes: a gesture that has begun. Events that go on with it, and may go on with other gestures
once it has ended; `n` downs are open in the end. -/
def GoesOn (events : List MotionEvent) (n : Nat) : Prop :=
  ∃ inner, (∀ e ∈ inner, e.IsInner) ∧
    (events = inner ∧ n ≠ 0 ∨
      ∃ last later complete cut, events = inner ++ last :: later ∧ last.action = .up ∧
        AreGestures later complete cut ∧ (cut = [] ↔ n = 0))

theorem GoesOn.cons {e : MotionEvent} (hinner : e.IsInner) (hrest : GoesOn events n) :
    GoesOn (e :: events) n := by
  obtain ⟨inner, hall, hends⟩ := hrest
  refine ⟨e :: inner, List.forall_mem_cons.2 ⟨hinner, hall⟩, ?_⟩
  rcases hends with ⟨rfl, hopen⟩ | ⟨last, later, complete, cut, rfl, hup, hlater, hcut⟩
  · exact .inl ⟨rfl, hopen⟩
  · exact .inr ⟨last, later, complete, cut, rfl, hup, hlater, hcut⟩

/-! ### Runs -/

/-- A run from no open downs is made of gestures, and a run from some goes on with one. -/
theorem Run.areGestures_or_goesOn (hrun : Run m events n) :
    (m = 0 → ∃ complete cut, AreGestures events complete cut ∧ (cut = [] ↔ n = 0)) ∧
      (m ≠ 0 → GoesOn events n) := by
  induction hrun with
  | nil n =>
    constructor
    · intro hnone
      exact ⟨[], [], ⟨rfl, List.forall_mem_nil _, .inl rfl⟩, iff_of_true rfl hnone⟩
    · intro hopen
      exact ⟨[], List.forall_mem_nil _, .inl ⟨rfl, hopen⟩⟩
  | @cons m k n e rest hstep _ ih =>
    obtain ⟨hgestures, hgoes⟩ := ih
    cases hstep with
    | down haction =>
      refine ⟨?_, fun hopen ↦ absurd rfl hopen⟩
      intro _
      obtain ⟨inner, hinner, hends⟩ := hgoes one_ne_zero
      rcases hends with ⟨rfl, hopen⟩ | ⟨last, later, complete, cut, rfl, hup, hlater, hcut⟩
      · have hcut : IsCutShort (e :: rest) := .inr ⟨e, rest, rfl, haction, hinner⟩
        exact ⟨[], e :: rest, ⟨rfl, List.forall_mem_nil _, hcut⟩,
          iff_of_false (List.cons_ne_nil _ _) hopen⟩
      · have hfirst : IsGesture (e :: (inner ++ [last])) :=
          ⟨e, inner, last, rfl, haction, hinner, hup⟩
        refine ⟨(e :: (inner ++ [last])) :: complete, cut, ⟨?_, ?_, hlater.cut⟩, hcut⟩
        · rw [hlater.parts]
          simp
        · exact List.forall_mem_cons.2 ⟨hfirst, hlater.complete⟩
    | pointerDown hopen haction =>
      exact ⟨fun hnone ↦ absurd hnone hopen.ne',
        fun _ ↦ (hgoes (Nat.succ_ne_zero _)).cons (.inr ⟨_, .inl haction⟩)⟩
    | move hopen haction =>
      exact ⟨fun hnone ↦ absurd hnone hopen.ne', fun _ ↦ (hgoes hopen.ne').cons (.inl haction)⟩
    | pointerUp hopen haction =>
      exact ⟨fun hnone ↦ absurd hnone (Nat.succ_ne_zero _),
        fun _ ↦ (hgoes hopen.ne').cons (.inr ⟨_, .inr haction⟩)⟩
    | up haction =>
      refine ⟨fun hnone ↦ absurd hnone one_ne_zero, ?_⟩
      intro _
      obtain ⟨complete, cut, hrest, hcut⟩ := hgestures rfl
      exact ⟨[], List.forall_mem_nil _, .inr ⟨e, rest, complete, cut, rfl, haction, hrest, hcut⟩⟩

/-- A run that ends with complete gestures leaves no down open. -/
theorem Run.eq_zero_of_areGestures {complete : List (List MotionEvent)} (hrun : Run 0 events n)
    (hgestures : AreGestures events complete []) : n = 0 := by
  obtain ⟨rfl, hcomplete, -⟩ := hgestures
  rw [List.append_nil] at hrun
  rcases List.eq_nil_or_concat complete with rfl | ⟨earlier, gesture, rfl⟩
  · cases hrun
    rfl
  · obtain ⟨first, inner, last, rfl, -, -, hup⟩ := hcomplete gesture (by simp)
    have hsplit : (earlier.concat (first :: (inner ++ [last]))).flatten =
        (earlier.flatten ++ first :: inner) ++ [last] := by simp
    rw [hsplit] at hrun
    obtain ⟨k, -, hlast⟩ := hrun.exists_of_append
    cases hlast with
    | cons hstep hnil =>
      cases hnil
      cases hstep with
      | up => rfl
      | down haction => simp [haction] at hup
      | pointerDown _ haction => simp [haction] at hup
      | move _ haction => simp [haction] at hup
      | pointerUp _ haction => simp [haction] at hup

end MotionEvent

namespace Timeline

open MotionCue MotionEvent

/-- Assumes: a payload that compiles. Any device is handed the events of one tick after another, and
those of a tool that touch are gestures, of which the last one may be cut short; plain downs and ups
are those of a single pointer; up to any event there are no more ups than downs, and as many exactly
where all gestures are complete. Every up of a tick is told: no up finds that no down is open. -/
theorem gestures_of_compile {locate : Locator} {actions : Json} {t : Timeline}
    (ht : compile locate actions = .ok t) (tool : Tool) :
    (∀ (σ : Type) (device : Device σ) (pacing : Bool) (memory : σ),
      (device.answers pacing memory t).map Prod.fst =
          t.signalsByTick.flatMap (fun entry ↦ entry.2.filterMap Signal.event?) ∧
        InputEvent.touches tool ((device.answers pacing memory t).map Prod.fst) = t.touches tool) ∧
      (∃ complete cut, AreGestures (t.touches tool) complete cut) ∧
      (∀ e ∈ t.touches tool, e.action = .down ∨ e.action = .up → e.pointers.length = 1) ∧
      (∀ before, before <+: t.touches tool →
        before.countP (fun e ↦ e.action.isLift) ≤ before.countP (fun e ↦ e.action.isPress) ∧
          (before.countP (fun e ↦ e.action.isLift) = before.countP (fun e ↦ e.action.isPress) ↔
            ∃ complete, AreGestures before complete [])) ∧
      ∀ tick signals, (tick, signals) ∈ t.signalsByTick →
        (InputEvent.touches tool (signals.filterMap Signal.event?)).countP
            (fun e ↦ e.action.isLift) =
          (having .up (t.motionsAt tool tick)).length := by
  obtain ⟨sources, -, hsources⟩ := exists_sources_of_compile ht
  have hshows := shows_of_ofSources hsources
  obtain ⟨n, hrun⟩ := hshows.exists_run_touches tool
  refine ⟨?_, ?_, hrun.length_pointers, ?_, ?_⟩
  · intro σ device pacing memory
    exact ⟨device.map_fst_answers_byTick pacing memory t,
      congrArg (InputEvent.touches tool) (device.map_fst_answers pacing memory t)⟩
  · obtain ⟨complete, cut, hgestures, -⟩ := hrun.areGestures_or_goesOn.1 rfl
    exact ⟨complete, cut, hgestures⟩
  · rintro before ⟨later, hlater⟩
    rw [← hlater] at hrun
    obtain ⟨k, hbefore, -⟩ := hrun.exists_of_append
    have hcount := hbefore.add_countP
    refine ⟨by omega, ?_, ?_⟩
    · intro hequal
      obtain ⟨complete, cut, hgestures, hcut⟩ := hbefore.areGestures_or_goesOn.1 rfl
      obtain rfl := hcut.2 (by omega)
      exact ⟨complete, hgestures⟩
    · rintro ⟨complete, hgestures⟩
      have hclosed := hbefore.eq_zero_of_areGestures hgestures
      omega
  · intro tick signals hmem
    rw [eq_signalsAt_of_mem hmem]
    exact hshows.countP_isLift_touchesAt tool tick

/-- Two fingers that are down together for a while; the second one is down again in the end. -/
def twoFingers : Json :=
  .array [
    Json.pointerSource "first" [
      Json.item .pointerMove [(.duration, 0), (.x, 1), (.y, 2)],
      Json.item .pointerDown [],
      Json.item .pause [(.duration, 20)],
      Json.item .pointerUp []],
    Json.pointerSource "second" [
      Json.item .pointerMove [(.duration, 0), (.x, 5), (.y, 2)],
      Json.item .pause [(.duration, 10)],
      Json.item .pointerDown [],
      Json.item .pointerMove [(.duration, 20), (.x, 5), (.y, 9)],
      Json.item .pointerUp [],
      Json.item .pause [(.duration, 10)],
      Json.item .pointerDown []]]

/-- The two fingers make one gesture, and another one that is cut short, also for a device that takes
nothing. -/
theorem gestures_twoFingers :
    ∃ t, compile (fun _ ↦ none) twoFingers = .ok t ∧
      (t.touches .finger).map MotionEvent.action =
        [.down, .pointerDown 1, .move, .move, .move, .pointerUp 0, .move, .up, .down] ∧
      InputEvent.touches .finger
          (((Device.recorder fun _ _ ↦ false).answers true [] t).map Prod.fst) =
        t.touches .finger ∧
      ∃ complete cut, AreGestures (t.touches .finger) complete cut := by
  have hactions : (compile (fun _ ↦ none) twoFingers).toOption.map
      (fun t ↦ (t.touches .finger).map MotionEvent.action) =
        some [.down, .pointerDown 1, .move, .move, .move, .pointerUp 0, .move, .up, .down] := by
    decide +kernel
  have hcompile : ∃ t, compile (fun _ ↦ none) twoFingers = .ok t := ⟨_, rfl⟩
  obtain ⟨t, ht⟩ := hcompile
  rw [ht] at hactions
  obtain ⟨hhanded, hgestures, -⟩ := gestures_of_compile ht .finger
  exact ⟨t, ht, Option.some.inj hactions,
    (hhanded _ (Device.recorder fun _ _ ↦ false) true []).2, hgestures⟩

end Timeline

end ActionReplay
