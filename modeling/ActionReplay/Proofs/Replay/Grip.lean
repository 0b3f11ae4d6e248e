import ActionReplay.Proofs.Replay.Run
import ActionReplay.Proofs.Table
import Mathlib.Data.Multiset.AddSub

/-!
# Gestures that keep count

A gesture has two records of the pointers that are down, a counter and a table. They are updated by
different rules, but both follow one quantity: the pointers that are down, each as often as it went
down without going up since (`Gesture.Keeps`). The counter is their number, and the table holds none
but them. A press adds a pointer, a lift of a pointer that is down takes it away, and moves change
nothing. As long as no other lifts come, what is told of a tick is a round of its tool
(`Gesture.Keeps.exists_round`).
-/

set_option autoImplicit false
set_option relaxedAutoImplicit false

namespace ActionReplay

namespace MotionCue

/-- The cues of an action. -/
def having (action : CueAction) (cues : List MotionCue) : List MotionCue :=
  cues.filter fun cue ↦ cue.action = action

/-- The pointers of cues, each as often as it has one. -/
def pointers (cues : List MotionCue) : Multiset Nat :=
  (cues.map MotionCue.pointer : List Nat)

theorem pointers_cons (cue : MotionCue) (rest : List MotionCue) :
    pointers (cue :: rest) = cue.pointer ::ₘ pointers rest := rfl

end MotionCue

namespace Gesture

open MotionCue

variable {g : Gesture} {down : Multiset Nat} {tool : Tool} {cue : MotionCue}
  {cues moves : List MotionCue}

/-- Assumes: the pointers that are down, each as often as it went down without going up since. The
gesture counts all of them, and its table holds none but them. -/
structure Keeps (g : Gesture) (down : Multiset Nat) : Prop where
  balance : g.balance = down.card
  live : ∀ pointer ∈ g.live.keys, pointer ∈ down
  ascending : g.live.Ascending

theorem keeps_start : Keeps {} 0 := ⟨rfl, List.forall_mem_nil _, .nil⟩

theorem Keeps.balance_ne_zero (hkeeps : g.Keeps down) {pointer : Nat} (hmem : pointer ∈ down) :
    g.balance ≠ 0 := by
  rw [hkeeps.balance]
  exact (Multiset.card_pos_iff_exists_mem.2 ⟨pointer, hmem⟩).ne'

/-- Without an open down the table is empty. -/
theorem Keeps.live_eq_nil (hkeeps : g.Keeps down) (hbalance : g.balance = 0) : g.live = [] := by
  have hempty : down = 0 := Multiset.card_eq_zero.1 (hkeeps.balance ▸ hbalance)
  apply List.eq_nil_iff_forall_not_mem.2
  intro entry hentry
  have hmem := hkeeps.live entry.1 (List.mem_map_of_mem hentry)
  rw [hempty] at hmem
  exact Multiset.notMem_zero _ hmem

theorem touches_event {action : MotionAction} (htool : cue.tool = tool)
    (hhover : action.isHover = false) (flags : UInt32) (pointers : List (Nat × Position))
    (button : UInt32) :
    InputEvent.touches tool [event cue flags action pointers button] =
      [{ downTick := cue.entry, action, tool := cue.tool, pointers, metaState := flags,
         buttonState := button }] := by
  simp [InputEvent.touches, InputEvent.touch?, event, htool, hhover]

/-! ### Presses -/

theorem Keeps.press (hkeeps : g.Keeps down) (flags : UInt32) (cue : MotionCue) :
    (g.press flags cue).2.Keeps (cue.pointer ::ₘ down) := by
  refine ⟨?_, ?_, ?_⟩
  · show g.balance + 1 = _
    rw [hkeeps.balance, Multiset.card_cons]
  · intro pointer hpointer
    rcases Table.mem_keys_insert.1 hpointer with hlive | rfl
    · exact Multiset.mem_cons_of_mem (hkeeps.live pointer hlive)
    · exact Multiset.mem_cons_self _ _
  · exact Table.ascending_insert hkeeps.ascending _ _

/-- A press tells one event, in which a pointer goes down. -/
theorem Keeps.exists_press (hkeeps : g.Keeps down) (htool : cue.tool = tool) (flags : UInt32) :
    ∃ e, InputEvent.touches tool [(g.press flags cue).1] = [e] ∧ e.action.isPress = true ∧
      MotionEvent.Step g.balance e (g.press flags cue).2.balance := by
  unfold Gesture.press
  by_cases hbalance : g.balance = 0
  · simp only [hbalance, if_true, hkeeps.live_eq_nil hbalance]
    exact ⟨_, touches_event htool rfl _ _ _, rfl, .down rfl rfl⟩
  · simp only [hbalance, if_false]
    exact ⟨_, touches_event htool rfl _ _ _, rfl, .pointerDown (Nat.pos_of_ne_zero hbalance) rfl⟩

theorem Keeps.pressAll (hkeeps : g.Keeps down) (flags : UInt32) (cues : List MotionCue) :
    (g.pressAll flags cues).2.Keeps (down + pointers cues) := by
  induction cues generalizing g down with
  | nil => exact (add_zero down).symm ▸ hkeeps
  | cons cue rest ih =>
    rw [pressAll_cons, pointers_cons, Multiset.add_cons, ← Multiset.cons_add]
    exact ih (hkeeps.press flags cue)

/-- Presses tell one event each. -/
theorem Keeps.touches_pressAll (hkeeps : g.Keeps down) (htool : ∀ cue ∈ cues, cue.tool = tool)
    (flags : UInt32) :
    MotionEvent.Run g.balance (InputEvent.touches tool (g.pressAll flags cues).1)
        (g.pressAll flags cues).2.balance ∧
      (InputEvent.touches tool (g.pressAll flags cues).1).length = cues.length ∧
      ∀ e ∈ InputEvent.touches tool (g.pressAll flags cues).1, e.action.isPress = true := by
  induction cues generalizing g down with
  | nil => exact ⟨.nil _, rfl, List.forall_mem_nil _⟩
  | cons cue rest ih =>
    obtain ⟨hcue, hrest⟩ := List.forall_mem_cons.1 htool
    obtain ⟨e, htouches, hpress, hstep⟩ := hkeeps.exists_press hcue flags
    obtain ⟨hrun, hlength, hall⟩ := ih (hkeeps.press flags cue) hrest
    rw [pressAll_cons, InputEvent.touches_cons, htouches]
    exact ⟨.cons hstep hrun, congrArg Nat.succ hlength, List.forall_mem_cons.2 ⟨hpress, hall⟩⟩

/-- Presses are dated by their cues. -/
theorem downTick_pressAll (htool : ∀ cue ∈ cues, cue.tool = tool) (flags : UInt32) :
    (InputEvent.touches tool (g.pressAll flags cues).1).map MotionEvent.downTick =
      cues.map MotionCue.entry := by
  induction cues generalizing g with
  | nil => rfl
  | cons cue rest ih =>
    obtain ⟨hcue, hrest⟩ := List.forall_mem_cons.1 htool
    have hfirst : (InputEvent.touches tool [(g.press flags cue).1]).map MotionEvent.downTick =
        [cue.entry] := by
      unfold Gesture.press
      by_cases hbalance : g.balance = 0
      · simp only [hbalance, if_true]
        exact congrArg (List.map MotionEvent.downTick) (touches_event hcue rfl _ _ _)
      · simp only [hbalance, if_false]
        exact congrArg (List.map MotionEvent.downTick) (touches_event hcue rfl _ _ _)
    rw [pressAll_cons, InputEvent.touches_cons, List.map_append, hfirst, ih hrest]
    rfl

theorem mem_keys_pressAll (flags : UInt32) (cues : List MotionCue) (pointer : Nat) :
    pointer ∈ (g.pressAll flags cues).2.live.keys ↔
      pointer ∈ g.live.keys ∨ pointer ∈ pointers cues := by
  induction cues generalizing g with
  | nil => exact (or_iff_left (Multiset.notMem_zero pointer)).symm
  | cons cue rest ih =>
    rw [pressAll_cons, ih, pointers_cons, Multiset.mem_cons, ← or_assoc]
    exact or_congr_left Table.mem_keys_insert

/-! ### Moves -/

theorem follow_of_none {moved : UInt32 × Table Nat Position}
    (hnone : moved.2.find? cue.pointer = none) : follow moved cue = moved := by
  unfold follow
  simp only [hnone]

theorem follow_of_mem {moved : UInt32 × Table Nat Position} (hmem : cue.pointer ∈ moved.2.keys) :
    follow moved cue = (moved.1 ||| cue.button, moved.2.insert cue.pointer cue.position) := by
  obtain ⟨position, hfound⟩ := Option.ne_none_iff_exists'.1 (Table.mem_keys_iff.1 hmem)
  unfold follow
  simp only [hfound]

/-- A move keeps the pointers of a table, and their order. -/
theorem keys_follow (moved : UInt32 × Table Nat Position) (cue : MotionCue) :
    (∀ pointer, pointer ∈ (follow moved cue).2.keys ↔ pointer ∈ moved.2.keys) ∧
      (moved.2.Ascending → (follow moved cue).2.Ascending) := by
  by_cases hmem : cue.pointer ∈ moved.2.keys
  · rw [follow_of_mem hmem]
    refine ⟨?_, fun hascending ↦ Table.ascending_insert hascending _ _⟩
    intro pointer
    rw [Table.mem_keys_insert]
    exact or_iff_left_of_imp fun hsame ↦ hsame ▸ hmem
  · rw [follow_of_none (Table.find?_eq_none_iff.2 hmem)]
    exact ⟨fun pointer ↦ Iff.rfl, id⟩

theorem keys_foldl_follow (moves : List MotionCue) (moved : UInt32 × Table Nat Position) :
    (∀ pointer, pointer ∈ (moves.foldl follow moved).2.keys ↔ pointer ∈ moved.2.keys) ∧
      (moved.2.Ascending → (moves.foldl follow moved).2.Ascending) := by
  induction moves generalizing moved with
  | nil => exact ⟨fun pointer ↦ Iff.rfl, id⟩
  | cons cue rest ih =>
    obtain ⟨hkeys, hascending⟩ := keys_follow moved cue
    obtain ⟨hrestKeys, hrestAscending⟩ := ih (follow moved cue)
    refine ⟨?_, fun horder ↦ hrestAscending (hascending horder)⟩
    intro pointer
    rw [List.foldl_cons, hrestKeys, hkeys]

/-- Moves leave a table empty exactly if it was. -/
theorem foldl_follow_eq_nil_iff (moves : List MotionCue) (moved : UInt32 × Table Nat Position) :
    (moves.foldl follow moved).2 = [] ↔ moved.2 = [] := by
  rw [← Table.keys_eq_nil_iff, ← Table.keys_eq_nil_iff, List.eq_nil_iff_forall_not_mem,
    List.eq_nil_iff_forall_not_mem]
  exact forall_congr' fun pointer ↦ not_congr ((keys_foldl_follow moves moved).1 pointer)

theorem drag_snd (flags : UInt32) (g : Gesture) (moves : List MotionCue) :
    (g.drag flags moves).2 = { g with live := (moves.foldl follow (0, g.live)).2 } := by
  cases moves with
  | nil => rfl
  | cons first rest => rfl

theorem mem_keys_drag (flags : UInt32) (g : Gesture) (moves : List MotionCue) (pointer : Nat) :
    pointer ∈ (g.drag flags moves).2.live.keys ↔ pointer ∈ g.live.keys := by
  rw [drag_snd]
  exact (keys_foldl_follow moves (0, g.live)).1 pointer

theorem Keeps.drag (hkeeps : g.Keeps down) (flags : UInt32) (moves : List MotionCue) :
    (g.drag flags moves).2.Keeps down := by
  refine ⟨?_, ?_, ?_⟩
  · rw [drag_snd]
    exact hkeeps.balance
  · intro pointer hpointer
    exact hkeeps.live pointer ((mem_keys_drag flags g moves pointer).1 hpointer)
  · rw [drag_snd]
    exact (keys_foldl_follow moves (0, g.live)).2 hkeeps.ascending

/-- Moves tell one event, which lists the pointers of the table, or none if there are none. -/
theorem Keeps.exists_drag (hkeeps : g.Keeps down) (hmoves : moves ≠ [])
    (htool : ∀ cue ∈ moves, cue.tool = tool) (flags : UInt32) :
    (g.live = [] ∧ InputEvent.touches tool (g.drag flags moves).1.toList = []) ∨
      ∃ e, InputEvent.touches tool (g.drag flags moves).1.toList = [e] ∧ e.action = .move ∧
        MotionEvent.Step g.balance e g.balance ∧
        ∀ pointer, pointer ∈ e.pointers.map Prod.fst ↔ pointer ∈ g.live.keys := by
  obtain ⟨first, rest, rfl⟩ := List.exists_cons_of_ne_nil hmoves
  have hkeys := (keys_foldl_follow (first :: rest) (0, g.live)).1
  have hnil := foldl_follow_eq_nil_iff (first :: rest) (0, g.live)
  unfold Gesture.drag
  generalize (first :: rest).foldl follow (0, g.live) = moved at hkeys hnil ⊢
  by_cases hempty : moved.2 = []
  · simp only [hempty, List.isEmpty_nil, if_true]
    exact .inl ⟨hnil.1 hempty, rfl⟩
  · have hopen : 0 < g.balance := by
      obtain ⟨entry, hentry⟩ := List.exists_mem_of_ne_nil _ hempty
      have hlive := (hkeys entry.1).1 (List.mem_map_of_mem hentry)
      exact Nat.pos_of_ne_zero (hkeeps.balance_ne_zero (hkeeps.live entry.1 hlive))
    simp only [List.isEmpty_iff, hempty, if_false, Option.toList_some]
    exact .inr ⟨_, touches_event (htool first List.mem_cons_self) rfl _ _ _, rfl,
      .move hopen rfl, hkeys⟩

theorem Keeps.touches_drag (hkeeps : g.Keeps down) (htool : ∀ cue ∈ moves, cue.tool = tool)
    (flags : UInt32) :
    MotionEvent.Run g.balance (InputEvent.touches tool (g.drag flags moves).1.toList) g.balance ∧
      ∀ e ∈ InputEvent.touches tool (g.drag flags moves).1.toList, e.action = .move := by
  by_cases hmoves : moves = []
  · rw [hmoves]
    exact ⟨.nil _, List.forall_mem_nil _⟩
  · rcases hkeeps.exists_drag hmoves htool flags with ⟨-, hnone⟩ | ⟨e, hone, haction, hstep, -⟩
    · rw [hnone]
      exact ⟨.nil _, List.forall_mem_nil _⟩
    · rw [hone]
      exact ⟨.single hstep, List.forall_mem_singleton.2 haction⟩

/-- The event of some moves is dated by the first of them. -/
theorem downTick_drag (htool : ∀ cue ∈ moves, cue.tool = tool) (flags : UInt32) :
    ∀ e ∈ InputEvent.touches tool (g.drag flags moves).1.toList,
      moves.head?.map MotionCue.entry = some e.downTick := by
  cases moves with
  | nil => exact List.forall_mem_nil _
  | cons first rest =>
    unfold Gesture.drag
    dsimp only
    split_ifs with hempty
    · exact List.forall_mem_nil _
    · rw [Option.toList_some, touches_event (htool first List.mem_cons_self) rfl]
      exact List.forall_mem_singleton.2 rfl

/-! ### Lifts -/

theorem Keeps.lift (hkeeps : g.Keeps down) (hmem : cue.pointer ∈ down) (flags : UInt32) :
    (g.lift flags cue).2.Keeps (down.erase cue.pointer) := by
  rw [lift_of_ne_zero (hkeeps.balance_ne_zero hmem)]
  refine ⟨?_, ?_, ?_⟩
  · show g.balance - 1 = _
    rw [hkeeps.balance, Multiset.card_erase_of_mem hmem]
    rfl
  · intro pointer hpointer
    obtain ⟨hinsert, hne⟩ := Table.mem_keys_erase.1 hpointer
    have hlive := (Table.mem_keys_insert.1 hinsert).resolve_right hne
    exact (Multiset.mem_erase_of_ne hne).2 (hkeeps.live pointer hlive)
  · exact (Table.ascending_insert hkeeps.ascending _ _).erase _

/-- The lift of a pointer that is down tells one event, in which a pointer goes up. If it is the only one
that is down, the table has no other. -/
theorem Keeps.exists_lift (hkeeps : g.Keeps down) (hmem : cue.pointer ∈ down)
    (htool : cue.tool = tool) (flags : UInt32) :
    ∃ e, InputEvent.touches tool (g.lift flags cue).1.toList = [e] ∧ e.action.isLift = true ∧
      MotionEvent.Step g.balance e (g.lift flags cue).2.balance := by
  have hbalance := hkeeps.balance_ne_zero hmem
  rw [lift_of_ne_zero hbalance]
  by_cases hlast : g.balance = 1
  · have hone : down = {cue.pointer} := by
      obtain ⟨pointer, rfl⟩ := Multiset.card_eq_one.1 (hkeeps.balance ▸ hlast)
      rw [Multiset.mem_singleton.1 hmem]
    have hsingle : (g.live.insert cue.pointer cue.position).length = 1 := by
      refine Table.length_eq_one (Table.ascending_insert hkeeps.ascending _ _) ?_
        (Table.mem_keys_insert.2 (.inr rfl))
      intro other hother
      rcases Table.mem_keys_insert.1 hother with hlive | hsame
      · have hmember := hkeeps.live other hlive
        rwa [hone, Multiset.mem_singleton] at hmember
      · exact hsame
    simp only [hlast, if_true, Option.toList_some]
    exact ⟨_, touches_event htool rfl _ _ _, rfl, .up rfl hsingle⟩
  · have hopen : 0 < g.balance - 1 := by omega
    have hsucc : g.balance = g.balance - 1 + 1 := by omega
    simp only [hlast, if_false, Option.toList_some]
    exact ⟨_, touches_event htool rfl _ _ _, rfl, hsucc ▸ .pointerUp hopen rfl⟩

theorem erase_le {rest : List MotionCue} (hle : pointers (cue :: rest) ≤ down) :
    cue.pointer ∈ down ∧ pointers rest ≤ down.erase cue.pointer := by
  rw [pointers_cons] at hle
  refine ⟨Multiset.mem_of_le hle (Multiset.mem_cons_self _ _), ?_⟩
  have herase := Multiset.erase_le_erase cue.pointer hle
  rwa [Multiset.erase_cons_head] at herase

theorem Keeps.liftAll (hkeeps : g.Keeps down) (hle : pointers cues ≤ down) (flags : UInt32) :
    (g.liftAll flags cues).2.Keeps (down - pointers cues) := by
  induction cues generalizing g down with
  | nil => exact (Multiset.sub_zero down).symm ▸ hkeeps
  | cons cue rest ih =>
    obtain ⟨hmem, hrest⟩ := erase_le hle
    rw [liftAll_cons, pointers_cons, Multiset.sub_cons]
    exact ih (hkeeps.lift hmem flags) hrest

/-- Lifts of pointers that are down are dated by their cues. -/
theorem Keeps.downTick_liftAll (hkeeps : g.Keeps down) (hle : pointers cues ≤ down)
    (htool : ∀ cue ∈ cues, cue.tool = tool) (flags : UInt32) :
    (InputEvent.touches tool (g.liftAll flags cues).1).map MotionEvent.downTick =
      cues.map MotionCue.entry := by
  induction cues generalizing g down with
  | nil => rfl
  | cons cue rest ih =>
    obtain ⟨hcue, htools⟩ := List.forall_mem_cons.1 htool
    obtain ⟨hmem, hrest⟩ := erase_le hle
    have hfirst : (InputEvent.touches tool (g.lift flags cue).1.toList).map MotionEvent.downTick =
        [cue.entry] := by
      rw [lift_of_ne_zero (hkeeps.balance_ne_zero hmem), Option.toList_some]
      by_cases hlast : g.balance = 1
      · simp only [hlast, if_true]
        exact congrArg (List.map MotionEvent.downTick) (touches_event hcue rfl _ _ _)
      · simp only [hlast, if_false]
        exact congrArg (List.map MotionEvent.downTick) (touches_event hcue rfl _ _ _)
    rw [liftAll_cons, InputEvent.touches_append, List.map_append, hfirst,
      ih (hkeeps.lift hmem flags) hrest htools]
    rfl

/-- Lifts of pointers that are down tell one event each. -/
theorem Keeps.touches_liftAll (hkeeps : g.Keeps down) (hle : pointers cues ≤ down)
    (htool : ∀ cue ∈ cues, cue.tool = tool) (flags : UInt32) :
    MotionEvent.Run g.balance (InputEvent.touches tool (g.liftAll flags cues).1)
        (g.liftAll flags cues).2.balance ∧
      (InputEvent.touches tool (g.liftAll flags cues).1).length = cues.length ∧
      ∀ e ∈ InputEvent.touches tool (g.liftAll flags cues).1, e.action.isLift = true := by
  induction cues generalizing g down with
  | nil => exact ⟨.nil _, rfl, List.forall_mem_nil _⟩
  | cons cue rest ih =>
    obtain ⟨hcue, htools⟩ := List.forall_mem_cons.1 htool
    obtain ⟨hmem, hrest⟩ := erase_le hle
    obtain ⟨e, htouches, hlift, hstep⟩ := hkeeps.exists_lift hmem hcue flags
    obtain ⟨hrun, hlength, hall⟩ := ih (hkeeps.lift hmem flags) hrest htools
    rw [liftAll_cons, InputEvent.touches_append, htouches]
    exact ⟨.cons hstep hrun, congrArg Nat.succ hlength, List.forall_mem_cons.2 ⟨hlift, hall⟩⟩

theorem Keeps.mem_keys_liftAll (hkeeps : g.Keeps down) (hle : pointers cues ≤ down)
    (flags : UInt32) (pointer : Nat) :
    pointer ∈ (g.liftAll flags cues).2.live.keys ↔
      pointer ∈ g.live.keys ∧ pointer ∉ pointers cues := by
  induction cues generalizing g down with
  | nil => exact (and_iff_left (Multiset.notMem_zero pointer)).symm
  | cons cue rest ih =>
    obtain ⟨hmem, hrest⟩ := erase_le hle
    have hkept := ih (hkeeps.lift hmem flags) hrest
    rw [lift_of_ne_zero (hkeeps.balance_ne_zero hmem)] at hkept
    rw [liftAll_cons, lift_of_ne_zero (hkeeps.balance_ne_zero hmem), hkept, Table.mem_keys_erase,
      Table.mem_keys_insert, pointers_cons, Multiset.mem_cons, not_or, and_assoc]
    constructor
    · rintro ⟨hlive, hne, hnot⟩
      exact ⟨hlive.resolve_right hne, hne, hnot⟩
    · rintro ⟨hlive, hne, hnot⟩
      exact ⟨.inl hlive, hne, hnot⟩

/-! ### Whole ticks -/

/-- The events that tell cues, dated by the chains of the cues: presses and lifts each by that of
its own cue, and what is told of moves by that of the first move. -/
structure Dates (cues : List MotionCue) (presses moves lifts : List MotionEvent) : Prop where
  presses : presses.map MotionEvent.downTick = (having .down cues).map MotionCue.entry
  moves : ∀ e ∈ moves, (having .move cues).head?.map MotionCue.entry = some e.downTick
  lifts : lifts.map MotionEvent.downTick = (having .up cues).map MotionCue.entry

/-- The gesture once the downs of a tick have been replayed. -/
def pressed (g : Gesture) (flags : UInt32) (cues : List MotionCue) : Gesture :=
  (g.pressAll flags (having .down cues)).2

/-- The gesture once the downs and the moves of a tick have been replayed. -/
def dragged (g : Gesture) (flags : UInt32) (cues : List MotionCue) : Gesture :=
  ((g.pressed flags cues).drag flags (having .move cues)).2

theorem replay_snd (g : Gesture) (flags : UInt32) (cues : List MotionCue) :
    (g.replay flags cues).2 = ((g.dragged flags cues).liftAll flags (having .up cues)).2 := rfl

theorem balance_dragged (g : Gesture) (flags : UInt32) (cues : List MotionCue) :
    (g.dragged flags cues).balance = (g.pressed flags cues).balance := by
  rw [dragged, drag_snd]

theorem touches_hover (action : MotionAction) (haction : action.isHover = true) (tool : Tool)
    (flags : UInt32) (cues : List MotionCue) :
    InputEvent.touches tool (hover flags action cues).toList = [] := by
  cases cues with
  | nil => rfl
  | cons first rest => simp [hover, InputEvent.touches, InputEvent.touch?, event, haction]

/-- What touches at a tick is told by its downs, its moves and its ups, in this order. -/
theorem touches_replay (tool : Tool) (g : Gesture) (flags : UInt32) (cues : List MotionCue) :
    InputEvent.touches tool (g.replay flags cues).1 =
      InputEvent.touches tool (g.pressAll flags (having .down cues)).1 ++
        InputEvent.touches tool ((g.pressed flags cues).drag flags (having .move cues)).1.toList ++
        InputEvent.touches tool ((g.dragged flags cues).liftAll flags (having .up cues)).1 := by
  unfold replay
  simp only [InputEvent.touches_append, touches_hover .hoverEnter rfl,
    touches_hover .hoverMove rfl, touches_hover .hoverExit rfl, List.append_nil]
  rfl

theorem Keeps.pressed (hkeeps : g.Keeps down) (flags : UInt32) (cues : List MotionCue) :
    (g.pressed flags cues).Keeps (down + pointers (having .down cues)) :=
  hkeeps.pressAll flags _

theorem Keeps.dragged (hkeeps : g.Keeps down) (flags : UInt32) (cues : List MotionCue) :
    (g.dragged flags cues).Keeps (down + pointers (having .down cues)) :=
  (hkeeps.pressed flags cues).drag flags _

/-- Assumes: no lifts but those of pointers that are down before the tick or go down at it. -/
theorem Keeps.replay (hkeeps : g.Keeps down)
    (hle : pointers (having .up cues) ≤ down + pointers (having .down cues)) (flags : UInt32) :
    (g.replay flags cues).2.Keeps
      (down + pointers (having .down cues) - pointers (having .up cues)) :=
  (hkeeps.dragged flags cues).liftAll hle flags

/-- Assumes: no lifts but those of pointers that are down before the tick or go down at it. The
table then holds the pointers that it held before or that went down, without those that went up. -/
theorem Keeps.mem_keys_replay (hkeeps : g.Keeps down)
    (hle : pointers (having .up cues) ≤ down + pointers (having .down cues)) (flags : UInt32)
    (pointer : Nat) :
    pointer ∈ (g.replay flags cues).2.live.keys ↔
      (pointer ∈ g.live.keys ∨ pointer ∈ pointers (having .down cues)) ∧
        pointer ∉ pointers (having .up cues) := by
  rw [replay_snd, (hkeeps.dragged flags cues).mem_keys_liftAll hle, Gesture.dragged,
    mem_keys_drag, Gesture.pressed, mem_keys_pressAll]

/-- Assumes: no lifts but those of pointers that are down before the tick or go down at it. What
touches is a round, with one press for each down and one lift for each up, dated by the cues. If
there are moves, a move is told exactly of the pointers that the table holds once the downs have
been replayed. -/
theorem Keeps.exists_round (hkeeps : g.Keeps down)
    (hle : pointers (having .up cues) ≤ down + pointers (having .down cues))
    (htool : ∀ cue ∈ cues, cue.tool = tool) (flags : UInt32) :
    ∃ (presses moves lifts : List MotionEvent) (k : Nat),
      InputEvent.touches tool (g.replay flags cues).1 = presses ++ moves ++ lifts ∧
        MotionEvent.Round g.balance k (g.replay flags cues).2.balance presses moves lifts ∧
        presses.length = (having .down cues).length ∧ lifts.length = (having .up cues).length ∧
        (having .move cues ≠ [] → ∀ pointer,
          (∃ e ∈ moves, pointer ∈ e.pointers.map Prod.fst) ↔
            pointer ∈ (g.pressed flags cues).live.keys) ∧
        Dates cues presses moves lifts := by
  have htools : ∀ action, ∀ cue ∈ having action cues, cue.tool = tool := fun action cue hcue ↦
    htool cue (List.mem_filter.1 hcue).1
  have hpressed := hkeeps.pressed flags cues
  have hdragged := hkeeps.dragged flags cues
  obtain ⟨hpresses, hdowns, hpress⟩ := hkeeps.touches_pressAll (htools .down) flags
  obtain ⟨hmoves, hmove⟩ := hpressed.touches_drag (htools .move) flags
  obtain ⟨hlifts, hups, hlift⟩ := hdragged.touches_liftAll hle (htools .up) flags
  rw [balance_dragged] at hlifts
  refine ⟨_, _, _, _, touches_replay tool g flags cues,
    ⟨hpresses, hmoves, hlifts, hpress, hmove, hlift⟩, hdowns, hups, fun hsome pointer ↦ ?_,
    downTick_pressAll (htools .down) flags, downTick_drag (htools .move) flags,
    hdragged.downTick_liftAll hle (htools .up) flags⟩
  rcases hpressed.exists_drag hsome (htools .move) flags with
    ⟨hempty, hnone⟩ | ⟨e, hone, -, -, hlists⟩
  · rw [hnone, hempty]
    exact iff_of_false (fun ⟨_, hmem, _⟩ ↦ List.not_mem_nil hmem) List.not_mem_nil
  · rw [hone, ← hlists]
    constructor
    · rintro ⟨only, hmem, hpointer⟩
      rwa [List.mem_singleton.1 hmem] at hpointer
    · exact fun hpointer ↦ ⟨e, List.mem_singleton_self e, hpointer⟩

end Gesture

end ActionReplay
