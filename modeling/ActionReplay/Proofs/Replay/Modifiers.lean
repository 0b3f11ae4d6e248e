import ActionReplay.Proofs.Desktop.Flags
import ActionReplay.Proofs.Replay.Conserved
import Mathlib.Data.Finset.Dedup
import Mathlib.Data.Finset.Insert

/-!
# The modifiers an event is told with

Every event carries the flags of the modifiers that are held when it is told, and what is held is decided
by the key cues alone. Here the held modifiers are a set, and a key cue changes it by its code point: the
two code points that release everything empty it, whether they go down or up, a modifier is put in or taken
out, and any other leaves the set as it is (`KeyCue.hold`). The flags of a set are those of its members
together, whatever the order in which they were pressed (`Modifier.flagsOf`), and a flag without a side is
among them exactly if the key of one of its sides is held (`Modifier.flagsOf_and_flag_ne_zero_iff`).

The list that a replay keeps has the members of that set after every cue (`HeldModifiers.toFinset_after`),
and therefore its flags (`HeldModifiers.flags_eq`). So a key cue is told with the flags of what the key cues
before it have left held (`HeldModifiers.event?_signals`). Motions are told once all keys of their tick have
been taken, wherever these stand among its cues (`Timeline.flagsAt_eq`). The events that any device is
handed are told accordingly (`Timeline.metaState_of_dispatch`).
-/

set_option autoImplicit false
set_option relaxedAutoImplicit false

namespace ActionReplay

/-! ### Code points of modifiers -/

namespace Modifier

def codePoint : Modifier → UInt32
  | .shiftLeft => 0xe008
  | .ctrlLeft => 0xe009
  | .altLeft => 0xe00a
  | .metaLeft => 0xe03d
  | .shiftRight => 0xe050
  | .ctrlRight => 0xe051
  | .altRight => 0xe052
  | .metaRight => 0xe053

/-- The modifier that a code point names. -/
def ofCodePoint? (code : UInt32) : Option Modifier :=
  all.find? fun m ↦ m.codePoint = code

theorem mem_all (m : Modifier) : m ∈ all := by
  cases m <;> decide

theorem ofCodePoint?_codePoint (m : Modifier) : ofCodePoint? m.codePoint = some m := by
  cases m <;> decide

end Modifier

/-- The code points that release all modifiers. -/
def ReleasesAll (code : UInt32) : Prop :=
  code = 0 ∨ code = 0xe000

instance (code : UInt32) : Decidable (ReleasesAll code) :=
  inferInstanceAs (Decidable (_ ∨ _))

namespace Key

theorem ofCodePoint?_of_special? {code : UInt32} {key : Key} (hspecial : special? code = some key) :
    ofCodePoint? code = some key := by
  rw [ofCodePoint?, hspecial, Option.some_or]

theorem special?_of_ofCodePoint? {code : UInt32} {key : Key} (hkey : ofCodePoint? code = some key)
    (hspecial : ∀ c, key ≠ .stroke (.char c)) : special? code = some key := by
  rw [ofCodePoint?, Option.or_eq_some_iff] at hkey
  obtain hkey | ⟨-, hkey⟩ := hkey
  · exact hkey
  · obtain ⟨c, -, rfl⟩ := Option.map_eq_some_iff.1 hkey
    exact absurd rfl (hspecial c)

theorem ofCodePoint?_eq_releaseAll_iff {code : UInt32} :
    ofCodePoint? code = some .releaseAll ↔ ReleasesAll code := by
  constructor
  · intro hkey
    have hspecial := special?_of_ofCodePoint? hkey fun _ ↦ nofun
    unfold special? at hspecial
    split at hspecial
    · exact .inl rfl
    · exact .inr rfl
    all_goals cases hspecial
  · rintro (rfl | rfl)
    · exact ofCodePoint?_of_special? rfl
    · exact ofCodePoint?_of_special? rfl

theorem ofCodePoint?_eq_modifier_iff {code : UInt32} {m : Modifier} :
    ofCodePoint? code = some (.modifier m) ↔ code = m.codePoint := by
  constructor
  · intro hkey
    have hspecial := special?_of_ofCodePoint? hkey fun _ ↦ nofun
    unfold special? at hspecial
    split at hspecial <;> cases hspecial <;> rfl
  · rintro rfl
    apply ofCodePoint?_of_special?
    cases m <;> rfl

end Key

/-! ### The held modifiers as a set -/

/-- What a key cue makes of the modifiers that are held. -/
def KeyCue.hold (held : Finset Modifier) (cue : KeyCue) : Finset Modifier :=
  if ReleasesAll cue.codePoint then ∅
  else
    match Modifier.ofCodePoint? cue.codePoint, cue.action with
    | some m, .down => insert m held
    | some m, .up => held.erase m
    | none, _ => held

namespace HeldModifiers

theorem toFinset_press (held : HeldModifiers) (m : Modifier) :
    (held.press m).toFinset = insert m held.toFinset := by
  ext other
  rw [List.mem_toFinset, mem_press, Finset.mem_insert, List.mem_toFinset]

theorem toFinset_release (held : HeldModifiers) (m : Modifier) :
    (held.release m).toFinset = held.toFinset.erase m := by
  ext other
  rw [List.mem_toFinset, mem_release, Finset.mem_erase, List.mem_toFinset, and_comm]

/-- After a key cue the list has the members of the set. -/
theorem toFinset_after (held : HeldModifiers) (cue : KeyCue) :
    (held.after cue).toFinset = cue.hold held.toFinset := by
  have hplain (hnone : ∀ m, Key.ofCodePoint? cue.codePoint ≠ some (.modifier m)) :
      Modifier.ofCodePoint? cue.codePoint = none := by
    apply List.find?_eq_none.2
    intro m _ hsame
    exact hnone m (Key.ofCodePoint?_eq_modifier_iff.2 (of_decide_eq_true hsame).symm)
  unfold after KeyCue.hold
  cases hkey : Key.ofCodePoint? cue.codePoint with
  | none =>
    rw [if_neg fun hall ↦ by simp [Key.ofCodePoint?_eq_releaseAll_iff.2 hall] at hkey,
      hplain fun m ↦ by simp [hkey]]
  | some key =>
    cases key with
    | releaseAll =>
      rw [if_pos (Key.ofCodePoint?_eq_releaseAll_iff.1 hkey)]
      rfl
    | stroke stroke =>
      rw [if_neg fun hall ↦ by simp [Key.ofCodePoint?_eq_releaseAll_iff.2 hall] at hkey,
        hplain fun m ↦ by simp [hkey]]
    | modifier m =>
      rw [if_neg fun hall ↦ by simp [Key.ofCodePoint?_eq_releaseAll_iff.2 hall] at hkey,
        Key.ofCodePoint?_eq_modifier_iff.1 hkey, Modifier.ofCodePoint?_codePoint]
      cases cue.action with
      | down => exact held.toFinset_press m
      | up => exact held.toFinset_release m

end HeldModifiers

/-! ### Flags -/

namespace Modifier

open Word32

/-- The flags of a set of modifiers together. -/
def flagsOf (held : Finset Modifier) : UInt32 :=
  (all.filter (· ∈ held)).foldr (fun m flags ↦ m.mask ||| flags) 0

theorem has_flagsOf {held : Finset Modifier} {bit : Nat} :
    has (flagsOf held) bit = true ↔ ∃ m ∈ held, has m.mask bit = true := by
  simp [flagsOf, has_foldr_or, List.any_eq_true, mem_all]

end Modifier

theorem HeldModifiers.flags_eq (held : HeldModifiers) :
    held.flags = Modifier.flagsOf held.toFinset := by
  refine Word32.ext_has fun bit ↦ Bool.eq_iff_iff.2 ?_
  rw [Modifier.has_flagsOf, flags, Word32.has_foldr_or, List.any_eq_true]
  simp only [List.mem_toFinset]

namespace DesktopModifier

/-- The left one of the two keys that set a flag. -/
def left : DesktopModifier → Modifier
  | .shift => .shiftLeft
  | .control => .ctrlLeft
  | .alt => .altLeft
  | .metaKey => .metaLeft

/-- The right one of the two keys that set a flag. -/
def right : DesktopModifier → Modifier
  | .shift => .shiftRight
  | .control => .ctrlRight
  | .alt => .altRight
  | .metaKey => .metaRight

theorem has_mask_bit {g : DesktopModifier} {m : Modifier} :
    Word32.has m.mask g.bit = true ↔ m = g.left ∨ m = g.right := by
  cases g <;> cases m <;> decide

end DesktopModifier

/-- A flag without a side is set exactly if the key of one of its sides is held. -/
theorem Modifier.flagsOf_and_flag_ne_zero_iff (held : Finset Modifier) (g : DesktopModifier) :
    flagsOf held &&& g.flag ≠ 0 ↔ g.left ∈ held ∨ g.right ∈ held := by
  rw [g.and_flag_ne_zero_iff, has_flagsOf]
  simp only [DesktopModifier.has_mask_bit]
  constructor
  · rintro ⟨m, hm, rfl | rfl⟩
    · exact .inl hm
    · exact .inr hm
  · rintro (hleft | hright)
    · exact ⟨g.left, hleft, .inl rfl⟩
    · exact ⟨g.right, hright, .inr rfl⟩

/-! ### Strokes -/

namespace KeyCue

open Modifier

/-- The stroke that tells a key cue, if it is one. -/
def stroke? (flags : UInt32) (cue : KeyCue) : Option KeyEvent :=
  match Key.ofCodePoint? cue.codePoint with
  | some (.stroke stroke) =>
    some { downTick := cue.entry, action := cue.action, stroke, metaState := flags }
  | _ => none

/-- The strokes that tell key cues, each with the flags of the modifiers that the cues before it leave
held. -/
def strokes (held : Finset Modifier) (cues : List KeyCue) : List KeyEvent :=
  cues.zipIdx.filterMap fun (cue, place) ↦
    cue.stroke? (flagsOf ((cues.take place).foldl hold held))

theorem strokes_cons (held : Finset Modifier) (cue : KeyCue) (rest : List KeyCue) :
    strokes held (cue :: rest) =
      (cue.stroke? (flagsOf held)).toList ++ strokes (cue.hold held) rest := by
  have hlater : (rest.zipIdx 1).filterMap (fun (later, place) ↦
      later.stroke? (flagsOf (((cue :: rest).take place).foldl hold held))) =
        strokes (cue.hold held) rest := by
    rw [List.zipIdx_succ, List.filterMap_map]
    rfl
  rw [strokes, List.zipIdx_cons, ← hlater]
  cases hstroke : cue.stroke? (flagsOf held) with
  | none => exact List.filterMap_cons_none hstroke
  | some stroke => exact List.filterMap_cons_some hstroke

/-- Neither modifiers nor the keys that release them all are told. -/
theorem stroke?_eq_none {cue : KeyCue}
    (hholds : ReleasesAll cue.codePoint ∨ ∃ m : Modifier, cue.codePoint = m.codePoint)
    (flags : UInt32) : cue.stroke? flags = none := by
  unfold stroke?
  obtain hall | ⟨m, hm⟩ := hholds
  · rw [Key.ofCodePoint?_eq_releaseAll_iff.2 hall]
  · rw [Key.ofCodePoint?_eq_modifier_iff.2 hm]

end KeyCue

namespace HeldModifiers

theorem event?_signal? (held : HeldModifiers) (cue : KeyCue) :
    (held.signal? cue).toList.filterMap Signal.event? =
      (cue.stroke? held.flags).toList.map .key := by
  unfold signal? KeyCue.stroke?
  match Key.ofCodePoint? cue.codePoint with
  | some (.stroke _) => rfl
  | some (.modifier _) => rfl
  | some .releaseAll => rfl
  | none => rfl

theorem event?_signals (held : HeldModifiers) (cues : List KeyCue) :
    (held.signals cues).1.filterMap Signal.event? =
      (KeyCue.strokes held.toFinset cues).map .key := by
  induction cues generalizing held with
  | nil => rfl
  | cons cue rest ih =>
    have hsplit : (held.signals (cue :: rest)).1 =
        (held.signal? cue).toList ++ ((held.after cue).signals rest).1 := rfl
    rw [hsplit, List.filterMap_append, event?_signal?, ih, KeyCue.strokes_cons, toFinset_after,
      flags_eq, List.map_append]

theorem toFinset_signals (held : HeldModifiers) (cues : List KeyCue) :
    (held.signals cues).2.toFinset = cues.foldl KeyCue.hold held.toFinset := by
  induction cues generalizing held with
  | nil => rfl
  | cons cue rest ih =>
    rw [List.foldl_cons, ← toFinset_after]
    exact ih (held.after cue)

end HeldModifiers

/-! ### Ticks -/

namespace Timeline

open Modifier

variable (t : Timeline)

/-- The modifiers that the key cues of earlier ticks leave held, taken tick by tick. -/
def heldBefore (tick : Tick) : Finset Modifier :=
  ((List.range tick).flatMap t.keysAt).foldl KeyCue.hold ∅

theorem heldBefore_succ (tick : Tick) :
    t.heldBefore (tick + 1) = (t.keysAt tick).foldl KeyCue.hold (t.heldBefore tick) := by
  rw [heldBefore, List.range_succ, List.flatMap_append, List.flatMap_singleton, List.foldl_append]
  rfl

theorem toFinset_heldBefore (tick : Tick) :
    (t.stateBefore tick).held.toFinset = t.heldBefore tick := by
  induction tick with
  | zero =>
    rw [stateBefore_zero]
    rfl
  | succ tick ih =>
    rw [stateBefore_succ, heldBefore_succ, ← ih]
    exact HeldModifiers.toFinset_signals _ (t.keysAt tick)

/-- Motions are told with the flags of all key cues up to their tick. -/
theorem flagsAt_eq (tick : Tick) : t.flagsAt tick = flagsOf (t.heldBefore (tick + 1)) := by
  rw [flagsAt, HeldModifiers.flags_eq, HeldModifiers.toFinset_signals, toFinset_heldBefore,
    heldBefore_succ]
  rfl

/-- The events of a tick are the strokes of its key cues and then motions, which are told with the flags of
all key cues up to the tick. -/
theorem exists_motions (tick : Tick) : ∃ motions,
    t.eventsAt tick =
        (KeyCue.strokes (t.heldBefore tick) (t.keysAt tick)).map .key ++ motions ∧
      ∀ event ∈ motions, ∃ e : MotionEvent,
        event = .motion e ∧ e.metaState = flagsOf (t.heldBefore (tick + 1)) := by
  refine ⟨_, by rw [eventsAt_eq, HeldModifiers.event?_signals, toFinset_heldBefore]; rfl, ?_⟩
  intro event hevent
  obtain ⟨tool, -, htold⟩ := List.mem_flatMap.1 hevent
  obtain ⟨cue, -, action, pointers, button, -, rfl⟩ := Gesture.tells_replay _ _ _ event htold
  exact ⟨_, rfl, t.flagsAt_eq tick⟩

/-- Whatever timeline a device is handed, and whether the time is kept or not: the events come tick by tick,
and the flags they carry are those of the modifiers held at that point, which is decided by folding the key
cues in order of their ticks and, at a tick, in the order of the cues. A key cue that is a stroke is told
with what the key cues before it leave held, and a motion with what all key cues up to its tick leave held.
Modifiers and the keys that release them are not told. A flag without a side is set exactly if the left or
the right key of the modifier is held. -/
theorem metaState_of_dispatch (t : Timeline) {σ : Type} (device : Device σ) (pacing : Bool)
    (memory : σ) :
    (device.answers pacing memory t).map Prod.fst = t.ticks.flatMap t.eventsAt ∧
      t.ticks.Pairwise (· < ·) ∧
      (∀ tick, ∃ motions,
        t.eventsAt tick =
            (KeyCue.strokes (t.heldBefore tick) (t.keysAt tick)).map .key ++ motions ∧
          ∀ event ∈ motions, ∃ e : MotionEvent,
            event = .motion e ∧ e.metaState = flagsOf (t.heldBefore (tick + 1))) ∧
      (∀ cue : KeyCue, ReleasesAll cue.codePoint ∨ (∃ m : Modifier, cue.codePoint = m.codePoint) →
        ∀ flags, cue.stroke? flags = none) ∧
      ∀ (held : Finset Modifier) (g : DesktopModifier),
        flagsOf held &&& g.flag ≠ 0 ↔ g.left ∈ held ∨ g.right ∈ held :=
  ⟨by rw [device.map_fst_answers, filterMap_signals], t.ticks_pairwise, t.exists_motions,
    fun _ ↦ KeyCue.stroke?_eq_none, flagsOf_and_flag_ne_zero_iff⟩

/-- The shift of a tick comes after its motion, and the motion is told with it; the letter before it is
not. -/
example :
    let down (codePoint : UInt32) : Cue := .key ⟨0, .down, codePoint⟩
    let t := [down 0x61, .motion ⟨0, .down, ⟨0, 0, 1, 1⟩, 0, 7, .finger⟩, down 0xe050].foldl
      (fun t cue ↦ t.add 0 cue) empty
    (t.eventsAt 0).map InputEvent.metaState = [0, 0x81] := by
  decide +kernel

end Timeline

end ActionReplay
