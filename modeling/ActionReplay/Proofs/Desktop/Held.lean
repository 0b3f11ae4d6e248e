import ActionReplay.Desktop.Backend
import Mathlib.Tactic.SplitIfs

/-!
# The modifiers a desktop holds

A desktop turns its modifiers on and off one flag at a time, so what it holds is always one of the sets
that its modifiers can form (`Desktop.modifierSets`). In a dry run it goes through these sets; otherwise
the first use of the device fails before anything changes, so a desktop that held nothing goes on
holding nothing. Both are kept by whatever it is handed (`Desktop.Sound.deliver`). From any such state a
release of the modifiers leaves none (`Desktop.Sound.releaseModifiers`). No event goes by unheard: a
desktop warns of it or acts on it (`Desktop.attempt_cases`), and says something of it either way
(`Desktop.exists_said`).
-/

set_option autoImplicit false
set_option relaxedAutoImplicit false

namespace ActionReplay

/-- The flags of every set of some modifiers. -/
def DesktopModifier.sets : List DesktopModifier → List UInt32
  | [] => [0]
  | m :: rest => sets rest ++ (sets rest).map fun flags ↦ flags ||| m.flag

namespace Desktop

variable {d : Desktop} {dryRun : Bool}

/-! ### What a desktop does with an event -/

/-- A record that comes from the desktop. -/
def Speaks (r : LogRecord) : Prop :=
  r.target = "actionforge::actions"

/-- A desktop meets an event with a warning, or acts. -/
theorem attempt_cases (d : Desktop) (e : InputEvent) :
    (∃ r, d.attempt e = (.ok false, [r], d) ∧ Speaks r) ∨
      ∃ said, d.attempt e = d.act e.metaState said ∧ Speaks said := by
  cases e with
  | motion e =>
    change (∃ r, d.motion e = _ ∧ Speaks r) ∨ ∃ said, d.motion e = _ ∧ Speaks said
    unfold motion
    cases e.primary? with
    | none => exact .inl ⟨_, rfl, rfl⟩
    | some pointer =>
      cases e.action.index? with
      | some index => exact .inl ⟨_, rfl, rfl⟩
      | none => exact .inr ⟨_, rfl, rfl⟩
  | key e =>
    change (∃ r, d.key e = _ ∧ Speaks r) ∨ ∃ said, d.key e = _ ∧ Speaks said
    unfold key
    cases e.stroke.desktopName? with
    | none => exact .inl ⟨_, rfl, rfl⟩
    | some name => exact .inr ⟨_, rfl, rfl⟩

theorem deliver_snd_snd (d : Desktop) (e : InputEvent) :
    (d.deliver e).2.2 = (d.attempt e).2.2 := by
  unfold deliver
  obtain ⟨result, records, after⟩ := d.attempt e
  cases result with
  | ok => rfl
  | error => rfl

/-! ### What a desktop holds -/

/-- What a desktop can hold. -/
def modifierSets : List UInt32 := DesktopModifier.sets DesktopModifier.all

/-- Checked set by set (`List.all`), since a quantifier over words may be decided by trying every word. -/
theorem xor_flag_mem : ∀ held ∈ modifierSets, ∀ m ∈ DesktopModifier.all,
    held ^^^ m.flag ∈ modifierSets := by
  have hall : modifierSets.all fun held ↦
      DesktopModifier.all.all fun m ↦ modifierSets.contains (held ^^^ m.flag) := by
    decide
  simpa using hall

theorem held_releaseModifiers : ∀ held ∈ modifierSets,
    ({ dryRun := true, held : Desktop }.releaseModifiers).2.2 = { dryRun := true } := by
  have hall : modifierSets.all fun held ↦
      ({ dryRun := true, held : Desktop }.releaseModifiers).2.2 = { dryRun := true } := by
    decide
  simpa using hall

/-- A desktop in the given mode that holds a set of its modifiers, and none outside of a dry run. -/
structure Sound (dryRun : Bool) (d : Desktop) : Prop where
  mode : d.dryRun = dryRun
  known : d.held ∈ modifierSets
  idle : dryRun = false → d.held = 0

theorem sound_of_held (hmode : d.dryRun = dryRun) (hheld : d.held = 0) : d.Sound dryRun :=
  ⟨hmode, by rw [hheld]; decide, fun _ ↦ hheld⟩

namespace Sound

/-- Bringing modifiers up to date turns single flags, and none outside of a dry run. -/
theorem syncEach (hd : d.Sound dryRun) (wanted : UInt32) {modifiers : List DesktopModifier}
    (hmodifiers : modifiers ⊆ DesktopModifier.all) :
    (d.syncEach wanted modifiers).2.2.Sound dryRun := by
  induction modifiers generalizing d with
  | nil => exact hd
  | cons m rest ih =>
    obtain ⟨hm, hrest⟩ := List.cons_subset.1 hmodifiers
    rw [Desktop.syncEach]
    split_ifs with hsame hdry
    · exact ih hd hrest
    · have hturned : { d with held := d.held ^^^ m.flag }.Sound dryRun := by
        refine ⟨hd.mode, xor_flag_mem d.held hd.known m hm, fun hwet ↦ ?_⟩
        rw [hd.mode, hwet] at hdry
        exact absurd hdry Bool.false_ne_true
      exact ih hturned hrest
    · exact hd

theorem sync (hd : d.Sound dryRun) (wanted : UInt32) : (d.sync wanted).2.2.Sound dryRun :=
  hd.syncEach wanted (List.Subset.refl _)

theorem act (hd : d.Sound dryRun) (metaState : UInt32) (said : LogRecord) :
    (d.act metaState said).2.2.Sound dryRun := by
  have hsynced := hd.sync metaState
  unfold Desktop.act
  generalize d.sync metaState = synced at hsynced
  obtain ⟨result, records, after⟩ := synced
  cases result with
  | error => exact hsynced
  | ok =>
    change (if after.dryRun then _ else _ : Attempt Bool).2.2.Sound dryRun
    split_ifs with hdry
    · exact hsynced
    · exact hsynced

theorem attempt (hd : d.Sound dryRun) (e : InputEvent) : (d.attempt e).2.2.Sound dryRun := by
  obtain ⟨r, hwarned, -⟩ | ⟨said, hacted, -⟩ := d.attempt_cases e
  · rwa [hwarned]
  · rw [hacted]
    exact hd.act e.metaState said

theorem deliver (hd : d.Sound dryRun) (e : InputEvent) : (d.deliver e).2.2.Sound dryRun := by
  rw [deliver_snd_snd]
  exact hd.attempt e

/-- Released, a desktop holds nothing, whatever it was handed before. -/
theorem releaseModifiers (hd : d.Sound dryRun) : d.releaseModifiers.2.2 = { dryRun } := by
  obtain ⟨mode, held⟩ := d
  obtain ⟨rfl, hknown, hidle⟩ := hd
  cases mode with
  | true => exact held_releaseModifiers held hknown
  | false =>
    obtain rfl : held = 0 := hidle rfl
    decide

end Sound

/-! ### What a desktop says -/

theorem exists_speaks_act (d : Desktop) (metaState : UInt32) {said : LogRecord}
    (hsaid : Speaks said) :
    (∃ r ∈ (d.act metaState said).2.1, Speaks r) ∨
      ∃ fault, (d.act metaState said).1 = .error fault := by
  unfold act
  obtain ⟨result, records, after⟩ := d.sync metaState
  cases result with
  | error fault => exact .inr ⟨fault, rfl⟩
  | ok =>
    dsimp only
    split_ifs with hdry
    · exact .inl ⟨said, List.mem_append_right _ List.mem_cons_self, hsaid⟩
    · exact .inr ⟨.noDevice, rfl⟩

theorem exists_speaks_attempt (d : Desktop) (e : InputEvent) :
    (∃ r ∈ (d.attempt e).2.1, Speaks r) ∨ ∃ fault, (d.attempt e).1 = .error fault := by
  obtain ⟨r, hwarned, hr⟩ | ⟨said, hacted, hsaid⟩ := d.attempt_cases e
  · rw [hwarned]
    exact .inl ⟨r, List.mem_cons_self, hr⟩
  · rw [hacted]
    exact d.exists_speaks_act e.metaState hsaid

/-- Of every event it is handed a desktop says something. -/
theorem exists_said (d : Desktop) (e : InputEvent) : ∃ r ∈ (d.deliver e).2.1, Speaks r := by
  have hattempt := d.exists_speaks_attempt e
  unfold deliver
  generalize d.attempt e = attempted at hattempt
  obtain ⟨result, records, after⟩ := attempted
  cases result with
  | ok =>
    obtain hsaid | ⟨fault, hfault⟩ := hattempt
    · exact hsaid
    · cases hfault
  | error => exact ⟨_, List.mem_append_right _ List.mem_cons_self, rfl⟩

end Desktop

end ActionReplay
