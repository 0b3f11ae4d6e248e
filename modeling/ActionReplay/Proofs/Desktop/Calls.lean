import ActionReplay.Proofs.Desktop.Flags
import ActionReplay.Proofs.Desktop.Held

/-!
# A desktop between calls

A desktop is handed events, switched in and out of its dry run, and asked to release its modifiers, in any
order (`Desktop.Call`). In a dry run, bringing modifiers up to date takes their flags over from the wanted
ones (`Desktop.syncEach_of_dryRun`), though it turns them one at a time and only where they differ; outside
of one it changes nothing, and succeeds exactly if nothing differs (`Desktop.syncEach_of_not_dryRun`). What
follows for an event (`Desktop.act_of_dryRun`, `Desktop.act_of_not_dryRun`) and for a release
(`Desktop.releaseModifiers_of_dryRun`, `Desktop.releaseModifiers_of_not_dryRun`) needs only that the flags
held are those of modifiers (`Desktop.Known`), which every call keeps (`Desktop.Known.call`).

So after any calls (`Desktop.honest_after`) an event that is delivered was only pretended, and has left its
own modifiers held; one that is not has left no trace; what is held changes in a dry run alone; and a
release fails exactly if there is something to release and no dry run (`Desktop.Honest`).
-/

set_option autoImplicit false
set_option relaxedAutoImplicit false

namespace ActionReplay

namespace Desktop

open Word32 DesktopModifier

variable {d : Desktop}

/-! ### Bringing modifiers up to date -/

/-- Assumes: a dry run. The flags of the modifiers are taken over from the wanted ones, those too on which
the two agree, since that changes nothing. -/
theorem syncEach_of_dryRun (hdry : d.dryRun = true) (wanted : UInt32)
    (modifiers : List DesktopModifier) :
    ∃ records, d.syncEach wanted modifiers =
      (.ok (), records, { d with held := takeOver (flags modifiers) wanted d.held }) := by
  induction modifiers generalizing d with
  | nil => exact ⟨[], by rw [flags, List.foldr_nil, takeOver_zero]; rfl⟩
  | cons m rest ih =>
    have hheld : takeOver (flags (m :: rest)) wanted d.held =
        takeOver (flags rest) wanted (takeOver m.flag wanted d.held) :=
      takeOver_takeOver.symm
    rw [syncEach, hheld]
    split_ifs with hsame
    · rw [takeOver_eq_self_iff.2 ((agree_iff m).1 hsame)]
      exact ih hdry
    · obtain ⟨records, hrest⟩ :=
        ih (d := { d with held := takeOver m.flag wanted d.held }) hdry
      rw [xor_flag m hsame]
      exact ⟨_, by rw [hrest]⟩

/-- Assumes: no dry run. Nothing changes, and the pass succeeds exactly if nothing was to be changed. -/
theorem syncEach_of_not_dryRun (hdry : d.dryRun = false) (wanted : UInt32)
    (modifiers : List DesktopModifier) :
    d.syncEach wanted modifiers =
      (if wanted &&& flags modifiers = d.held &&& flags modifiers then .ok ()
        else .error .noDevice, [], d) := by
  induction modifiers with
  | nil =>
    have hnone : wanted &&& flags [] = d.held &&& flags [] := by
      rw [flags, List.foldr_nil, UInt32.and_zero, UInt32.and_zero]
    rw [syncEach, if_pos hnone]
  | cons m rest ih =>
    have hcons : wanted &&& flags (m :: rest) = d.held &&& flags (m :: rest) ↔
        (wanted &&& m.flag ≠ 0) = (d.held &&& m.flag ≠ 0) ∧
          wanted &&& flags rest = d.held &&& flags rest := by
      rw [agree_iff]
      exact and_or_eq_and_or_iff
    simp only [syncEach, hcons, hdry, Bool.false_eq_true, if_false]
    by_cases hsame : (wanted &&& m.flag ≠ 0) = (d.held &&& m.flag ≠ 0)
    · rw [if_pos hsame, ih]
      simp only [hsame, true_and]
    · rw [if_neg hsame, if_neg fun hall ↦ hsame hall.1]

/-- The flags of the modifiers that a desktop can hold. -/
def modifierFlags : UInt32 := flags DesktopModifier.all

/-- A desktop that holds nothing but modifiers. -/
def Known (d : Desktop) : Prop :=
  d.held &&& modifierFlags = d.held

/-- Assumes: a dry run of a desktop that holds nothing but modifiers. Of the wanted flags those of
modifiers are held. -/
theorem sync_of_dryRun (hd : d.Known) (hdry : d.dryRun = true) (wanted : UInt32) :
    ∃ records,
      d.sync wanted = (.ok (), records, { d with held := wanted &&& modifierFlags }) := by
  obtain ⟨records, hsynced⟩ := syncEach_of_dryRun hdry wanted DesktopModifier.all
  exact ⟨records, by rw [sync, hsynced, ← takeOver_of_and_eq hd, modifierFlags]⟩

/-! ### Releases -/

theorem releaseModifiers_of_dryRun (hd : d.Known) (hdry : d.dryRun = true) :
    ∃ records, d.releaseModifiers = (.ok (), records, { d with held := 0 }) := by
  obtain ⟨records, hsynced⟩ := sync_of_dryRun hd hdry 0
  exact ⟨records, by rw [releaseModifiers, hsynced, UInt32.zero_and]⟩

theorem releaseModifiers_of_not_dryRun (hd : d.Known) (hdry : d.dryRun = false) :
    d.releaseModifiers = (if d.held = 0 then .ok () else .error .noDevice, [], d) := by
  have hnone : 0 &&& modifierFlags = d.held &&& modifierFlags ↔ d.held = 0 := by
    rw [hd, UInt32.zero_and, eq_comm]
  rw [releaseModifiers, sync, syncEach_of_not_dryRun hdry]
  exact congrArg (·, [], d) (if_congr hnone rfl rfl)

/-! ### Events -/

theorem act_of_dryRun (hd : d.Known) (hdry : d.dryRun = true) (metaState : UInt32)
    (said : LogRecord) :
    ∃ records,
      d.act metaState said = (.ok true, records, { d with held := metaState &&& modifierFlags }) := by
  obtain ⟨records, hsynced⟩ := sync_of_dryRun hd hdry metaState
  refine ⟨records ++ [said], ?_⟩
  rw [act, hsynced]
  exact if_pos hdry

/-- Assumes: no dry run. Whether the modifiers differ or not, the first use of the device fails. -/
theorem act_of_not_dryRun (hdry : d.dryRun = false) (metaState : UInt32) (said : LogRecord) :
    d.act metaState said = (.error .noDevice, [], d) := by
  rw [act, sync, syncEach_of_not_dryRun hdry]
  split_ifs
  · exact if_neg (by rw [hdry]; exact Bool.false_ne_true)
  · rfl

/-- An event is refused and leaves no trace, or it is delivered in a dry run, and the modifiers held after
it are its own. -/
theorem deliver_cases (hd : d.Known) (e : InputEvent) :
    ((d.deliver e).1 = false ∧ (d.deliver e).2.2 = d) ∨
      ((d.deliver e).1 = true ∧ d.dryRun = true ∧
        (d.deliver e).2.2 = { d with held := e.metaState &&& modifierFlags }) := by
  unfold deliver
  obtain ⟨r, hwarned, -⟩ | ⟨said, hacted, -⟩ := d.attempt_cases e
  · rw [hwarned]
    exact .inl ⟨rfl, rfl⟩
  · rw [hacted]
    obtain hdry | hdry := Bool.eq_false_or_eq_true d.dryRun
    · obtain ⟨records, hact⟩ := act_of_dryRun hd hdry e.metaState said
      rw [hact]
      exact .inr ⟨rfl, hdry, rfl⟩
    · rw [act_of_not_dryRun hdry]
      exact .inl ⟨rfl, rfl⟩

/-! ### Calls -/

/-- What is asked of a desktop. -/
inductive Call where
  | deliver (e : InputEvent)
  | setDryRun (dryRun : Bool)
  | releaseModifiers

/-- The desktop after a call. -/
def call (d : Desktop) : Call → Desktop
  | .deliver e => (d.deliver e).2.2
  | .setDryRun dryRun => d.setDryRun dryRun
  | .releaseModifiers => d.releaseModifiers.2.2

/-- The desktop after calls, in order. -/
def after (d : Desktop) (calls : List Call) : Desktop :=
  calls.foldl call d

theorem known_of_held_eq {wanted : UInt32} (hheld : d.held = wanted &&& modifierFlags) : d.Known := by
  rw [Known, hheld, UInt32.and_assoc, UInt32.and_self]

namespace Known

theorem call (hd : d.Known) (c : Call) : (d.call c).Known := by
  cases c with
  | deliver e =>
    change (d.deliver e).2.2.Known
    obtain ⟨-, hsame⟩ | ⟨-, -, hheld⟩ := deliver_cases hd e
    · rwa [hsame]
    · rw [hheld]
      exact known_of_held_eq rfl
  | setDryRun dryRun => exact hd
  | releaseModifiers =>
    change d.releaseModifiers.2.2.Known
    cases hdry : d.dryRun with
    | true =>
      obtain ⟨records, hreleased⟩ := releaseModifiers_of_dryRun hd hdry
      rw [hreleased]
      exact known_of_held_eq UInt32.zero_and.symm
    | false => rwa [releaseModifiers_of_not_dryRun hd hdry]

theorem after (hd : d.Known) (calls : List Call) : (d.after calls).Known := by
  induction calls generalizing d with
  | nil => exact hd
  | cons c rest ih => exact ih (hd.call c)

/-- Outside of a dry run no call changes what is held. -/
theorem held_call (hd : d.Known) (hdry : d.dryRun = false) (c : Call) : (d.call c).held = d.held := by
  cases c with
  | deliver e =>
    change (d.deliver e).2.2.held = d.held
    obtain ⟨-, hsame⟩ | ⟨-, hpretended, -⟩ := deliver_cases hd e
    · rw [hsame]
    · rw [hdry] at hpretended
      cases hpretended
  | setDryRun dryRun => rfl
  | releaseModifiers =>
    change d.releaseModifiers.2.2.held = d.held
    rw [releaseModifiers_of_not_dryRun hd hdry]

end Known

/-- What the answers of a desktop say about what it holds. -/
structure Honest (d : Desktop) : Prop where
  known : d.Known
  delivered : ∀ e, (d.deliver e).1 = true →
    d.dryRun = true ∧ (d.deliver e).2.2 = { d with held := e.metaState &&& modifierFlags }
  refused : ∀ e, (d.deliver e).1 = false → (d.deliver e).2.2 = d
  idle : d.dryRun = false → ∀ c, (d.call c).held = d.held
  releases : d.releaseModifiers.1 = .ok () ↔ d.dryRun = true ∨ d.held = 0
  released : d.releaseModifiers.1 = .ok () → d.releaseModifiers.2.2 = { d with held := 0 }

theorem Known.honest (hd : d.Known) : d.Honest where
  known := hd
  delivered := by
    intro e hdelivered
    obtain ⟨hrefused, -⟩ | ⟨-, hpretended⟩ := deliver_cases hd e
    · rw [hrefused] at hdelivered
      cases hdelivered
    · exact hpretended
  refused := by
    intro e hrefused
    obtain ⟨-, hsame⟩ | ⟨hdelivered, -⟩ := deliver_cases hd e
    · exact hsame
    · rw [hdelivered] at hrefused
      cases hrefused
  idle := hd.held_call
  releases := by
    obtain hdry | hdry := Bool.eq_false_or_eq_true d.dryRun
    · obtain ⟨records, hreleased⟩ := releaseModifiers_of_dryRun hd hdry
      rw [hreleased]
      exact iff_of_true rfl (.inl hdry)
    · rw [releaseModifiers_of_not_dryRun hd hdry, hdry]
      split_ifs with hnone
      · exact iff_of_true rfl (.inr hnone)
      · exact iff_of_false nofun (not_or.2 ⟨not_false, hnone⟩)
  released := by
    intro hok
    obtain hdry | hdry := Bool.eq_false_or_eq_true d.dryRun
    · obtain ⟨records, hreleased⟩ := releaseModifiers_of_dryRun hd hdry
      rw [hreleased]
    · rw [releaseModifiers_of_not_dryRun hd hdry] at hok ⊢
      split_ifs at hok with hnone
      rw [← hnone]

/-- After any calls on a desktop that held nothing, whether it was made for a dry run or not, its answers
say what became of the modifiers it holds. -/
theorem honest_after (dryRun : Bool) (calls : List Call) :
    (after { dryRun } calls).Honest :=
  ((known_of_held_eq UInt32.zero_and.symm : Known { dryRun }).after calls).honest

/-- Of the flags of an event only those of modifiers are held, and outside of the dry run they stay. -/
example : after { dryRun := true }
    [.deliver (.key { downTick := 0, action := .down, stroke := .char 'a', metaState := 0x1041 }),
      .setDryRun false, .releaseModifiers] = { dryRun := false, held := 0x1001 } := by
  decide

end Desktop

end ActionReplay
