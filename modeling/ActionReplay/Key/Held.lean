import ActionReplay.Key.Basic

/-!
# Held modifiers

The modifier keys that are down, and the flags they set on every event. Each key sets two flags: one
of its own, and one that it shares with the same key on the other side. Pressing holds the key beside
those held before (`HeldModifiers.mem_press`), and releasing holds all but it
(`HeldModifiers.mem_release`).
-/

set_option autoImplicit false
set_option relaxedAutoImplicit false

namespace ActionReplay

/-- The flag that a modifier shares with its twin. -/
def Modifier.sharedFlag : Modifier → UInt32
  | .shiftLeft | .shiftRight => 0x1
  | .altLeft | .altRight => 0x2
  | .ctrlLeft | .ctrlRight => 0x1000
  | .metaLeft | .metaRight => 0x10000

/-- The flag of one side. -/
def Modifier.sideFlag : Modifier → UInt32
  | .altLeft => 0x10
  | .altRight => 0x20
  | .shiftLeft => 0x40
  | .shiftRight => 0x80
  | .ctrlLeft => 0x2000
  | .ctrlRight => 0x4000
  | .metaLeft => 0x20000
  | .metaRight => 0x40000

def Modifier.mask (m : Modifier) : UInt32 :=
  m.sharedFlag ||| m.sideFlag

/-- The modifiers that are down. -/
abbrev HeldModifiers := List Modifier

namespace HeldModifiers

/-- Holds a modifier down; holding it twice changes nothing. -/
def press (held : HeldModifiers) (m : Modifier) : HeldModifiers :=
  if m ∈ held then held else m :: held

def release (held : HeldModifiers) (m : Modifier) : HeldModifiers :=
  held.filter (· ≠ m)

/-- The flags of every held modifier together. -/
def flags (held : HeldModifiers) : UInt32 :=
  held.foldr (fun m state ↦ m.mask ||| state) 0

theorem mem_press {held : HeldModifiers} {m other : Modifier} :
    other ∈ held.press m ↔ other = m ∨ other ∈ held := by
  rw [press]
  split
  · rename_i present
    exact ⟨.inr, fun | .inl same => same ▸ present | .inr member => member⟩
  · exact List.mem_cons

theorem mem_release {held : HeldModifiers} {m other : Modifier} :
    other ∈ held.release m ↔ other ∈ held ∧ other ≠ m := by
  simp [release]

end HeldModifiers

end ActionReplay
