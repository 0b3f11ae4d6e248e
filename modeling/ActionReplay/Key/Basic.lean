/-!
# Keys

What a key value means. A key value is one code point: those of a private block name special keys,
every other one is the character it is. `Key.ofCodePoint?` is the table.
-/

set_option autoImplicit false
set_option relaxedAutoImplicit false

namespace ActionReplay

inductive Modifier where
  | shiftLeft
  | shiftRight
  | ctrlLeft
  | ctrlRight
  | altLeft
  | altRight
  | metaLeft
  | metaRight
deriving DecidableEq, Inhabited

namespace Modifier

def all : List Modifier :=
  [shiftLeft, shiftRight, ctrlLeft, ctrlRight, altLeft, altRight, metaLeft, metaRight]

def name : Modifier → String
  | .shiftLeft => "ShiftLeft"
  | .shiftRight => "ShiftRight"
  | .ctrlLeft => "CtrlLeft"
  | .ctrlRight => "CtrlRight"
  | .altLeft => "AltLeft"
  | .altRight => "AltRight"
  | .metaLeft => "MetaLeft"
  | .metaRight => "MetaRight"

end Modifier

inductive NamedKey where
  | cancel
  | help
  | backspace
  | tab
  | clear
  | returnKey
  | enter
  | pause
  | escape
  | space
  | pageUp
  | pageDown
  | endKey
  | home
  | arrowLeft
  | arrowUp
  | arrowRight
  | arrowDown
  | insert
  | delete
  | f1
  | f2
  | f3
  | f4
  | f5
  | f6
  | f7
  | f8
  | f9
  | f10
  | f11
  | f12
  | zenkakuHankaku
deriving DecidableEq, Inhabited

def NamedKey.name : NamedKey → String
  | .cancel => "Cancel"
  | .help => "Help"
  | .backspace => "Backspace"
  | .tab => "Tab"
  | .clear => "Clear"
  | .returnKey => "Return"
  | .enter => "Enter"
  | .pause => "Pause"
  | .escape => "Escape"
  | .space => "Space"
  | .pageUp => "PageUp"
  | .pageDown => "PageDown"
  | .endKey => "End"
  | .home => "Home"
  | .arrowLeft => "ArrowLeft"
  | .arrowUp => "ArrowUp"
  | .arrowRight => "ArrowRight"
  | .arrowDown => "ArrowDown"
  | .insert => "Insert"
  | .delete => "Delete"
  | .f1 => "F1"
  | .f2 => "F2"
  | .f3 => "F3"
  | .f4 => "F4"
  | .f5 => "F5"
  | .f6 => "F6"
  | .f7 => "F7"
  | .f8 => "F8"
  | .f9 => "F9"
  | .f10 => "F10"
  | .f11 => "F11"
  | .f12 => "F12"
  | .zenkakuHankaku => "ZenkakuHankaku"

/-- A key that a device is told about. -/
inductive Stroke where
  | named (key : NamedKey)
  | char (c : Char)
deriving DecidableEq, Inhabited

/-- The meaning of a key value: release every held modifier, hold or release one, or a stroke. -/
inductive Key where
  | releaseAll
  | modifier (m : Modifier)
  | stroke (s : Stroke)
deriving DecidableEq, Inhabited

namespace Key

/-- The character at a code point, if it is a Unicode scalar value. -/
def scalar? (code : UInt32) : Option Char :=
  if h : code.isValidChar then some ⟨code, h⟩ else none

/-- The special keys. The keys of the number pad are typed as the characters they print. -/
def special? (code : UInt32) : Option Key :=
  match code with
  | 0x0 | 0xe000 => some .releaseAll
  | 0xe001 => some (.stroke (.named .cancel))
  | 0xe002 => some (.stroke (.named .help))
  | 0xe003 => some (.stroke (.named .backspace))
  | 0xe004 => some (.stroke (.named .tab))
  | 0xe005 => some (.stroke (.named .clear))
  | 0xe006 => some (.stroke (.named .returnKey))
  | 0xe007 => some (.stroke (.named .enter))
  | 0xe008 => some (.modifier .shiftLeft)
  | 0xe009 => some (.modifier .ctrlLeft)
  | 0xe00a => some (.modifier .altLeft)
  | 0xe00b => some (.stroke (.named .pause))
  | 0xe00c => some (.stroke (.named .escape))
  | 0xe00d => some (.stroke (.named .space))
  | 0xe00e | 0xe054 => some (.stroke (.named .pageUp))
  | 0xe00f | 0xe055 => some (.stroke (.named .pageDown))
  | 0xe010 | 0xe056 => some (.stroke (.named .endKey))
  | 0xe011 | 0xe057 => some (.stroke (.named .home))
  | 0xe012 | 0xe058 => some (.stroke (.named .arrowLeft))
  | 0xe013 | 0xe059 => some (.stroke (.named .arrowUp))
  | 0xe014 | 0xe05a => some (.stroke (.named .arrowRight))
  | 0xe015 | 0xe05b => some (.stroke (.named .arrowDown))
  | 0xe016 | 0xe05c => some (.stroke (.named .insert))
  | 0xe017 | 0xe05d => some (.stroke (.named .delete))
  | 0xe018 => some (.stroke (.char ';'))
  | 0xe019 => some (.stroke (.char '='))
  | 0xe01a => some (.stroke (.char '0'))
  | 0xe01b => some (.stroke (.char '1'))
  | 0xe01c => some (.stroke (.char '2'))
  | 0xe01d => some (.stroke (.char '3'))
  | 0xe01e => some (.stroke (.char '4'))
  | 0xe01f => some (.stroke (.char '5'))
  | 0xe020 => some (.stroke (.char '6'))
  | 0xe021 => some (.stroke (.char '7'))
  | 0xe022 => some (.stroke (.char '8'))
  | 0xe023 => some (.stroke (.char '9'))
  | 0xe024 => some (.stroke (.char '*'))
  | 0xe025 => some (.stroke (.char '+'))
  | 0xe026 => some (.stroke (.char ','))
  | 0xe027 => some (.stroke (.char '-'))
  | 0xe028 => some (.stroke (.char '.'))
  | 0xe029 => some (.stroke (.char '/'))
  | 0xe031 => some (.stroke (.named .f1))
  | 0xe032 => some (.stroke (.named .f2))
  | 0xe033 => some (.stroke (.named .f3))
  | 0xe034 => some (.stroke (.named .f4))
  | 0xe035 => some (.stroke (.named .f5))
  | 0xe036 => some (.stroke (.named .f6))
  | 0xe037 => some (.stroke (.named .f7))
  | 0xe038 => some (.stroke (.named .f8))
  | 0xe039 => some (.stroke (.named .f9))
  | 0xe03a => some (.stroke (.named .f10))
  | 0xe03b => some (.stroke (.named .f11))
  | 0xe03c => some (.stroke (.named .f12))
  | 0xe03d => some (.modifier .metaLeft)
  | 0xe040 => some (.stroke (.named .zenkakuHankaku))
  | 0xe050 => some (.modifier .shiftRight)
  | 0xe051 => some (.modifier .ctrlRight)
  | 0xe052 => some (.modifier .altRight)
  | 0xe053 => some (.modifier .metaRight)
  | _ => none

/-- The meaning of a code point, if it is a Unicode scalar value. -/
def ofCodePoint? (code : UInt32) : Option Key :=
  (special? code).or ((scalar? code).map fun c ↦ .stroke (.char c))

theorem isValidChar_of_special? {code : UInt32} {key : Key} (h : special? code = some key) :
    code.isValidChar := by
  unfold special? at h
  split at h <;> first | decide | cases h

theorem ofCodePoint?_eq_none_iff {code : UInt32} :
    ofCodePoint? code = none ↔ ¬code.isValidChar := by
  rw [ofCodePoint?, Option.or_eq_none_iff, Option.map_eq_none_iff]
  constructor
  · rintro ⟨_, unscaled⟩ valid
    rw [scalar?, dif_pos valid] at unscaled
    cases unscaled
  · intro invalid
    constructor
    · cases special : special? code with
      | none => rfl
      | some key => exact absurd (isValidChar_of_special? special) invalid
    · rw [scalar?, dif_neg invalid]

end Key

end ActionReplay
