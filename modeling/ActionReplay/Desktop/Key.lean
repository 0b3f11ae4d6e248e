import ActionReplay.Key.Held
import ActionReplay.Text.Quoted

/-!
# Keys of a desktop

The keys a desktop knows. Every character is one; of the named keys some have no equivalent. A modifier
key stands for the flag that its two sides share.
-/

set_option autoImplicit false
set_option relaxedAutoImplicit false

namespace ActionReplay

/-- The modifier keys that a desktop holds, in the order in which they are brought up to date. -/
inductive DesktopModifier where
  | shift
  | control
  | alt
  | metaKey
deriving DecidableEq, Inhabited

namespace DesktopModifier

def all : List DesktopModifier := [shift, control, alt, metaKey]

def flag : DesktopModifier → UInt32
  | .shift => 0x1
  | .control => 0x1000
  | .alt => 0x2
  | .metaKey => 0x10000

def name : DesktopModifier → String
  | .shift => "Shift"
  | .control => "Control"
  | .alt => "Alt"
  | .metaKey => "Meta"

end DesktopModifier

/-- The desktop's name of a named key, if it has one. -/
def NamedKey.desktopName? : NamedKey → Option String
  | .returnKey | .enter => some "Return"
  | .arrowLeft => some "LeftArrow"
  | .arrowUp => some "UpArrow"
  | .arrowRight => some "RightArrow"
  | .arrowDown => some "DownArrow"
  | .cancel | .help | .clear | .pause | .insert | .zenkakuHankaku => none
  | key => some key.name

namespace Stroke

/-- A stroke as a desktop names it, if it knows the key. -/
def desktopName? : Stroke → Option String
  | .char c => some ("Unicode(" ++ Text.quotedSingle c ++ ")")
  | .named key => key.desktopName?

/-- A stroke as a diagnostic names it. -/
def name : Stroke → String
  | .char c => "Char(" ++ Text.quotedSingle c ++ ")"
  | .named key => "Named(" ++ key.name ++ ")"

end Stroke

end ActionReplay
