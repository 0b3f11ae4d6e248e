import ActionReplay.Desktop.Key
import ActionReplay.Log.Record
import ActionReplay.Replay.Delivery

/-!
# The desktop

A desktop without a display. It has one cursor, so it refuses the pointers of a gesture beyond the first,
and it holds modifier keys, which it brings up to date before every event. In a dry run it only says what
it would do, and remembers the modifiers as if it had; otherwise every use of the device fails before
anything changes.
-/

set_option autoImplicit false
set_option relaxedAutoImplicit false

namespace ActionReplay

/-- The desktop's memory: whether it only pretends, and the flags of the modifiers it holds. -/
structure Desktop where
  dryRun : Bool
  held : UInt32 := 0
deriving DecidableEq, Inhabited

/-- There is no device to use. -/
inductive DesktopFault where
  | noDevice
deriving DecidableEq, Inhabited

def DesktopFault.message : DesktopFault → String
  | .noDevice => "Failed to initialize Enigo"

namespace MotionAction

def name : MotionAction → String
  | .down => "Down"
  | .up => "Up"
  | .move => "Move"
  | .pointerDown index => s!"PointerDown \x7b index: {index} \x7d"
  | .pointerUp index => s!"PointerUp \x7b index: {index} \x7d"
  | .hoverEnter => "HoverEnter"
  | .hoverMove => "HoverMove"
  | .hoverExit => "HoverExit"

/-- The index that an action of a further pointer carries. -/
def index? : MotionAction → Option Nat
  | .pointerDown index | .pointerUp index => some index
  | _ => none

end MotionAction

namespace KeyAction

/-- The direction in which a key goes. -/
def direction : KeyAction → String
  | .down => "Press"
  | .up => "Release"

end KeyAction

namespace Desktop

def setDryRun (d : Desktop) (dryRun : Bool) : Desktop :=
  { d with dryRun }

/-- What an attempt leaves: its result, what was said, and the desktop after it. -/
abbrev Attempt (α : Type) := Except DesktopFault α × List LogRecord × Desktop

def record (level : LogLevel) (message : String) (fields : List (String × LogValue)) : LogRecord :=
  { level, target := "actionforge::actions", message, fields }

/-- Brings some modifiers up to date with the wanted flags, in order. -/
def syncEach (d : Desktop) (wanted : UInt32) : List DesktopModifier → Attempt Unit
  | [] => (.ok (), [], d)
  | m :: rest =>
    let isWanted := wanted &&& m.flag ≠ 0
    let isHeld := d.held &&& m.flag ≠ 0
    if isWanted = isHeld then syncEach d wanted rest
    else if d.dryRun then
      let said := record .debug "DRY-RUN modifier"
        [("key", .shown m.name), ("wanted", .bool isWanted)]
      let (result, records, d) := syncEach { d with held := d.held ^^^ m.flag } wanted rest
      (result, said :: records, d)
    else (.error .noDevice, [], d)

/-- Presses and releases modifiers until the wanted ones are held. -/
def sync (d : Desktop) (wanted : UInt32) : Attempt Unit :=
  d.syncEach wanted DesktopModifier.all

def releaseModifiers (d : Desktop) : Attempt Unit :=
  d.sync 0

/-- Brings the modifiers up to date and then uses the device, or says what it would do. -/
def act (d : Desktop) (metaState : UInt32) (said : LogRecord) : Attempt Bool :=
  match d.sync metaState with
  | (.error fault, records, d) => (.error fault, records, d)
  | (.ok (), records, d) =>
    if d.dryRun then (.ok true, records ++ [said], d) else (.error .noDevice, records, d)

def motion (d : Desktop) (e : MotionEvent) : Attempt Bool :=
  match e.primary? with
  | none =>
    (.ok false, [record .warn "Motion event without pointers" [("action", .shown e.action.name)]], d)
  | some (_, position) =>
    match e.action.index? with
    | some index =>
      (.ok false,
        [record .warn "Secondary pointers are not supported by the desktop backend"
          [("action", .shown e.action.name), ("index", .nat index),
            ("pointers", .nat e.pointers.length)]],
        d)
    | none =>
      d.act e.metaState (record .info "DRY-RUN motion"
        [("action", .shown e.action.name), ("x", .float position.x), ("y", .float position.y),
          ("button_state", .nat e.buttonState.toNat), ("meta_state", .nat e.metaState.toNat)])

def key (d : Desktop) (e : KeyEvent) : Attempt Bool :=
  match e.stroke.desktopName? with
  | none =>
    (.ok false, [record .warn "Key has no desktop equivalent" [("key", .shown e.stroke.name)]], d)
  | some name =>
    d.act e.metaState (record .info "DRY-RUN key"
      [("key", .shown name), ("direction", .shown e.action.direction),
        ("meta_state", .nat e.metaState.toNat)])

def attempt (d : Desktop) : InputEvent → Attempt Bool
  | .motion e => d.motion e
  | .key e => d.key e

/-- Takes an event, and says whether it was delivered. A fault of the device is a failure to deliver. -/
def deliver (d : Desktop) (e : InputEvent) : Bool × List LogRecord × Desktop :=
  match d.attempt e with
  | (.ok delivered, records, d) => (delivered, records, d)
  | (.error fault, records, d) =>
    (false, records ++ [record .warn "Input injection failed" [("error", .shown fault.message)]], d)

/-- The desktop as a device, with the records of what it said, the latest first. -/
def device : Device (List LogRecord × Desktop) where
  deliver := fun (said, d) e ↦
    let (delivered, records, d) := d.deliver e
    (delivered, records.reverse ++ said, d)

end Desktop

end ActionReplay
