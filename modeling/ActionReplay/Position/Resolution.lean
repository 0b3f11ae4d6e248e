import ActionReplay.Element
import ActionReplay.Source.Fault
import ActionReplay.Timeline.Cue

/-!
# Resolving positions

Where the pointer of a source is after each of its items. A move relative to the viewport or to an
element fixes the position by itself; a move relative to the pointer adds to the position before it; every
other item leaves the position as it was. `Source.positionAfter` says this by recursion on the place of
the item.
-/

set_option autoImplicit false
set_option relaxedAutoImplicit false

namespace ActionReplay

namespace Item

/-- A move that fixes the position whatever came before it. -/
def isAnchor : Item → Bool
  | .pointerMove move => move.origin ≠ .pointer
  | _ => false

end Item

namespace PointerMove

/-- The position at a point, with the pressure and size that a move asks for. -/
def landing (move : PointerMove) (x y : Float) : Position :=
  { x, y, pressure := move.pressure.getD 1.0, size := move.size.getD 1.0 }

/-- Where a move ends, given the position before it. -/
def target (locate : Locator) (id : String) (item : Nat) (before : Option Position)
    (move : PointerMove) : Except Fault Position :=
  match move.origin with
  | .viewport =>
    match move.x, move.y with
    | some x, some y => .ok (move.landing x y)
    | none, _ => .error (.missingItemField id item .pointerMove .x)
    | some _, none => .error (.missingItemField id item .pointerMove .y)
  | .pointer =>
    match before with
    | some p => .ok (move.landing (p.x + move.x.getD 0.0) (p.y + move.y.getD 0.0))
    | none => .error (.missingStartPosition id item)
  | .element handle =>
    match locate handle with
    | none => .error (.unknownElement id item handle)
    | some bounds =>
      if bounds.isEmpty then .error (.zeroSizeElement id item handle)
      else .ok (move.landing (bounds.centerX + move.x.getD 0.0) (bounds.centerY + move.y.getD 0.0))

end PointerMove

namespace Item

/-- The position after an item, given the position before it. -/
def positionAfter (locate : Locator) (id : String) (place : Nat) (before : Option Position) :
    Item → Except Fault Position
  | .pointerMove move => move.target locate id place before
  | _ =>
    match before with
    | some p => .ok p
    | none => .error (.missingStartPosition id place)

end Item

namespace Source

/-- The position after the item at a place. An anchor does not ask for the position before it; any other
item does, and before the first item there is none. -/
def positionAfter (locate : Locator) (s : Source) : Nat → Except Fault Position
  | 0 =>
    match s.items[0]? with
    | some item => item.positionAfter locate s.id 0 none
    | none => .error (.missingStartPosition s.id 0)
  | place + 1 =>
    match s.items[place + 1]? with
    | some item =>
      if item.isAnchor then item.positionAfter locate s.id (place + 1) none
      else do
        let before ← positionAfter locate s place
        item.positionAfter locate s.id (place + 1) (some before)
    | none => .error (.missingStartPosition s.id (place + 1))

end Source

end ActionReplay
