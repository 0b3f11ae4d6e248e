import ActionReplay.Json.Printer

/-!
# Elements

Moves may be relative to an element, which a payload names by a handle. `Bounds` is the rectangle that an
element covers on the screen; its center is the point to which the offsets of such a move are added, and
half of an odd extent is rounded toward zero. A `Registry` holds the elements that are known, by handle;
it is a table, so it lists its handles in increasing order.

An object stands for an element when one of its keys starts with `element`, in any case of ASCII letters,
and the member under it is not null. Clients write such keys in two ways, a long one ending in a fixed
identifier and the bare word in capitals. The first such member in key order gives the handle
(`Reference.handle?`): a string is taken as it is, any other value is the handle spelled by its compact
text.
-/

set_option autoImplicit false
set_option relaxedAutoImplicit false

namespace ActionReplay

/-! ### Bounds -/

structure Bounds where
  x : Int32
  y : Int32
  width : Int32
  height : Int32
deriving DecidableEq, Inhabited

namespace Bounds

/-- An extent of zero in either direction leaves no point to aim at. -/
def isEmpty (b : Bounds) : Bool :=
  b.width = 0 || b.height = 0

/-- The middle of an extent. -/
def middle (start extent : Int32) : Float :=
  Float.ofInt (start.toInt + extent.toInt.tdiv 2)

def centerX (b : Bounds) : Float :=
  middle b.x b.width

def centerY (b : Bounds) : Float :=
  middle b.y b.height

end Bounds

/-! ### Registries -/

abbrev Registry := Table String Bounds

/-- Where the bounds of a handle are looked up. -/
abbrev Locator := String → Option Bounds

namespace Registry

def locate (r : Registry) : Locator :=
  fun handle ↦ Table.find? handle r

/-- Registers an element, and gives the bounds it had before. -/
def register (r : Registry) (handle : String) (bounds : Bounds) : Option Bounds × Registry :=
  (r.locate handle, Table.insert handle bounds r)

/-- Forgets an element, and gives the bounds it had. -/
def forget (r : Registry) (handle : String) : Option Bounds × Registry :=
  (r.locate handle, Table.erase handle r)

end Registry

/-! ### References -/

namespace Reference

/-- What a reference key starts with. -/
def stem : List Char := ['e', 'l', 'e', 'm', 'e', 'n', 't']

def isReferenceKey (key : String) : Bool :=
  (key.toList.take stem.length).map Char.toLower = stem

/-- The handle that a member gives, if it refers to an element. -/
def handleOfMember? (key : String) (v : Json) : Option String :=
  if isReferenceKey key then
    match v with
    | .null => none
    | .string handle => some handle
    | v => some v.compact
  else none

def handle? (members : List (String × Json)) : Option String :=
  members.findSome? fun (key, v) ↦ handleOfMember? key v

end Reference

end ActionReplay
