/-!
# Action sources

A payload lists action sources. A source drives one input: a pointer, a keyboard, or nothing, in which
case it only takes time. Its items follow one another on a clock of its own, and all sources of a
payload start together.

Fields that an item may lack stay optional here: whoever needs one says so.
-/

set_option autoImplicit false
set_option relaxedAutoImplicit false

namespace ActionReplay

/-- What a source drives. -/
inductive SourceKind where
  | pointer
  | key
  | none
deriving DecidableEq, Inhabited

inductive PointerType where
  | touch
  | mouse
  | pen
deriving DecidableEq, Inhabited

/-- The tool that a pointer type stands for. Pointers of different tools form separate gestures. -/
inductive Tool where
  | finger
  | mouse
  | stylus
deriving DecidableEq, Inhabited

inductive ItemType where
  | pause
  | pointerDown
  | pointerUp
  | pointerMove
  | pointerCancel
  | keyDown
  | keyUp
deriving DecidableEq, Inhabited

/-- What the coordinates of a move are relative to. -/
inductive Origin where
  | viewport
  | pointer
  | element (handle : String)
deriving DecidableEq, Inhabited

structure PointerMove where
  duration : Option Int64
  origin : Origin
  x : Option Float
  y : Option Float
  pressure : Option Float
  size : Option Float
deriving BEq, Inhabited

inductive Item where
  | pause (duration : Option Int64)
  | pointerDown (button : Option Int64)
  | pointerUp (button : Option Int64)
  | pointerMove (move : PointerMove)
  | pointerCancel
  | keyDown (value : Option String)
  | keyUp (value : Option String)
deriving BEq, Inhabited

structure Source where
  id : String
  kind : SourceKind
  pointerType : Option PointerType
  items : List Item
deriving BEq, Inhabited

namespace SourceKind

def all : List SourceKind := [pointer, key, none]

def name : SourceKind → String
  | .pointer => "pointer"
  | .key => "key"
  | .none => "none"

def ofName? (name : String) : Option SourceKind :=
  all.find? fun kind ↦ kind.name = name

@[simp]
theorem ofName?_name (kind : SourceKind) : ofName? kind.name = some kind := by
  cases kind <;> decide

/-- The items that a source of this kind may hold. -/
def itemTypes : SourceKind → List ItemType
  | .pointer => [.pause, .pointerDown, .pointerUp, .pointerMove, .pointerCancel]
  | .key => [.pause, .keyDown, .keyUp]
  | .none => [.pause]

end SourceKind

namespace PointerType

/-- In the order in which several types are listed. -/
def all : List PointerType := [touch, mouse, pen]

def name : PointerType → String
  | .touch => "touch"
  | .mouse => "mouse"
  | .pen => "pen"

def ofName? (name : String) : Option PointerType :=
  all.find? fun type ↦ type.name = name

@[simp]
theorem ofName?_name (type : PointerType) : ofName? type.name = some type := by
  cases type <;> decide

def tool : PointerType → Tool
  | .touch => .finger
  | .mouse => .mouse
  | .pen => .stylus

end PointerType

namespace ItemType

def all : List ItemType :=
  [pause, pointerDown, pointerUp, pointerMove, pointerCancel, keyDown, keyUp]

def name : ItemType → String
  | .pause => "pause"
  | .pointerDown => "pointerDown"
  | .pointerUp => "pointerUp"
  | .pointerMove => "pointerMove"
  | .pointerCancel => "pointerCancel"
  | .keyDown => "keyDown"
  | .keyUp => "keyUp"

def ofName? (name : String) : Option ItemType :=
  all.find? fun type ↦ type.name = name

@[simp]
theorem ofName?_name (type : ItemType) : ofName? type.name = some type := by
  cases type <;> decide

end ItemType

namespace Item

def type : Item → ItemType
  | .pause _ => .pause
  | .pointerDown _ => .pointerDown
  | .pointerUp _ => .pointerUp
  | .pointerMove _ => .pointerMove
  | .pointerCancel => .pointerCancel
  | .keyDown _ => .keyDown
  | .keyUp _ => .keyUp

end Item

namespace SourceKind

def allows (kind : SourceKind) (item : Item) : Bool :=
  item.type ∈ kind.itemTypes

end SourceKind

namespace Source

/-- The pointer type a source acts with: touch where it names none. -/
def effectivePointerType (s : Source) : PointerType :=
  s.pointerType.getD .touch

end Source

end ActionReplay
