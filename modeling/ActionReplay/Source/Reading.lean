import ActionReplay.Element
import ActionReplay.Source.Fault

/-!
# Reading sources

`Source.readAll` reads the array of a payload into sources, `Source.read` one source and `Item.read`
one item. The first fault met in the order of the text is the answer. Of an item only the fields of its
type are read, and a field that is null counts as absent.
-/

set_option autoImplicit false
set_option relaxedAutoImplicit false

namespace ActionReplay

namespace Json

/-- A number as an integer: itself, or what is left of it when it is cut off toward zero and at the ends
of the signed words. -/
def integer? (v : Json) : Option Int64 :=
  v.number?.map fun n ↦ n.integer?.getD n.toFloat.toInt64

/-- A number as the nearest double. -/
def float? (v : Json) : Option Float :=
  v.number?.map Number.toFloat

end Json

/-- The members of one item, with what its faults are told by. -/
structure ItemReader where
  id : String
  item : Nat
  members : List (String × Json)

namespace ItemReader

variable (r : ItemReader)

/-- The value of a field, unless it is null. -/
def field? (field : ItemField) : Option Json :=
  (Table.find? field.name r.members).filter (!·.isNull)

def invalid (field : ItemField) (defect : FieldDefect) : Fault :=
  .invalidItemField r.id r.item field defect

/-- What a reader of values takes from a field. It takes nothing from a value of another kind than the
one it reads, which is then a defect. -/
def taken {α : Type} (take : Json → Option α) (defect : FieldDefect) (field : ItemField) :
    Except Fault (Option α) :=
  match r.field? field with
  | none => .ok none
  | some v =>
    match take v with
    | some a => .ok (some a)
    | none => .error (r.invalid field defect)

def integer (field : ItemField) : Except Fault (Option Int64) :=
  r.taken Json.integer? .notInteger field

def float (field : ItemField) : Except Fault (Option Float) :=
  r.taken Json.float? .notNumber field

def string (field : ItemField) : Except Fault (Option String) :=
  r.taken Json.string? .notString field

/-- The name of an origin; a name that is none is the handle of an element. -/
def originNamed (name : String) : Origin :=
  if name = "viewport" then .viewport
  else if name = "pointer" then .pointer
  else .element name

/-- An origin is named by a string or refers to an element by an object; absent, it is the viewport. -/
def origin : Except Fault Origin :=
  match r.field? .origin with
  | none => .ok .viewport
  | some (.string name) => .ok (originNamed name)
  | some (.object members) =>
    match Reference.handle? members with
    | some handle => .ok (.element handle)
    | none => .error (.unknownElement r.id r.item (Json.object members).compact)
  | some _ => .error (r.invalid .origin .notOrigin)

def move : Except Fault PointerMove := do
  let duration ← r.integer .duration
  let origin ← r.origin
  let x ← r.float .x
  let y ← r.float .y
  let pressure ← r.float .pressure
  let size ← r.float .size
  return { duration, origin, x, y, pressure, size }

/-- Reads the fields of an item of a known type. -/
def ofType : ItemType → Except Fault Item
  | .pause => .pause <$> r.integer .duration
  | .pointerDown => .pointerDown <$> r.integer .button
  | .pointerUp => .pointerUp <$> r.integer .button
  | .pointerMove => .pointerMove <$> r.move
  | .pointerCancel => .ok .pointerCancel
  | .keyDown => .keyDown <$> r.string .value
  | .keyUp => .keyUp <$> r.string .value

end ItemReader

namespace Item

/-- Reads the item at a place of a source. -/
def read (id : String) (kind : SourceKind) (item : Nat) (v : Json) : Except Fault Item :=
  match v with
  | .object members =>
    match (Table.find? "type" members).bind Json.string? with
    | none => .error (.missingItemType id item)
    | some name =>
      match ItemType.ofName? name with
      | none => .error (.unsupportedItem id kind name)
      | some type => { id, item, members : ItemReader }.ofType type
  | _ => .error (.unsupportedItem id kind "<not an object>")

/-- Reads the items from a place on. -/
def readFrom (id : String) (kind : SourceKind) : Nat → List Json → Except Fault (List Item)
  | _, [] => .ok []
  | place, v :: rest => do
    let item ← read id kind place v
    let items ← readFrom id kind (place + 1) rest
    return item :: items

end Item

namespace Source

/-- The pointer type that the parameters of a source name, if they name one. What is not a string is no
pointer type, whatever it is. -/
def readPointerType (id : String) (source : Json) : Except Fault (Option PointerType) :=
  match (source.member? "parameters").bind (Json.member? "pointerType") with
  | none => .ok none
  | some v =>
    match v.string?.bind PointerType.ofName? with
    | some type => .ok (some type)
    | none => .error (.unsupportedPointerType id v.compact)

/-- Reads the source at a place of the payload. -/
def read (place : Nat) (v : Json) : Except Fault Source :=
  match (v.member? "id").bind Json.string? with
  | none => .error (.missingSourceField place .id)
  | some id =>
    match (v.member? "type").bind Json.string? with
    | none => .error (.missingSourceField place .type)
    | some name =>
      match SourceKind.ofName? name with
      | none => .error (.unsupportedKind id name)
      | some kind => do
        let pointerType ← readPointerType id v
        match (v.member? "actions").bind Json.items? with
        | none => .error (.missingSourceField place .actions)
        | some items => do
          let items ← Item.readFrom id kind 0 items
          return { id, kind, pointerType, items }

/-- Reads the sources from a place on. -/
def readFrom : Nat → List Json → Except Fault (List Source)
  | _, [] => .ok []
  | place, v :: rest => do
    let source ← read place v
    let sources ← readFrom (place + 1) rest
    return source :: sources

/-- Reads the array of sources that a payload carries. -/
def readAll : Json → Except Fault (List Source)
  | .array items => readFrom 0 items
  | _ => .error .notAnArray

end Source

end ActionReplay
