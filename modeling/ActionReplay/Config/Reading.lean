import ActionReplay.Config.Basic
import ActionReplay.Json.Document

/-!
# Reading a configuration

A record is an object, in which unknown members are passed over and no known one may repeat, or an array
of its fields in their order, of which the last ones may be missing. What is passed over is only read as a
document, never as a value. A feed is chosen by its tag, the `type` of an object or the first item of an
array; all of it must have a value, whether it is used or not.
-/

set_option autoImplicit false
set_option relaxedAutoImplicit false

namespace ActionReplay

namespace Document

/-- The members of an object whose keys are all texts. -/
def namedMembers? : Document → Option (List (String × Document))
  | .object members => members.mapM fun (key, d) ↦ key.map fun key ↦ (key, d)
  | _ => none

/-- The member under a key, which must not repeat. -/
def field? (members : List (String × Document)) (name : String) : Option (Option Document) :=
  match members.filter fun (key, _) ↦ key = name with
  | [] => some none
  | [(_, d)] => some (some d)
  | _ => none

/-- The fields of a record in their order, `none` for each that is missing. -/
def record? (names : List String) (d : Document) : Option (List (Option Document)) :=
  match d with
  | .array items =>
    if names.length < items.length then none
    else some (items.map some ++ List.replicate (names.length - items.length) none)
  | d => do
    let members ← d.namedMembers?
    names.mapM (field? members)

def bool? : Document → Option Bool
  | .bool b => some b
  | _ => none

def text? : Document → Option String
  | .string s => s
  | _ => none

def items? : Document → Option (List Document)
  | .array items => some items
  | _ => none

/-- A signed word of half the width. -/
def int32? : Document → Option Int32
  | .number (some (.unsigned n)) =>
    if n.toNat ≤ Int32.maxValue.toInt then some (Int32.ofInt n.toNat) else none
  | .number (some (.signed n)) =>
    if Int32.minValue.toInt ≤ n.toInt ∧ n.toInt ≤ Int32.maxValue.toInt then
      some (Int32.ofInt n.toInt)
    else none
  | _ => none

def unsigned? : Document → Option UInt64
  | .number (some (.unsigned n)) => some n
  | _ => none

/-- A field that may be missing or null. -/
def optional? {α : Type} (read : Document → Option α) : Option Document → Option (Option α)
  | none | some .null => some none
  | some d => (read d).map some

/-- A field that has a value of its own when it is missing, but must not be null. -/
def withDefault? {α : Type} (read : Document → Option α) (absent : α) : Option Document → Option α
  | none => some absent
  | some d => read d

end Document

namespace Bounds

def ofDocument? (d : Document) : Option Bounds := do
  match ← d.record? ["x", "y", "width", "height"] with
  | [x, y, width, height] =>
    return { x := ← (← x).int32?, y := ← (← y).int32?, width := ← (← width).int32?,
             height := ← (← height).int32? }
  | _ => none

end Bounds

namespace Registry

/-- Of repeated handles the last wins. -/
def ofDocument? (d : Document) : Option Registry := do
  let members ← d.namedMembers?
  let entries ← members.mapM fun (handle, d) ↦
    (Bounds.ofDocument? d).map fun bounds ↦ (handle, bounds)
  return Table.ofList entries

end Registry

namespace FeedConfig

/-- How many brackets a feed may open, two being open around it. -/
def nestingLimit : Nat := Document.nestingLimit - 2

/-- The file feed with the given fields. -/
def fileOfFields? (path pollMs deleteOnSuccess : Option Document) : Option FeedConfig := do
  return .file (← (← path).text?) (← Document.optional? Document.unsigned? pollMs)
    (← Document.optional? Document.bool? deleteOnSuccess)

def ofMembers? (members : List (String × Document)) : Option FeedConfig := do
  let type ← (← (← Document.field? members "type")).text?
  if type = "file" then
    fileOfFields? (← Document.field? members "path") (← Document.field? members "poll_ms")
      (← Document.field? members "delete_on_success")
  else if type = "stdin" then some .stdin
  else none

def ofItems? (items : List Document) : Option FeedConfig :=
  match items with
  | [] => none
  | tag :: rest => do
    let type ← tag.text?
    if type = "file" then
      match ← (Document.array rest).record? ["path", "poll_ms", "delete_on_success"] with
      | [path, pollMs, deleteOnSuccess] => fileOfFields? path pollMs deleteOnSuccess
      | _ => none
    else if type = "stdin" ∧ rest.isEmpty then some .stdin
    else none

def ofDocument? (d : Document) : Option FeedConfig :=
  if (d.valueIn? nestingLimit).isSome then
    match d with
    | .array items => ofItems? items
    | d => d.namedMembers?.bind ofMembers?
  else none

end FeedConfig

namespace Config

def feedsOfDocument? (d : Document) : Option (List FeedConfig) := do
  (← d.items?).mapM FeedConfig.ofDocument?

def pacingOfDocument? (d : Document) : Option Bool := do
  match ← d.record? ["pacing"] with
  | [pacing] => Document.withDefault? Document.bool? true pacing
  | _ => none

def ofDocument? (d : Document) : Option Config := do
  match ← d.record? ["sources", "elements", "dispatch"] with
  | [feeds, elements, dispatch] =>
    return { feeds := ← Document.withDefault? feedsOfDocument? [] feeds
             elements := ← Document.withDefault? Registry.ofDocument? [] elements
             pacing := ← Document.withDefault? pacingOfDocument? true dispatch }
  | _ => none

/-- Reads and checks a configuration; `malformed` is the fault of one that cannot be read. -/
def ofOctets (malformed : ConfigFault) (octets : List UInt8) : Except ConfigFault Config :=
  match (Document.read octets).bind ofDocument? with
  | some config => config.check
  | none => .error malformed

/-- The configuration that a text spells. -/
def ofText (text : String) : Except ConfigFault Config :=
  ofOctets .malformedText (Text.encode text)

/-- The configuration that a stream of octets spells. -/
def ofStream (octets : List UInt8) : Except ConfigFault Config :=
  ofOctets .malformedStream octets

/-- The configuration in a file that is opened and streamed, if there is such a file. -/
def ofOpenedFile (path : String) (content : Option (List UInt8)) : Except ConfigFault Config :=
  match content with
  | some octets => ofStream octets
  | none => .error (.unopenedFile path)

/-- The configuration in a file that is read as a whole, if there is such a file. -/
def ofReadFile (path : String) (content : Option (List UInt8)) : Except ConfigFault Config :=
  match content with
  | some octets => ofOctets (.malformedFile path) octets
  | none => .error (.unreadFile path)

end Config

end ActionReplay
