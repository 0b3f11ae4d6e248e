import ActionReplay.Table

/-!
# JSON values

A value as the rest of the library reads it. Numbers keep the form they were written in: an integer
token that fits 64 bits stays an integer, signed or unsigned, and everything else is a double. The
members of an object read from a text form a table by key.
-/

set_option autoImplicit false
set_option relaxedAutoImplicit false

namespace ActionReplay

inductive Json.Number where
  | unsigned (n : UInt64)
  | signed (n : Int64)
  | double (x : Float)

inductive Json where
  | null
  | bool (b : Bool)
  | number (n : Json.Number)
  | string (s : String)
  | array (items : List Json)
  | object (members : List (String × Json))

namespace Json

instance : Inhabited Json := ⟨.null⟩

/-- The integer that a number is, where it is one and fits a signed word. -/
def Number.integer? : Number → Option Int64
  | .unsigned n => if n.toNat < Nat.pow 2 63 then some n.toInt64 else none
  | .signed n => some n
  | .double _ => none

/-- The nearest double. -/
def Number.toFloat : Number → Float
  | .unsigned n => n.toFloat
  | .signed n => n.toFloat
  | .double x => x

def isNull : Json → Bool
  | .null => true
  | _ => false

def number? : Json → Option Number
  | .number n => some n
  | _ => none

def string? : Json → Option String
  | .string s => some s
  | _ => none

def items? : Json → Option (List Json)
  | .array items => some items
  | _ => none

def members? : Json → Option (List (String × Json))
  | .object members => some members
  | _ => none

/-- The member of an object under a key. -/
def member? (key : String) (v : Json) : Option Json :=
  v.members?.bind fun members ↦ Table.find? key members

/-- The word for the sort of value this is. -/
def kind : Json → String
  | .null => "null"
  | .bool _ => "bool"
  | .number _ => "number"
  | .string _ => "string"
  | .array _ => "array"
  | .object _ => "object"

end Json

end ActionReplay
