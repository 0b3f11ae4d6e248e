import ActionReplay.Decimal.Layout
import ActionReplay.Json.Basic

/-!
# Writing JSON

`Json.compact` writes a value without any space, members in the order they are held. `Json.pretty`
puts every item and every member on a line of its own, two spaces deeper than its bracket, and leaves
empty brackets closed. Both leave characters outside ASCII as they are and escape the quote, the
backslash and the control characters below the space.
-/

set_option autoImplicit false
set_option relaxedAutoImplicit false

namespace ActionReplay.Json

def hexDigit (n : Nat) : Char :=
  Nat.digitChar n

/-- A character inside a string. -/
def escapedChar (c : Char) : List Char :=
  if c = '"' then ['\\', '"']
  else if c = '\\' then ['\\', '\\']
  else if c = '\x08' then ['\\', 'b']
  else if c = '\t' then ['\\', 't']
  else if c = '\n' then ['\\', 'n']
  else if c = '\x0c' then ['\\', 'f']
  else if c = '\r' then ['\\', 'r']
  else if c.toNat < 0x20 then
    ['\\', 'u', '0', '0', hexDigit (c.toNat / 16), hexDigit (c.toNat % 16)]
  else [c]

def escaped (s : String) : String :=
  String.ofList (['"'] ++ s.toList.flatMap escapedChar ++ ['"'])

/-- Integers have no point; a double always has one or an exponent. What is no number is null. -/
def Number.render : Number → String
  | .unsigned n => toString n.toNat
  | .signed n => toString n.toInt
  | .double x => if x.isFinite then Decimal.render Decimal.jsonLayout x else "null"

mutual

def compact : Json → String
  | .null => "null"
  | .bool true => "true"
  | .bool false => "false"
  | .number n => n.render
  | .string s => escaped s
  | .array items => "[" ++ ",".intercalate (compactItems items) ++ "]"
  | .object members => "\x7b" ++ ",".intercalate (compactMembers members) ++ "\x7d"

def compactItems : List Json → List String
  | [] => []
  | v :: rest => v.compact :: compactItems rest

def compactMembers : List (String × Json) → List String
  | [] => []
  | (key, v) :: rest => (escaped key ++ ":" ++ v.compact) :: compactMembers rest

end

/-- A line break followed by two spaces for each open bracket. -/
def lineBreak (depth : Nat) : String :=
  "\n" ++ String.ofList (List.replicate (2 * depth) ' ')

/-- Lines of one bracket, its items standing one level deeper than `depth`. -/
def bracketLines (opening closing : String) (depth : Nat) : List String → String
  | [] => opening ++ closing
  | lines =>
    opening ++ lineBreak (depth + 1) ++ ("," ++ lineBreak (depth + 1)).intercalate lines
      ++ lineBreak depth ++ closing

mutual

def prettyAt (depth : Nat) : Json → String
  | .array items => bracketLines "[" "]" depth (prettyItems (depth + 1) items)
  | .object members => bracketLines "\x7b" "\x7d" depth (prettyMembers (depth + 1) members)
  | .null => "null"
  | .bool true => "true"
  | .bool false => "false"
  | .number n => n.render
  | .string s => escaped s

def prettyItems (depth : Nat) : List Json → List String
  | [] => []
  | v :: rest => prettyAt depth v :: prettyItems depth rest

def prettyMembers (depth : Nat) : List (String × Json) → List String
  | [] => []
  | (key, v) :: rest => (escaped key ++ ": " ++ prettyAt depth v) :: prettyMembers depth rest

end

def pretty (v : Json) : String :=
  v.prettyAt 0

end ActionReplay.Json
