import ActionReplay.Json.Basic

/-!
# Number tokens

The grammar of a number token, and the number it stands for. A token is an optional minus, a whole part
without leading zeros, an optional fraction and an optional exponent. A token without fraction and exponent
that fits 64 bits is an integer, except that a negative zero is a double; every other token is a double.

A double is read with little work. The leading digits are gathered into an unsigned word as long as they
fit, the digits that do not fit count only for the power of ten, and the word is then scaled by that power
in doubles. The word, the power and their product or quotient are each rounded to the nearest double, so
their result need not be the double nearest to the token. There is none where the scaling overflows.
-/

set_option autoImplicit false
set_option relaxedAutoImplicit false

namespace ActionReplay.Json

/-- The parts of a number token, as digits. -/
structure NumberToken where
  negative : Bool
  whole : List Char
  fraction : Option (List Char)
  exponent : Option (Bool × List Char)

namespace NumberToken

def ofSign (cs : List Char) : Bool × List Char :=
  match cs with
  | '-' :: rest => (true, rest)
  | _ => (false, cs)

/-- The parts of a token, if it is spelled by the grammar. -/
def ofChars? (cs : List Char) : Option NumberToken := do
  let (negative, cs) := ofSign cs
  let (whole, cs) := cs.span Char.isDigit
  guard (whole = ['0'] ∨ whole.head?.any (· ≠ '0'))
  let (fraction, cs) ← match cs with
    | '.' :: rest =>
      let (digits, rest) := rest.span Char.isDigit
      guard (digits ≠ [])
      pure (some digits, rest)
    | _ => pure (none, cs)
  let (exponent, cs) ← match cs with
    | mark :: rest =>
      guard (mark = 'e' ∨ mark = 'E')
      let (negative, rest) := match rest with
        | '+' :: rest => (false, rest)
        | _ => ofSign rest
      let (digits, rest) := rest.span Char.isDigit
      guard (digits ≠ [])
      pure (some (negative, digits), rest)
    | [] => pure (none, [])
  guard (cs = [])
  return { negative, whole, fraction, exponent }

def digitsValue (digits : List Char) : Nat :=
  digits.foldl (fun n c ↦ 10 * n + (c.toNat - '0'.toNat)) 0

/-- Appends digits to a word while it stays below `2 ^ 64`; gives the word and the digits left over. -/
def gather (word : Nat) : List Char → Nat × List Char
  | [] => (word, [])
  | c :: rest =>
    let longer := 10 * word + (c.toNat - '0'.toNat)
    if longer < UInt64.size then gather longer rest else (word, c :: rest)

/-- The largest power of ten that is a double. -/
def largestPower : Nat := 308

/-- The double nearest to a power of ten. -/
def tenTo (power : Nat) : Float :=
  Float.ofScientific 1 false power

/-- A double times a power of ten, if that is finite. -/
def scaleUp? (x : Float) (power : Nat) : Option Float :=
  if x == 0.0 then some x
  else if largestPower < power then none
  else
    let scaled := x * tenTo power
    if scaled.isFinite then some scaled else none

/-- A double below `2 ^ 64` divided by a power of ten, at most the largest at a time. Dividing twice by the
largest leaves nothing of it. -/
def scaleDown (x : Float) (power : Nat) : Float :=
  if power ≤ largestPower then x / tenTo power
  else if power ≤ 2 * largestPower then x / tenTo largestPower / tenTo (power - largestPower)
  else 0.0

/-- The power of ten that the exponent of a token names. -/
def namedPower (t : NumberToken) : Int :=
  match t.exponent with
  | none => 0
  | some (true, digits) => -(digitsValue digits : Int)
  | some (false, digits) => digitsValue digits

/-- The double a token is read as. Whole digits left over raise the power, and fraction digits gathered lower
it. -/
def double? (t : NumberToken) : Option Float :=
  let fraction := t.fraction.getD []
  let (word, beyond) := gather 0 t.whole
  let (word, unread) := gather word fraction
  let x := word.toUInt64.toFloat
  let power := t.namedPower + beyond.length - (fraction.length - unread.length)
  let magnitude := if power < 0 then some (scaleDown x power.natAbs) else scaleUp? x power.natAbs
  magnitude.map fun x ↦ if t.negative then -x else x

/-- The number a token stands for. -/
def number? (t : NumberToken) : Option Number :=
  let (word, beyond) := gather 0 t.whole
  if t.fraction.isSome || t.exponent.isSome || beyond ≠ [] then t.double?.map .double
  else if !t.negative then some (.unsigned word.toUInt64)
  else if 0 < word && word ≤ Nat.pow 2 63 then some (.signed (Int64.ofInt (-word)))
  else t.double?.map .double

end NumberToken

end ActionReplay.Json
