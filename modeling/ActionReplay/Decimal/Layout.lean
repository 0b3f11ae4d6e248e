import ActionReplay.Decimal.Shortest

/-!
# Writing a double

A layout says between which powers of ten a number is written out in full, how its exponent is marked
otherwise, and which of two equally near shortest decimals is written. `jsonLayout` is the one of
documents, `consoleLayout` the one of log lines. Both write at least one place after the point in full
notation.
-/

set_option autoImplicit false
set_option relaxedAutoImplicit false

namespace ActionReplay.Decimal

/-- Numbers from `10 ^ least` up to but not including `10 ^ (most + 1)` are written in full; others get
an exponent, a positive one after `positiveSign`. -/
structure Layout where
  least : Int
  most : Int
  positiveSign : String
  tie : Tie

def jsonLayout : Layout := ⟨-5, 15, "+", .even⟩

def consoleLayout : Layout := ⟨-4, 15, "", .above⟩

/-- `digits · 10 ^ exponent` in full notation. -/
def inFull (digits : List Char) (exponent : Int) : List Char :=
  let zeros (n : Int) : List Char := List.replicate n.toNat '0'
  let whole := digits.length + exponent
  if 0 ≤ exponent then digits ++ zeros exponent ++ ['.', '0']
  else if 0 < whole then digits.take whole.toNat ++ ['.'] ++ digits.drop whole.toNat
  else ['0', '.'] ++ zeros (-whole) ++ digits

/-- `digits · 10 ^ exponent` with one digit before the point. -/
def withExponent (layout : Layout) (digits : List Char) (exponent : Int) : List Char :=
  let power := digits.length + exponent - 1
  let mantissa := match digits with
    | [] => []
    | [d] => [d]
    | d :: rest => d :: '.' :: rest
  let sign := if power < 0 then "-" else layout.positiveSign
  mantissa ++ ['e'] ++ sign.toList ++ Nat.toDigits 10 power.natAbs

def magnitude (layout : Layout) (d : Digits) : List Char :=
  let digits := Nat.toDigits 10 d.digits
  let power := digits.length + d.exponent - 1
  if layout.least ≤ power && power ≤ layout.most then inFull digits d.exponent
  else withExponent layout digits d.exponent

/-- The text of a double: its sign, then the fewest digits that read back. -/
def render (layout : Layout) (x : Float) : String :=
  let b := Binary.ofFloat x
  if x.isNaN then "NaN"
  else
    let sign := if b.negative then "-" else ""
    if x.isInf then sign ++ "inf"
    else if b.mantissa = 0 then sign ++ "0.0"
    else sign ++ String.ofList (magnitude layout (shortest layout.tie b))

end ActionReplay.Decimal
