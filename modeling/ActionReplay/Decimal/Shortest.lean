/-!
# The shortest decimal of a double

A positive finite double is `m · 2 ^ q`. The reals that round to it form an interval around it, ends
included when `m` is even. `shortest` looks at the powers of ten from the coarsest down: on the grid
of multiples of a power it tests the two neighbours of the double, and takes the first grid on which
one lies in the interval, of two hits the nearer. Where both are equally near, a `Tie` chooses. All
arithmetic is exact, on natural numbers.
-/

set_option autoImplicit false
set_option relaxedAutoImplicit false

namespace ActionReplay.Decimal

/-- The parts of a double: its sign, its magnitude `mantissa · 2 ^ exponent`, and whether the gap
below it is half of the gap above it, as at a power of two. -/
structure Binary where
  negative : Bool
  mantissa : Nat
  exponent : Int
  narrowBelow : Bool

/-- The parts of a finite double. -/
def Binary.ofFloat (x : Float) : Binary :=
  let bits := x.toBits.toNat
  let hidden := Nat.pow 2 52
  let fraction := bits % hidden
  let field := bits / hidden % Nat.pow 2 11
  { negative := Nat.pow 2 63 ≤ bits
    mantissa := if field = 0 then fraction else fraction + hidden
    exponent := if field = 0 then -1074 else (field : Int) - 1075
    narrowBelow := fraction = 0 && 1 < field }

/-- The number `digits · 10 ^ exponent`. -/
structure Digits where
  digits : Nat
  exponent : Int

/-- Which of two equally near neighbours is taken: the one with an even last digit, or the larger. -/
inductive Tie where
  | even
  | above
deriving DecidableEq, Inhabited

/-- Whether the lower of two equally near neighbours is taken. -/
def Tie.takesBelow (tie : Tie) (below : Nat) : Bool :=
  match tie with
  | .even => below % 2 = 0
  | .above => false

/-- A neighbour of `b` on the grid of multiples of `10 ^ grid` that reads back as `b`. Everything is
scaled to the common denominator `unit`, a quarter of the gap above `b` being `quarter`. -/
def hit? (tie : Tie) (b : Binary) (grid : Int) : Option Digits :=
  let raise (base : Nat) (e : Int) : Nat := Nat.pow base e.toNat
  let quarter := raise 2 (b.exponent - 2) * raise 10 (-grid)
  let unit := raise 2 (2 - b.exponent) * raise 10 grid
  let value := 4 * b.mantissa * quarter
  let low := value - (if b.narrowBelow then 1 else 2) * quarter
  let high := value + 2 * quarter
  let closed := b.mantissa % 2 = 0
  let inside (n : Nat) : Bool :=
    if closed then low ≤ n && n ≤ high else low < n && n < high
  let below := value / unit
  let above := below + 1
  let belowFits := below ≠ 0 && inside (below * unit)
  let aboveFits := inside (above * unit)
  let toBelow := value - below * unit
  let toAbove := above * unit - value
  if belowFits && aboveFits then
    if toBelow < toAbove || (toBelow = toAbove && tie.takesBelow below) then some ⟨below, grid⟩
    else some ⟨above, grid⟩
  else if belowFits then some ⟨below, grid⟩
  else if aboveFits then some ⟨above, grid⟩
  else none

/-- The first hit on the grids `grid`, `grid - 1`, …, at most `count` of them. -/
def firstHit (tie : Tie) (b : Binary) (grid : Int) : Nat → Digits
  | 0 => ⟨0, 0⟩
  | count + 1 => (hit? tie b grid).getD (firstHit tie b (grid - 1) count)

/-- The fewest decimal digits that read back as a positive finite double. The search starts above the
double's own power of ten, which its binary length bounds, and seventeen digits always suffice. -/
def shortest (tie : Tie) (b : Binary) : Digits :=
  let length : Int := b.mantissa.log2 + 1 + b.exponent
  firstHit tie b ((length * 30103).fdiv 100000 + 2) 24

end ActionReplay.Decimal
