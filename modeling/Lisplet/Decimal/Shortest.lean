import Lisplet.Decimal.Binary64

/-!
# Shortest decimals

The decimal that stands for a positive double has the fewest digits among the
decimals that round to it. Those decimals fill the interval between the middles
to the neighbouring doubles, ends included if the significand is even. For one
digit, two digits and so on, the two decimals next to the value are tried; if
both lie in the interval, the nearer one is taken, and the upper one if they are
equally near.
-/

namespace Lisplet

/-- The number `digits * 10 ^ exponent`. -/
structure Decimal where
  digits : Nat
  exponent : Int
deriving DecidableEq, Repr

namespace Decimal

/-- The number of digits of a numeral. -/
def digitCount (number : Nat) : Nat :=
  (Nat.repr number).length

/-- The power of ten at or below a positive value: its exponent in scientific
form. -/
def leadingExponent (value : Dyadic) : Int :=
  if value.denominator ≤ value.numerator then
    digitCount value.floor - 1
  else
    -- The value lies below one, so its reciprocal, rounded up, exceeds one.
    -(digitCount ((value.denominator - 1) / value.numerator) : Int)

/-- The interval of the numbers that round to a double, in quarters of a unit of
its significand. -/
structure Interval where
  lower : Nat
  middle : Nat
  upper : Nat
  /-- Whether the ends belong to the interval. -/
  closed : Bool
deriving DecidableEq, Repr

/-- The numbers that round to a double. Below a power of two the doubles lie
twice as close, unless they are the smallest ones. -/
def Interval.ofDyadic (value : Dyadic) : Interval :=
  let below :=
    if value.significand = Nat.pow 2 Binary64.fractionBits ∧ value.exponent ≠ Binary64.leastExponent
      then 1 else 2
  { lower := 4 * value.significand - below
    middle := 4 * value.significand
    upper := 4 * value.significand + 2
    closed := value.significand % 2 == 0 }

/-- An interval and the multiples of a power of ten, brought to whole numbers:
the multiples lie `step` apart. -/
structure Grid where
  interval : Interval
  step : Nat
deriving DecidableEq, Repr

/-- The interval of a double against the multiples of ten to the given power. -/
def Grid.ofDyadic (value : Dyadic) (power : Int) : Grid :=
  let interval := Interval.ofDyadic value
  let quarters := value.exponent - 2
  let scale := Nat.pow 2 quarters.toNat * Nat.pow 10 (-power).toNat
  { interval := {
      lower := interval.lower * scale
      middle := interval.middle * scale
      upper := interval.upper * scale
      closed := interval.closed }
    step := Nat.pow 10 power.toNat * Nat.pow 2 (-quarters).toNat }

namespace Grid

/-- Whether a multiple of the step lies in the interval. -/
def holds (grid : Grid) (multiple : Nat) : Bool :=
  let point := multiple * grid.step
  if grid.interval.closed then
    grid.interval.lower ≤ point && point ≤ grid.interval.upper
  else
    grid.interval.lower < point && point < grid.interval.upper

/-- The multiple in the interval that is nearest to its middle, if there is one
next to it. -/
def nearest? (grid : Grid) : Option Nat :=
  let below := grid.interval.middle / grid.step
  let above := below + 1
  match grid.holds below, grid.holds above with
  | true, true =>
    if above * grid.step - grid.interval.middle ≤ grid.interval.middle - below * grid.step
      then some above else some below
  | true, false => some below
  | false, true => some above
  | false, false => none

end Grid

/-- A double has at most this many significant digits. -/
def digitLimit : Nat := 17

/-- The decimal for a double on the coarsest of the next `tries` grids that has
one; the first grid is that of ten to the given power. -/
def onGrids (value : Dyadic) : Nat → Int → Decimal
  | 0, power => ⟨value.floor, power⟩
  | tries + 1, power =>
    match (Grid.ofDyadic value power).nearest? with
    | some digits => ⟨digits, power⟩
    | none => onGrids value tries (power - 1)

/-- The shortest decimal for a positive double. -/
def shortest (value : Dyadic) : Decimal :=
  onGrids value digitLimit (leadingExponent value)

end Decimal

end Lisplet
