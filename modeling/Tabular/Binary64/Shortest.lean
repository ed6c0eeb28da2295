import Tabular.Binary64.Basic

/-! # The fewest digits that read back

The numbers that round to a given one form an interval around it, ends included when its
significand is even. Of the decimal numbers in that interval the ones with the fewest digits are
looked for, and of those the nearest; of two equally near the larger is taken.
-/

namespace Tabular.Binary64

/-- A decimal number `digits · 10 ^ exponent`. -/
structure Decimal where
  digits : Nat
  exponent : Int
  deriving DecidableEq, Repr

/-- A magnitude with the ends of its interval of rounding, all three over one denominator. -/
structure Interval where
  low : Nat
  value : Nat
  high : Nat
  denominator : Nat
  /-- Whether the ends belong to the interval. -/
  closed : Bool

/-- The interval of the magnitudes that round to a finite number other than zero. The gap below a
    power of two is half as wide as the gap above it, the lowest power excepted. -/
def interval (x : Binary64) : Interval :=
  let gap := Nat.pow 2 x.scale
  let narrow := x.fractionField = 0 ∧ 1 < x.exponentField
  { low := 4 * x.magnitude - (if narrow then gap else 2 * gap)
    value := 4 * x.magnitude
    high := 4 * x.magnitude + 2 * gap
    denominator := 4 * unitsPerOne
    closed := x.significand % 2 = 0 }

namespace Interval

/-- Whether `num / den` lies in the interval. -/
def contains (i : Interval) (num den : Nat) : Bool :=
  let n := num * i.denominator
  if i.closed then i.low * den ≤ n && n ≤ i.high * den else i.low * den < n && n < i.high * den

/-- The multiple of `10 ^ exponent` in the interval that is nearest to the value, if any. -/
def nearestMultiple? (i : Interval) (exponent : Int) : Option Decimal :=
  let up := Nat.pow 10 exponent.toNat
  let down := Nat.pow 10 (-exponent).toNat
  let low := i.value * down / (i.denominator * up)
  let rest := i.value * down - low * (i.denominator * up)
  let lowIn := i.contains (low * up) down
  let highIn := i.contains ((low + 1) * up) down
  if highIn && (!lowIn || i.denominator * up ≤ 2 * rest) then some ⟨low + 1, exponent⟩
  else if lowIn then some ⟨low, exponent⟩
  else none

/-- The decimal number of the interval on the coarsest grid that has one, searched over so many
    grids from `10 ^ exponent` downwards. -/
def coarsest? (i : Interval) : Nat → Int → Option Decimal
  | 0, _ => none
  | grids + 1, exponent => i.nearestMultiple? exponent <|> i.coarsest? grids (exponent - 1)

end Interval

/-- The shortest decimal number that rounds to the magnitude of a finite number, which zero does not
    have. No number reaches `10 ^ 309`, and every interval has a point on the grid of
    `10 ^ (-331)`. -/
def shortest? (x : Binary64) : Option Decimal :=
  if x.magnitude = 0 then none else x.interval.coarsest? 641 309

end Tabular.Binary64
