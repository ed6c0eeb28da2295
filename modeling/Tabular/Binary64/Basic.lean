/-! # Floating-point numbers as exact values

A number is its 64-bit pattern: a sign, eleven bits of exponent and fifty-two bits of fraction.
Every finite number is a whole multiple of 2⁻¹⁰⁷⁴, so its exact value is an integer count of that
unit, and comparison and conversion are integer arithmetic.
-/

namespace Tabular

/-- A double-precision number, told apart from others by its bit pattern. -/
structure Binary64 where
  bits : UInt64
  deriving DecidableEq, Repr

namespace Binary64

/-- The weight of the lowest exponent bit: patterns split here into exponent and fraction. -/
def fractionSize : Nat := Nat.pow 2 52

/-- The weight of the sign bit. -/
def signSize : Nat := Nat.pow 2 63

/-- The number of units in one. -/
def unitsPerOne : Nat := Nat.pow 2 1074

/-- The pattern of infinity without its sign: all exponent bits set, no fraction. -/
def infinityBits : Nat := 2047 * fractionSize

/-- Whether the sign bit is set. -/
def isNegative (x : Binary64) : Bool := signSize ≤ x.bits.toNat

/-- The pattern without its sign. -/
def magnitudeBits (x : Binary64) : Nat := x.bits.toNat % signSize

/-- Whether the number is neither infinite nor undefined. -/
def isFinite (x : Binary64) : Bool := x.magnitudeBits < infinityBits

/-- Whether the pattern stands for no number. -/
def isNaN (x : Binary64) : Bool := infinityBits < x.magnitudeBits

/-- The exponent field. -/
def exponentField (x : Binary64) : Nat := x.magnitudeBits / fractionSize

/-- The fraction field. -/
def fractionField (x : Binary64) : Nat := x.magnitudeBits % fractionSize

/-- The factor of `2 ^ scale` in the magnitude. -/
def significand (x : Binary64) : Nat :=
  if x.exponentField = 0 then x.fractionField else fractionSize + x.fractionField

/-- How often the significand is doubled to give the magnitude in units. -/
def scale (x : Binary64) : Nat := x.exponentField - 1

/-- The magnitude of a finite number, in units. -/
def magnitude (x : Binary64) : Nat := x.significand * Nat.pow 2 x.scale

/-- The value of a finite number, in units. -/
def units (x : Binary64) : Int := if x.isNegative then -(x.magnitude : Int) else x.magnitude

/-- Numeric equality: both zeros are equal, and what is no number equals nothing. -/
def numEq (x y : Binary64) : Bool :=
  !x.isNaN && !y.isNaN && (x == y || x.magnitudeBits == 0 && y.magnitudeBits == 0)

/-- The 64-bit integer that a number is exactly, if there is one. -/
def integral? (x : Binary64) : Option Int64 :=
  let whole := x.units / unitsPerOne
  if x.isFinite ∧ x.units % unitsPerOne = 0 ∧ Int64.minValue.toInt ≤ whole ∧
      whole ≤ Int64.maxValue.toInt then
    some (Int64.ofInt whole)
  else
    none

end Binary64

end Tabular
