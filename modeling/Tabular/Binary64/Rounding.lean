import Tabular.Binary64.Basic

/-! # Rounding to the nearest floating-point number

A quotient of integers becomes the nearest number, the one with the even pattern if two are equally
near. Integers and decimal literals are quotients.
-/

namespace Tabular.Binary64

/-- The integer nearest to `num / den`, the even one if two are equally near. -/
def divNearestEven (num den : Nat) : Nat :=
  let low := num / den
  let rest := 2 * (num % den)
  if rest < den ∨ rest = den ∧ low % 2 = 0 then low else low + 1

/-- The number of binary digits that have to be cut off so that at most fifty-three are left. -/
def excess (n : Nat) : Nat := n.log2 - 52

/-- The pattern of the number nearest to `num / den`. A significand of `q` doublings adds to the
    exponent field, so a carry out of the significand and the step from subnormal to normal numbers
    need no case of their own. -/
def nearestBits (num den : Nat) : Nat :=
  let scaled := num * unitsPerOne
  let cut := excess (scaled / den)
  min (cut * fractionSize + divNearestEven scaled (den * Nat.pow 2 cut)) infinityBits

/-- The number nearest to `num / den`, with the given sign. -/
def ofQuotient (negative : Bool) (num den : Nat) : Binary64 :=
  ⟨UInt64.ofNat ((if negative then signSize else 0) + nearestBits num den)⟩

/-- The number nearest to an integer. -/
def ofInt64 (i : Int64) : Binary64 := ofQuotient (i.toInt < 0) i.toInt.natAbs 1

/-- The value of a row of decimal digits. -/
def digitsValue (digits : List Char) : Nat :=
  digits.foldl (fun n c => 10 * n + (c.toNat - '0'.toNat)) 0

/-- The number nearest to the decimal number with the given digits before and after the point. -/
def ofDecimal (negative : Bool) (whole fraction : List Char) : Binary64 :=
  ofQuotient negative (digitsValue (whole ++ fraction)) (Nat.pow 10 fraction.length)

end Tabular.Binary64
