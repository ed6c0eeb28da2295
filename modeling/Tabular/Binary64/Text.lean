import Tabular.Binary64.Shortest

/-! # Numbers as text

A number is written with the fewest digits that read back. Very large and very small numbers are
written with an exponent, all others with a point and at least one digit after it.
-/

namespace Tabular

/-- The choices left open once the digits of a number are known. -/
structure NumberStyle where
  /-- The lowest exponent of the leading digit that is written positionally. -/
  leastExponent : Int
  /-- The highest exponent of the leading digit that is written positionally. -/
  greatestExponent : Int
  /-- What follows the digits of a whole number. -/
  wholeMark : String
  exponentMark : String
  nan : String
  infinity : String
  negativeMark : String

namespace NumberStyle

/-- Numbers from 10⁻⁴ up to 10¹⁶ are positional and whole numbers end in `.0`. -/
def plain : NumberStyle :=
  { leastExponent := -4
    greatestExponent := 15
    wholeMark := ".0"
    exponentMark := "e"
    nan := "NaN"
    infinity := "inf"
    negativeMark := "-" }

/-- Digits with a point after the first and the exponent of the first behind them. -/
def exponential (style : NumberStyle) (digits : List Char) (lead : Int) : String :=
  let tail := if digits.length ≤ 1 then "" else "." ++ String.ofList (digits.drop 1)
  String.ofList (digits.take 1) ++ tail ++ style.exponentMark ++ toString lead

/-- Digits around a point, filled up with zeros; the first digit has the exponent `lead`. -/
def positional (style : NumberStyle) (digits : List Char) (lead : Int) : String :=
  let whole := (lead + 1).toNat
  if lead < 0 then
    "0." ++ String.ofList (List.replicate (-lead - 1).toNat '0' ++ digits)
  else if digits.length ≤ whole then
    String.ofList (digits ++ List.replicate (whole - digits.length) '0') ++ style.wholeMark
  else
    String.ofList (digits.take whole) ++ "." ++ String.ofList (digits.drop whole)

/-- A decimal number other than zero. -/
def decimal (style : NumberStyle) (d : Binary64.Decimal) : String :=
  let digits := (toString d.digits).toList
  let lead := d.exponent + (digits.length - 1 : Nat)
  if style.leastExponent ≤ lead ∧ lead ≤ style.greatestExponent then
    style.positional digits lead
  else
    style.exponential digits lead

/-- A number with its sign. -/
def number (style : NumberStyle) (x : Binary64) : String :=
  if x.isNaN then
    style.nan
  else
    let magnitude :=
      if x.isFinite then (x.shortest?.map style.decimal).getD ("0" ++ style.wholeMark)
      else style.infinity
    if x.isNegative then style.negativeMark ++ magnitude else magnitude

end NumberStyle

/-- The text of a number, as results and messages show it. -/
def Binary64.text (x : Binary64) : String := NumberStyle.plain.number x

end Tabular
