import Mathlib.Algebra.Order.Field.Rat
import Mathlib.Tactic.FieldSimp
import Mathlib.Tactic.Ring
import Tabular.Proofs.Equality

/-! # What a pattern stands for

A pattern of sixty-four bits stands for a rational number, for an infinity or for no number. The
integer that a number holds is the rational it stands for, and numbers are equal if they stand for
the same.
-/

namespace Tabular.Binary64

/-- What a pattern stands for. -/
inductive Meaning where
  /-- No number. -/
  | undefined
  | infinite (negative : Bool)
  | rational (q : ℚ)
  deriving DecidableEq

/-- The magnitude that an exponent field and a fraction field stand for. The exponent is written
    1023 too high and the fraction follows the point. A digit one precedes it, but under the lowest
    exponent a zero. -/
def exactMagnitude (exponent fraction : Nat) : ℚ :=
  if exponent = 0 then fraction / 2 ^ 52 * 2 ^ (-1022 : ℤ)
  else (1 + fraction / 2 ^ 52) * 2 ^ ((exponent : ℤ) - 1023)

/-- What the fields of a pattern say together. The highest exponent is that of the infinities. -/
def meaning (x : Binary64) : Meaning :=
  let negative : Bool := 2 ^ 63 ≤ x.bits.toNat
  let exponent := x.bits.toNat / 2 ^ 52 % 2 ^ 11
  let fraction := x.bits.toNat % 2 ^ 52
  if exponent = 2047 then
    if fraction = 0 then .infinite negative else .undefined
  else
    .rational ((if negative then -1 else 1) * exactMagnitude exponent fraction)

theorem unitsPerOne_eq {n : Nat} (all : n = 1074) : unitsPerOne = 2 ^ n := by
  unfold unitsPerOne
  rw [← all, Nat.pow_eq]

theorem cast_unitsPerOne_pos : (0 : ℚ) < unitsPerOne :=
  Nat.cast_pos.mpr (Int.natCast_pos.mp unitsPerOne_pos)

theorem exactMagnitude_eq (x : Binary64) :
    exactMagnitude x.exponentField x.fractionField = x.magnitude / unitsPerOne := by
  have ones : (unitsPerOne : ℚ) = 2 ^ 52 * 2 ^ 1022 := by
    rw [unitsPerOne_eq (n := 52 + 1022) rfl, Nat.cast_pow, Nat.cast_ofNat, pow_add]
  rw [exactMagnitude, ones]
  split
  · rename_i lowest
    have held : x.magnitude = x.fractionField := by
      simp [magnitude, significand, scale, lowest]
    rw [held, zpow_neg, ← div_div]
    rfl
  · rename_i normal
    obtain ⟨e, he⟩ := Nat.exists_eq_succ_of_ne_zero normal
    have held : x.magnitude = (2 ^ 52 + x.fractionField) * 2 ^ e := by
      simp [magnitude, significand, scale, he, fractionSize]
    have shifted : (2 : ℚ) ^ ((e.succ : ℤ) - 1023) = 2 ^ e / 2 ^ 1022 := by
      rw [← zpow_natCast, ← zpow_natCast, ← zpow_sub₀ two_ne_zero]
      congr 1
      omega
    rw [held, he, shifted]
    push_cast
    field_simp
    norm_num

theorem exponentField_eq (x : Binary64) : x.exponentField = x.bits.toNat / 2 ^ 52 % 2 ^ 11 := by
  simp only [exponentField, magnitudeBits, fractionSize, signSize, Nat.pow_eq]
  omega

theorem fractionField_eq (x : Binary64) : x.fractionField = x.bits.toNat % 2 ^ 52 := by
  simp only [fractionField, magnitudeBits, fractionSize, signSize, Nat.pow_eq]
  omega

theorem isFinite_iff {x : Binary64} : x.isFinite = true ↔ x.exponentField ≠ 2047 := by
  have bound := x.bits.toNat_lt
  rw [isFinite, decide_eq_true_eq, exponentField]
  simp only [infinityBits, magnitudeBits, fractionSize, signSize, Nat.pow_eq]
  omega

theorem isNaN_iff {x : Binary64} :
    x.isNaN = true ↔ x.exponentField = 2047 ∧ x.fractionField ≠ 0 := by
  have bound := x.bits.toNat_lt
  rw [isNaN, decide_eq_true_eq, exponentField, fractionField]
  simp only [infinityBits, magnitudeBits, fractionSize, signSize, Nat.pow_eq]
  omega

/-- The rational number that so many units are. -/
def value (x : Binary64) : ℚ := x.units / unitsPerOne

theorem value_eq_iff {x : Binary64} {q : ℚ} :
    x.value = q ↔ (x.units : ℚ) = q * unitsPerOne := div_eq_iff cast_unitsPerOne_pos.ne'

theorem sign_mul_exactMagnitude (x : Binary64) :
    (if x.isNegative then -1 else 1) * exactMagnitude x.exponentField x.fractionField =
      x.value := by
  rw [exactMagnitude_eq, value, units]
  generalize unitsPerOne = one
  cases x.isNegative
  · simp
  · simp [neg_div]

/-- A finite number stands for its count of units, and no other number for a rational one. -/
theorem meaning_eq (x : Binary64) :
    x.meaning =
      if x.isFinite then .rational x.value
      else if x.isNaN then .undefined
      else .infinite x.isNegative := by
  have sign : x.isNegative = decide (2 ^ 63 ≤ x.bits.toNat) := rfl
  simp only [meaning, ← exponentField_eq, ← fractionField_eq, ← sign, sign_mul_exactMagnitude,
    isFinite_iff, isNaN_iff]
  by_cases highest : x.exponentField = 2047
  · simp only [highest, if_true, ne_eq, not_true_eq_false, if_false, true_and, ite_not]
  · simp only [highest, if_false, ne_eq, not_false_eq_true, if_true]

theorem meaning_of_finite {x : Binary64} (h : x.isFinite = true) :
    x.meaning = .rational x.value := by
  rw [meaning_eq, if_pos h]

theorem meaning_eq_rational_iff {x : Binary64} {q : ℚ} :
    x.meaning = .rational q ↔ x.isFinite = true ∧ x.value = q := by
  rw [meaning_eq]
  cases x.isFinite <;> cases x.isNaN <;> simp

/-- The integer that a number holds is the rational it stands for. -/
theorem integral?_eq_some_iff_meaning {x : Binary64} {i : Int64} :
    x.integral? = some i ↔ x.meaning = .rational i.toInt := by
  rw [integral?_eq_some_iff, meaning_eq_rational_iff, value_eq_iff]
  generalize unitsPerOne = one
  norm_cast

theorem meaning_eq_undefined_iff {x : Binary64} : x.meaning = .undefined ↔ x.isNaN = true := by
  rw [meaning_eq]
  cases finite : x.isFinite with
  | true => simp [isNaN_of_isFinite finite]
  | false => cases x.isNaN <;> simp

theorem meaning_eq_infinite_iff {x : Binary64} {negative : Bool} :
    x.meaning = .infinite negative ↔
      x.magnitudeBits = infinityBits ∧ x.isNegative = negative := by
  have sides : x.magnitudeBits = infinityBits ↔ x.isFinite = false ∧ x.isNaN = false := by
    simp only [isFinite, isNaN, decide_eq_false_iff_not]
    omega
  rw [meaning_eq, sides]
  cases x.isFinite <;> cases x.isNaN <;> simp

/-- Numbers are equal if they stand for the same. -/
theorem numEq_iff_meaning {x y : Binary64} :
    x.numEq y = true ↔ x.meaning = y.meaning ∧ x.meaning ≠ .undefined := by
  constructor
  · intro same
    have parts := same
    simp only [numEq, Bool.and_eq_true, Bool.not_eq_true', Bool.or_eq_true, beq_iff_eq] at parts
    obtain ⟨⟨number, -⟩, rfl | ⟨zero, zero'⟩⟩ := parts
    · refine ⟨rfl, fun undefined => ?_⟩
      rw [meaning_eq_undefined_iff.mp undefined] at number
      cases number
    · have finite := isFinite_of_magnitudeBits zero
      have finite' := isFinite_of_magnitudeBits zero'
      rw [meaning_of_finite finite, meaning_of_finite finite', value, value,
        (numEq_iff_units finite finite').mp same]
      exact ⟨rfl, Meaning.noConfusion⟩
  · rintro ⟨same, number⟩
    cases meant : x.meaning with
    | undefined => exact absurd meant number
    | infinite negative =>
        obtain ⟨magnitude, sign⟩ := meaning_eq_infinite_iff.mp meant
        obtain ⟨magnitude', sign'⟩ := meaning_eq_infinite_iff.mp (same ▸ meant)
        obtain rfl := ext_fields (sign.trans sign'.symm) (magnitude.trans magnitude'.symm)
        rw [ne_eq, meaning_eq_undefined_iff, Bool.not_eq_true] at number
        exact numEq_self number
    | rational q =>
        obtain ⟨finite, held⟩ := meaning_eq_rational_iff.mp meant
        obtain ⟨finite', held'⟩ := meaning_eq_rational_iff.mp (same ▸ meant)
        rw [numEq_iff_units finite finite']
        exact Int.cast_injective ((value_eq_iff.mp held).trans (value_eq_iff.mp held').symm)

end Tabular.Binary64
