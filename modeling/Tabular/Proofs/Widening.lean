import Mathlib.Data.Rat.Cast.Order
import Tabular.Column
import Tabular.Proofs.Nearest

/-! # Integers among floats

A float column stores an integer as the nearest number. It is the integer itself if fifty-three
binary digits are enough to write it, but for zeros at the end.
-/

namespace Tabular

namespace Binary64

/-! ## Integers round to finite numbers -/

theorem cutOf_le {num den : Nat} (pos : 0 < den) (h : num < den * 2 ^ 64) :
    cutOf num den ≤ 1085 := by
  obtain ⟨n, all⟩ : ∃ n, n = 1074 := ⟨_, rfl⟩
  rw [cutOf, excess, unitsPerOne_eq all]
  by_cases zero : num * 2 ^ n / den = 0
  · rw [zero]
    decide
  · have below : num * 2 ^ n / den < 2 ^ (64 + n) := by
      rw [Nat.div_lt_iff_lt_mul pos, Nat.pow_add, Nat.mul_right_comm, Nat.mul_comm _ den]
      exact Nat.mul_lt_mul_of_pos_right h (Nat.two_pow_pos n)
    have digits := (Nat.log2_lt zero).mpr below
    omega

theorem nearestBits_lt {num den : Nat} (pos : 0 < den) (h : num < den * 2 ^ 64) :
    nearestBits num den < infinityBits :=
  calc nearestBits num den ≤ cutOf num den * fractionSize + leftOf num den := Nat.min_le_left ..
    _ ≤ 1085 * fractionSize + 2 * fractionSize :=
      Nat.add_le_add (Nat.mul_le_mul_right _ (cutOf_le pos h)) (leftOf_le pos)
    _ < infinityBits := by decide

theorem nearestBits_natAbs_lt (i : Int64) : nearestBits i.toInt.natAbs 1 < infinityBits := by
  apply nearestBits_lt Nat.one_pos
  have low := i.le_toInt
  have high := i.toInt_lt
  omega

theorem isNearest_ofInt64 (i : Int64) :
    IsNearest i.toInt (ofInt64 i) (ofInt64 i).value := by
  have same : quotient (i.toInt < 0) i.toInt.natAbs 1 = i.toInt := by
    rw [quotient, Nat.cast_natAbs, Nat.cast_one, div_one]
    by_cases negative : i.toInt < 0
    · simp [negative, abs_of_neg]
    · simp [negative, abs_of_nonneg (Int.not_lt.mp negative)]
  have nearest := isNearest_ofQuotient (i.toInt < 0) Nat.one_pos (nearestBits_natAbs_lt i)
  rwa [same] at nearest

theorem isFinite_ofInt64 (i : Int64) : (ofInt64 i).isFinite = true :=
  (meaning_eq_rational_iff.mp (isNearest_ofInt64 i).held).1

/-! ## Exact integers -/

theorem natAbs_units (x : Binary64) : x.units.natAbs = x.magnitude := by
  rw [units]
  split
  · rw [Int.natAbs_neg, Int.natAbs_natCast]
  · rw [Int.natAbs_natCast]

theorem magnitude_of_units {x : Binary64} {i : Int} (h : x.units = i * unitsPerOne) :
    magnitudeOfBits x.magnitudeBits = i.natAbs * unitsPerOne := by
  rw [← magnitude_eq, ← natAbs_units, h, Int.natAbs_mul, Int.natAbs_natCast]

/-- An integer that some number stands for is rounded to itself. -/
theorem units_ofInt64_of_magnitude {i : Int64} {bits : Nat}
    (exact_ : magnitudeOfBits bits = i.toInt.natAbs * unitsPerOne) :
    (ofInt64 i).units = i.toInt * unitsPerOne := by
  obtain ⟨pattern, sign, -⟩ := magnitudeBits_ofQuotient (i.toInt < 0) i.toInt.natAbs 1
  have least := (miss_nearestBits Nat.one_pos (nearestBits_natAbs_lt i) bits).1
  rw [miss, miss, Nat.mul_one, Nat.mul_one, exact_, Nat.dist_self, Nat.le_zero] at least
  have held : (ofInt64 i).magnitude = i.toInt.natAbs * unitsPerOne := by
    rw [magnitude_eq, ofInt64, pattern]
    exact Nat.eq_of_dist_eq_zero least
  rw [units, held, ofInt64, sign]
  generalize unitsPerOne = one
  by_cases negative : i.toInt < 0
  · simp [negative, abs_of_neg]
  · simp [negative, abs_of_nonneg (Int.not_lt.mp negative)]

/-- The integers among the magnitudes are those of fifty-three binary digits and any number of zeros
    behind them. -/
theorem exists_magnitude_iff {n : Nat} :
    (∃ bits, magnitudeOfBits bits = n * unitsPerOne) ↔ ∃ m e, m < 2 ^ 53 ∧ n = m * 2 ^ e := by
  obtain ⟨ones, all⟩ : ∃ n, n = 1074 := ⟨_, rfl⟩
  have size : 2 ^ 53 = 2 * fractionSize := rfl
  rw [unitsPerOne_eq all, size]
  constructor
  · rintro ⟨bits, same⟩
    obtain ⟨m, e, small, held⟩ := exists_significand bits
    rw [held] at same
    by_cases whole : ones ≤ e
    · obtain ⟨d, rfl⟩ := Nat.exists_eq_add_of_le whole
      rw [Nat.pow_add, Nat.mul_left_comm, Nat.mul_comm] at same
      exact ⟨m, d, small, (Nat.eq_of_mul_eq_mul_right (Nat.two_pow_pos ones) same).symm⟩
    · obtain ⟨d, rfl⟩ := Nat.exists_eq_add_of_le (Nat.le_of_not_le whole)
      rw [Nat.pow_add, Nat.mul_left_comm, Nat.mul_comm (2 ^ e)] at same
      have scaled := Nat.eq_of_mul_eq_mul_right (Nat.two_pow_pos e) same
      refine ⟨n, 0, ?_, (Nat.mul_one n).symm⟩
      exact ((Nat.le_mul_of_pos_right n (Nat.two_pow_pos d)).trans_eq scaled.symm).trans_lt small
  · rintro ⟨m, e, small, rfl⟩
    obtain ⟨bits, same⟩ := exists_magnitudeOfBits (e + ones) small
    exact ⟨bits, by rw [same, Nat.pow_add, Nat.mul_assoc]⟩

theorem integral?_ofInt64_iff {i : Int64} :
    (ofInt64 i).integral? = some i ↔ ∃ m e, m < 2 ^ 53 ∧ i.toInt.natAbs = m * 2 ^ e := by
  rw [integral?_eq_some_iff, ← exists_magnitude_iff]
  exact ⟨fun h => ⟨_, magnitude_of_units h.2⟩,
    fun ⟨_, held⟩ => ⟨isFinite_ofInt64 i, units_ofInt64_of_magnitude held⟩⟩

/-- A number that holds an integer is what the integer is rounded to, unless it is the negative
    zero. -/
theorem ofInt64_of_integral? {x : Binary64} {i : Int64} (h : x.integral? = some i) :
    ofInt64 i = if x = ⟨0x8000000000000000⟩ then ⟨0⟩ else x := by
  obtain ⟨finite, held⟩ := integral?_eq_some_iff.mp h
  have rounded := units_ofInt64_of_magnitude (magnitude_of_units held)
  have same := (numEq_iff_units (isFinite_ofInt64 i) finite).mpr (rounded.trans held.symm)
  simp only [numEq, Bool.and_eq_true, Bool.or_eq_true, beq_iff_eq] at same
  by_cases zero : x.magnitudeBits = 0
  · have nothing := magnitude_of_units held
    rw [← magnitude_eq, magnitude_eq_zero.mpr zero] at nothing
    have none : i.toInt.natAbs = 0 :=
      (Nat.mul_eq_zero.mp nothing.symm).resolve_right (Int.natCast_pos.mp unitsPerOne_pos).ne'
    obtain rfl : i = 0 := Int64.toInt_inj.mp (Int.natAbs_eq_zero.mp none)
    have plain : ofInt64 0 = ⟨0⟩ := by decide +kernel
    rw [plain]
    cases sign : x.isNegative with
    | true =>
        obtain rfl : x = ⟨0x8000000000000000⟩ := ext_fields sign zero
        exact (if_pos rfl).symm
    | false =>
        obtain rfl : x = ⟨0⟩ := ext_fields sign zero
        exact (if_neg (by decide)).symm
  · rw [if_neg (by rintro rfl; exact zero rfl)]
    exact same.2.resolve_right fun zeros => zero zeros.2

end Binary64

namespace Column

/-- What a number holds is the rational it stands for. What is stored for an integer is the number
    nearest to it, which is equal to the integer exactly if that has fifty-three significant binary
    digits at most, and every number that holds an integer comes back when the integer is stored. -/
theorem integer_stored_as_nearest {c : Column} (floats : c.dataType = .float) (i : Int64) :
    (∀ x : Binary64, x.integral? = some i ↔ x.meaning = .rational i.toInt) ∧
    ∃ w, c.stored (.integer i) = .ok (.float w) ∧ w.isFinite = true ∧
      (∃ r, Binary64.IsNearest i.toInt w r) ∧
      ((Value.integer i).sqlEq (.float w) = true ↔
        ∃ m e, m < 2 ^ 53 ∧ i.toInt.natAbs = m * 2 ^ e) ∧
      ∀ x : Binary64, x.integral? = some i → w = if x = ⟨0x8000000000000000⟩ then ⟨0⟩ else x := by
  refine ⟨fun x => Binary64.integral?_eq_some_iff_meaning, .ofInt64 i, ?_, ?_, ?_, ?_, ?_⟩
  · simp [stored, floats]
  · exact Binary64.isFinite_ofInt64 i
  · exact ⟨_, Binary64.isNearest_ofInt64 i⟩
  · rw [Value.sqlEq, beq_iff_eq]
    exact Binary64.integral?_ofInt64_iff
  · exact fun x => Binary64.ofInt64_of_integral?

/-- The integer after `2 ^ 53` lies halfway between two numbers, of which it is stored as the even
    one. The number is not equal to it. -/
theorem halfway_integer_stored_even :
    let c : Column := ⟨"a", .float, false, false, true⟩
    let i : Int64 := 9007199254740993
    let w : Binary64 := ⟨0x4340000000000000⟩
    c.dataType = .float ∧ c.stored (.integer i) = .ok (.float w) ∧
      (∃ r, Binary64.IsNearest i.toInt w r) ∧ (Value.integer i).sqlEq (.float w) = false ∧
      ¬ ∃ m e, m < 2 ^ 53 ∧ i.toInt.natAbs = m * 2 ^ e := by
  intro c i w
  have rounded : c.stored (.integer i) = .ok (.float w) := by decide +kernel
  have unequal : (Value.integer i).sqlEq (.float w) = false := by decide +kernel
  have floats : c.dataType = .float := rfl
  obtain ⟨-, w', stored, -, nearest, exact_, -⟩ := integer_stored_as_nearest floats i
  rw [rounded] at stored
  obtain rfl : w = w' := Value.float.inj (Except.ok.inj stored)
  refine ⟨floats, rounded, nearest, unequal, fun short => ?_⟩
  rw [exact_.mpr short] at unequal
  cases unequal

end Column

end Tabular
