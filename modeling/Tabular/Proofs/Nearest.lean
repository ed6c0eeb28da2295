import Mathlib.Algebra.Order.Field.Basic
import Mathlib.Data.Nat.Dist
import Tabular.Binary64.Rounding
import Tabular.Proofs.Meaning

/-! # Rounding is to the nearest number

No number is nearer to a quotient than the one it is rounded to, and if another one is as near, the
last bit of that one is clear.
-/

namespace Tabular.Binary64

/-! ## Patterns by exponent and significand -/

theorem fractionSize_pos : 0 < fractionSize := Nat.two_pow_pos 52

theorem magnitudeOfBits_subnormal {f : Nat} (small : f < fractionSize) : magnitudeOfBits f = f := by
  simp [magnitudeOfBits, Nat.div_eq_of_lt small, Nat.mod_eq_of_lt small]

theorem magnitudeOfBits_normal {f : Nat} (e : Nat) (small : f < fractionSize) :
    magnitudeOfBits ((e + 1) * fractionSize + f) = (fractionSize + f) * 2 ^ e := by
  have field : ((e + 1) * fractionSize + f) / fractionSize = e + 1 := by
    rw [Nat.mul_comm, Nat.mul_add_div fractionSize_pos, Nat.div_eq_of_lt small, Nat.add_zero]
  have fraction : ((e + 1) * fractionSize + f) % fractionSize = f := by
    rw [Nat.mul_comm, Nat.mul_add_mod, Nat.mod_eq_of_lt small]
  simp [magnitudeOfBits, field, fraction]

/-- A significand of full size stands for itself, doubled as often as its exponent says. One that is
    twice the full size carries over into the next exponent. -/
theorem magnitudeOfBits_compose {cut significand : Nat}
    (full : cut = 0 ∨ fractionSize ≤ significand) (bound : significand ≤ 2 * fractionSize) :
    magnitudeOfBits (cut * fractionSize + significand) = significand * 2 ^ cut := by
  by_cases small : significand < fractionSize
  · obtain rfl : cut = 0 := full.resolve_right (Nat.not_le.mpr small)
    rw [Nat.zero_mul, Nat.zero_add, magnitudeOfBits_subnormal small, Nat.pow_zero, Nat.mul_one]
  obtain ⟨f, rfl⟩ := Nat.exists_eq_add_of_le (Nat.not_lt.mp small)
  by_cases inside : f < fractionSize
  · rw [← Nat.add_assoc, ← Nat.succ_mul, magnitudeOfBits_normal cut inside]
  · obtain rfl : f = fractionSize := by omega
    have carried : cut * fractionSize + (fractionSize + fractionSize) =
        (cut + 1 + 1) * fractionSize + 0 := by
      rw [Nat.succ_mul, Nat.succ_mul]
      omega
    rw [carried, magnitudeOfBits_normal (cut + 1) fractionSize_pos, Nat.pow_succ]
    ring

/-- From a power of two on, magnitudes are multiples of the weight that the lowest bit has there. -/
theorem magnitudeOfBits_grid (bits cut : Nat) :
    (∃ k, magnitudeOfBits bits = k * 2 ^ cut) ∨
      0 < cut ∧ magnitudeOfBits bits < fractionSize * 2 ^ cut := by
  have below := Nat.mod_lt bits fractionSize_pos
  unfold magnitudeOfBits
  by_cases fine : cut ≤ bits / fractionSize - 1
  · obtain ⟨d, same⟩ := Nat.exists_eq_add_of_le fine
    left
    rw [same, Nat.pow_add, Nat.mul_comm (2 ^ cut), ← Nat.mul_assoc]
    exact ⟨_, rfl⟩
  · right
    refine ⟨by omega, ?_⟩
    have doubled : 2 * 2 ^ (bits / fractionSize - 1) ≤ 2 ^ cut := by
      rw [← Nat.pow_succ']
      exact Nat.pow_le_pow_right Nat.two_pos (by omega)
    calc _ < 2 * fractionSize * 2 ^ (bits / fractionSize - 1) :=
          Nat.mul_lt_mul_of_pos_right (by split <;> omega) (Nat.two_pow_pos _)
      _ = fractionSize * (2 * 2 ^ (bits / fractionSize - 1)) := by ring
      _ ≤ fractionSize * 2 ^ cut := Nat.mul_le_mul_left _ doubled

theorem exists_significand (bits : Nat) :
    ∃ m e, m < 2 * fractionSize ∧ magnitudeOfBits bits = m * 2 ^ e := by
  have below := Nat.mod_lt bits fractionSize_pos
  exact ⟨_, _, by split <;> omega, rfl⟩

/-- Every significand, doubled as often as one likes, is a magnitude. -/
theorem exists_magnitudeOfBits {m : Nat} (e : Nat) (small : m < 2 * fractionSize) :
    ∃ bits, magnitudeOfBits bits = m * 2 ^ e := by
  induction e generalizing m with
  | zero => exact ⟨_, magnitudeOfBits_compose (.inl rfl) small.le⟩
  | succ e ih =>
      by_cases full : fractionSize ≤ m
      · exact ⟨_, magnitudeOfBits_compose (.inr full) small.le⟩
      -- A significand that is not full takes over one of the doublings.
      · obtain ⟨bits, same⟩ := ih (m := 2 * m) (by omega)
        refine ⟨bits, ?_⟩
        rw [same, Nat.pow_succ]
        ring

/-! ## Multiples of a denominator -/

theorem mul_add_le_of_lt {j k : Nat} (den : Nat) (h : j < k) : j * den + den ≤ k * den := by
  rw [← Nat.succ_mul]
  exact Nat.mul_le_mul_right den h

theorem divNearestEven_half (num : Nat) {den : Nat} (pos : 0 < den) :
    2 * Nat.dist (divNearestEven num den * den) num ≤ den ∧
      (2 * Nat.dist (divNearestEven num den * den) num = den → divNearestEven num den % 2 = 0) := by
  have split := Nat.div_add_mod' num den
  have below := Nat.mod_lt num pos
  simp only [divNearestEven, Nat.dist]
  split
  · omega
  · rw [Nat.succ_mul (num / den)]
    omega

/-- No multiple is nearer than that of the rounded quotient, which is even if another is as near. -/
theorem divNearestEven_nearest (num : Nat) {den : Nat} (pos : 0 < den) (k : Nat) :
    Nat.dist (divNearestEven num den * den) num ≤ Nat.dist (k * den) num ∧
      (Nat.dist (k * den) num = Nat.dist (divNearestEven num den * den) num →
        k ≠ divNearestEven num den → divNearestEven num den % 2 = 0) := by
  obtain ⟨half, tie⟩ := divNearestEven_half num pos
  generalize divNearestEven num den = q at half tie ⊢
  unfold Nat.dist at *
  rcases Nat.lt_trichotomy k q with below | rfl | above
  · have apart := mul_add_le_of_lt den below
    omega
  · exact ⟨le_rfl, fun _ other => absurd rfl other⟩
  · have apart := mul_add_le_of_lt den above
    omega

theorem le_divNearestEven {num den k : Nat} (pos : 0 < den) (h : k * den ≤ num) :
    k ≤ divNearestEven num den := by
  by_contra below
  have half := (divNearestEven_half num pos).1
  have apart := mul_add_le_of_lt den (Nat.not_le.mp below)
  unfold Nat.dist at half
  omega

theorem divNearestEven_le {num den k : Nat} (pos : 0 < den) (h : num ≤ k * den) :
    divNearestEven num den ≤ k := by
  by_contra above
  have half := (divNearestEven_half num pos).1
  have apart := mul_add_le_of_lt den (Nat.not_le.mp above)
  unfold Nat.dist at half
  omega

/-! ## Quotients -/

/-- So much is cut off that fifty-three digits are left, and less only where nothing is cut off. -/
theorem excess_spec (n : Nat) :
    n < 2 * fractionSize * 2 ^ excess n ∧
      (excess n = 0 ∨ fractionSize * 2 ^ excess n ≤ n) := by
  have weight : fractionSize * 2 ^ excess n = 2 ^ (52 + excess n) := (Nat.pow_add ..).symm
  have above := Nat.lt_log2_self (n := n)
  rw [Nat.mul_assoc, weight, ← Nat.pow_succ']
  unfold excess
  constructor
  · exact above.trans_le (Nat.pow_le_pow_right Nat.two_pos (by omega))
  · by_cases few : n.log2 ≤ 52
    · exact .inl (by omega)
    · have some : n ≠ 0 := by
        rintro rfl
        simp at few
      right
      rw [Nat.add_sub_cancel' (by omega)]
      exact Nat.log2_self_le some

/-- The number of binary digits that are cut off a quotient in units. -/
def cutOf (num den : Nat) : Nat := excess (num * unitsPerOne / den)

/-- What the lowest digit that is left weighs, over the denominator. -/
def weightOf (num den : Nat) : Nat := den * 2 ^ cutOf num den

/-- What is left of a quotient in units. -/
def leftOf (num den : Nat) : Nat := divNearestEven (num * unitsPerOne) (weightOf num den)

variable {num den : Nat}

theorem weightOf_pos (num : Nat) (pos : 0 < den) : 0 < weightOf num den :=
  Nat.mul_pos pos (Nat.two_pow_pos _)

theorem leftOf_le (pos : 0 < den) : leftOf num den ≤ 2 * fractionSize := by
  have above := (Nat.div_lt_iff_lt_mul pos).mp (excess_spec (num * unitsPerOne / den)).1
  refine divNearestEven_le (weightOf_pos num pos) (above.le.trans_eq ?_)
  rw [weightOf, cutOf]
  ring

theorem scaled_of_cut (num : Nat) (pos : 0 < den) :
    cutOf num den = 0 ∨ fractionSize * weightOf num den ≤ num * unitsPerOne := by
  refine (excess_spec (num * unitsPerOne / den)).2.imp_right fun full => ?_
  have below := (Nat.le_div_iff_mul_le pos).mp full
  rwa [Nat.mul_assoc, Nat.mul_comm _ den] at below

theorem magnitude_nearestBits (pos : 0 < den) (finite : nearestBits num den < infinityBits) :
    nearestBits num den = cutOf num den * fractionSize + leftOf num den ∧
      magnitudeOfBits (nearestBits num den) = leftOf num den * 2 ^ cutOf num den := by
  have found : nearestBits num den = cutOf num den * fractionSize + leftOf num den := by
    have least : nearestBits num den =
        min (cutOf num den * fractionSize + leftOf num den) infinityBits := rfl
    omega
  refine ⟨found, ?_⟩
  rw [found]
  exact magnitudeOfBits_compose
    ((scaled_of_cut num pos).imp_right (le_divNearestEven (weightOf_pos num pos))) (leftOf_le pos)

/-- By how much the magnitude of a pattern misses a quotient, over the denominator and in units. -/
def miss (num den bits : Nat) : Nat := Nat.dist (magnitudeOfBits bits * den) (num * unitsPerOne)

/-- No pattern misses a quotient by less than the one it is rounded to. -/
theorem miss_nearestBits (pos : 0 < den) (finite : nearestBits num den < infinityBits)
    (bits : Nat) :
    miss num den (nearestBits num den) ≤ miss num den bits ∧
      (miss num den bits = miss num den (nearestBits num den) → bits ≠ nearestBits num den →
        nearestBits num den % 2 = 0) := by
  obtain ⟨pattern, magnitude⟩ := magnitude_nearestBits pos finite
  have nearest := divNearestEven_nearest (num * unitsPerOne) (weightOf_pos num pos)
  have product (k : Nat) : k * 2 ^ cutOf num den * den = k * weightOf num den := by
    rw [weightOf]
    ring
  have parity : nearestBits num den % 2 = leftOf num den % 2 := by
    rw [pattern, fractionSize, Nat.pow_eq]
    omega
  rw [parity]
  simp only [miss, magnitude, product]
  rcases magnitudeOfBits_grid bits (cutOf num den) with ⟨k, multiple⟩ | ⟨cut, small⟩
  · rw [multiple, product]
    refine ⟨(nearest k).1, fun tie different => (nearest k).2 tie ?_⟩
    rintro rfl
    exact different (strictMono_magnitudeOfBits.injective (multiple.trans magnitude.symm))
  -- A multiple of the weight lies between a smaller magnitude and the quotient.
  · have between : Nat.dist (leftOf num den * weightOf num den) (num * unitsPerOne) ≤
        Nat.dist (fractionSize * weightOf num den) (num * unitsPerOne) := (nearest fractionSize).1
    have scaled := (scaled_of_cut num pos).resolve_left cut.ne'
    have smaller := Nat.mul_lt_mul_of_pos_right small pos
    rw [product] at smaller
    generalize fractionSize * weightOf num den = full at between scaled smaller
    generalize num * unitsPerOne = target at between scaled ⊢
    unfold Nat.dist at *
    omega

/-! ## Numbers with a sign -/

theorem magnitudeBits_ofQuotient (negative : Bool) (num den : Nat) :
    (ofQuotient negative num den).magnitudeBits = nearestBits num den ∧
      (ofQuotient negative num den).isNegative = negative ∧
      (ofQuotient negative num den).bits.toNat % 2 = nearestBits num den % 2 := by
  have below : nearestBits num den ≤ infinityBits := Nat.min_le_right ..
  rw [isNegative]
  simp only [ofQuotient, magnitudeBits, UInt64.toNat_ofNat', infinityBits, fractionSize, signSize,
    Nat.pow_eq] at below ⊢
  cases negative <;> simp <;> omega

/-- A quotient with a sign, over the denominator and in units. -/
def target (negative : Bool) (num : Nat) : Int :=
  if negative then -(num * unitsPerOne : Nat) else (num * unitsPerOne : Nat)

theorem miss_eq {x : Binary64} {negative : Bool} (sign : x.isNegative = negative) (num den : Nat) :
    (x.units * den - target negative num).natAbs = miss num den x.magnitudeBits := by
  rw [units, target, miss, ← magnitude_eq, sign]
  generalize num * unitsPerOne = scaled
  cases negative <;> simp [Nat.dist] <;> omega

theorem miss_le (x : Binary64) (negative : Bool) (num den : Nat) :
    miss num den x.magnitudeBits ≤ (x.units * den - target negative num).natAbs := by
  rw [units, target, miss, ← magnitude_eq]
  generalize num * unitsPerOne = scaled
  cases negative <;> cases x.isNegative <;> simp [Nat.dist] <;> omega

/-- The number of the other sign is as near to a quotient only if both are zero. -/
theorem units_eq_of_tie {y : Binary64} {negative : Bool} (pos : 0 < den)
    (finite : nearestBits num den < infinityBits) (same : y.magnitudeBits = nearestBits num den)
    (tie : (y.units * den - target negative num).natAbs = miss num den (nearestBits num den)) :
    y.units = (ofQuotient negative num den).units := by
  obtain ⟨pattern, sign, -⟩ := magnitudeBits_ofQuotient negative num den
  have least := (miss_nearestBits pos finite 0).1
  have none : magnitudeOfBits 0 = 0 := by decide
  rw [miss, miss, none] at least
  rw [units, target, magnitude_eq, same, miss] at tie
  rw [units, units, magnitude_eq, magnitude_eq, same, pattern, sign]
  generalize num * unitsPerOne = scaled at least tie
  generalize magnitudeOfBits (nearestBits num den) = held at least tie ⊢
  unfold Nat.dist at least tie
  by_cases signs : y.isNegative = negative
  · rw [signs]
  -- Over zero the two distances add up, so one of them is nothing.
  · have zero : held * den = 0 := by
      cases negative <;> simp at signs <;> simp [signs] at tie <;> omega
    obtain rfl : held = 0 := (Nat.mul_eq_zero.mp zero).resolve_right pos.ne'
    simp

/-! ## The nearest number -/

/-- A number that stands for `r`, the nearest to `q` of all that numbers stand for. Of two that are
    equally near it is the one whose last bit is clear. -/
structure IsNearest (q : ℚ) (x : Binary64) (r : ℚ) : Prop where
  held : x.meaning = .rational r
  nearest : ∀ (y : Binary64) p, y.meaning = .rational p → |r - q| ≤ |p - q|
  even : ∀ (y : Binary64) p, y.meaning = .rational p → |p - q| = |r - q| → p ≠ r →
    x.bits.toNat % 2 = 0

/-- The quotient with a sign. -/
def quotient (negative : Bool) (num den : Nat) : ℚ := (if negative then -1 else 1) * (num / den)

theorem quotient_eq (negative : Bool) (num : Nat) (pos : 0 < den) :
    quotient negative num den = target negative num / (den * unitsPerOne) := by
  have ones := cast_unitsPerOne_pos
  have dens : (0 : ℚ) < den := Nat.cast_pos.mpr pos
  rw [quotient, target]
  generalize unitsPerOne = one at ones ⊢
  cases negative
  · simp only [Bool.false_eq_true, if_false]
    push_cast
    field_simp
  · simp only [if_true]
    push_cast
    field_simp

theorem dist_quotient (x : Binary64) (negative : Bool) (num : Nat) (pos : 0 < den) :
    |x.value - quotient negative num den| =
      (x.units * den - target negative num).natAbs / (den * unitsPerOne) := by
  have ones := cast_unitsPerOne_pos
  have dens : (0 : ℚ) < den := Nat.cast_pos.mpr pos
  rw [value, quotient_eq negative num pos]
  generalize target negative num = goal
  generalize unitsPerOne = one at ones ⊢
  have same : (x.units / one - goal / (den * one) : ℚ) =
      (x.units * den - goal : ℤ) / (den * one) := by
    push_cast
    field_simp
  rw [same, abs_div, abs_of_pos (mul_pos dens ones), Nat.cast_natAbs, Int.cast_abs]

/-- Rounding gives the number nearest to a quotient, if it gives a finite one. -/
theorem isNearest_ofQuotient (negative : Bool) (pos : 0 < den)
    (finite : nearestBits num den < infinityBits) :
    IsNearest (quotient negative num den) (ofQuotient negative num den)
      (ofQuotient negative num den).value := by
  obtain ⟨pattern, sign, parity⟩ := magnitudeBits_ofQuotient negative num den
  have missed := miss_eq sign num den
  rw [pattern] at missed
  have whole : (ofQuotient negative num den).isFinite = true := by
    rw [isFinite, pattern, decide_eq_true finite]
  have scale : (0 : ℚ) < den * unitsPerOne := mul_pos (Nat.cast_pos.mpr pos) cast_unitsPerOne_pos
  refine ⟨meaning_of_finite whole, fun y p meant => ?_, fun y p meant tie different => ?_⟩
  · obtain rfl := (meaning_eq_rational_iff.mp meant).2
    rw [dist_quotient _ _ _ pos, dist_quotient _ _ _ pos, missed,
      div_le_div_iff_of_pos_right scale, Nat.cast_le]
    exact (miss_nearestBits pos finite _).1.trans (miss_le y negative num den)
  · obtain rfl := (meaning_eq_rational_iff.mp meant).2
    rw [dist_quotient _ _ _ pos, dist_quotient _ _ _ pos, missed, div_left_inj' scale.ne',
      Nat.cast_inj] at tie
    obtain ⟨nearest, even⟩ := miss_nearestBits pos finite y.magnitudeBits
    rw [parity]
    refine even (le_antisymm ((miss_le y negative num den).trans_eq tie) nearest) fun same => ?_
    exact different (by rw [value, value, units_eq_of_tie pos finite same tie])

end Tabular.Binary64
