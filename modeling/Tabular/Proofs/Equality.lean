import Mathlib.Algebra.Order.Group.Nat
import Mathlib.Order.Monotone.Basic
import Tabular.Key

/-! # Equality by keys

Two values are equal in the language exactly if both are numbers or no numbers at all and their
index keys are the same. Equality therefore is symmetric and transitive, and an index can take the
place of a comparison.
-/

namespace Tabular

namespace Binary64

/-- The magnitude, in units, that a pattern without its sign stands for. -/
def magnitudeOfBits (n : Nat) : Nat :=
  (if n / fractionSize = 0 then n % fractionSize else fractionSize + n % fractionSize) *
    2 ^ (n / fractionSize - 1)

theorem magnitude_eq (x : Binary64) : x.magnitude = magnitudeOfBits x.magnitudeBits := rfl

theorem magnitudeOfBits_lt_succ (n : Nat) : magnitudeOfBits n < magnitudeOfBits (n + 1) := by
  have size : 0 < fractionSize := Nat.two_pow_pos 52
  have below : n % fractionSize < fractionSize := Nat.mod_lt n size
  have split := Nat.div_add_mod n fractionSize
  by_cases inside : n % fractionSize + 1 < fractionSize
  · have quotient : (n + 1) / fractionSize = n / fractionSize := by
      rw [← split, Nat.add_assoc, Nat.mul_add_div size, Nat.mul_add_div size,
        Nat.div_eq_of_lt inside, Nat.div_eq_of_lt below]
    have remainder : (n + 1) % fractionSize = n % fractionSize + 1 := by
      conv_lhs => rw [← split, Nat.add_assoc, Nat.mul_add_mod, Nat.mod_eq_of_lt inside]
    simp only [magnitudeOfBits, quotient, remainder]
    refine Nat.mul_lt_mul_of_pos_right ?_ (Nat.two_pow_pos _)
    split <;> omega
  -- The last fraction of an exponent is followed by the first of the next exponent.
  · have last : n % fractionSize + 1 = fractionSize := by omega
    have next : n + 1 = fractionSize * (n / fractionSize + 1) := by
      rw [Nat.mul_add, Nat.mul_one]
      omega
    have quotient : (n + 1) / fractionSize = n / fractionSize + 1 := by
      rw [next, Nat.mul_div_cancel_left _ size]
    have remainder : (n + 1) % fractionSize = 0 := by rw [next, Nat.mul_mod_right]
    simp only [magnitudeOfBits, quotient, remainder, Nat.succ_ne_zero, if_false, Nat.add_zero,
      Nat.add_sub_cancel]
    split
    · rename_i lowest
      simp only [lowest, Nat.zero_sub, Nat.pow_zero, Nat.mul_one]
      exact below
    · rename_i normal
      obtain ⟨e, he⟩ := Nat.exists_eq_succ_of_ne_zero normal
      rw [he, Nat.succ_sub_one, Nat.pow_succ, Nat.mul_comm (2 ^ e) 2, ← Nat.mul_assoc]
      refine Nat.mul_lt_mul_of_pos_right ?_ (Nat.two_pow_pos e)
      omega

theorem strictMono_magnitudeOfBits : StrictMono magnitudeOfBits :=
  strictMono_nat_of_lt_succ magnitudeOfBits_lt_succ

theorem magnitude_inj {x y : Binary64} :
    x.magnitude = y.magnitude ↔ x.magnitudeBits = y.magnitudeBits := by
  rw [magnitude_eq, magnitude_eq]
  exact strictMono_magnitudeOfBits.injective.eq_iff

theorem magnitude_eq_zero {x : Binary64} : x.magnitude = 0 ↔ x.magnitudeBits = 0 := by
  rw [magnitude_eq]
  exact strictMono_magnitudeOfBits.injective.eq_iff' (by decide)

theorem toNat_bits (x : Binary64) :
    x.bits.toNat = (if x.isNegative then signSize else 0) + x.magnitudeBits := by
  have bound := x.bits.toNat_lt
  by_cases negative : signSize ≤ x.bits.toNat
  · simp only [isNegative, magnitudeBits, negative, decide_true, if_true]
    simp only [signSize, Nat.pow_eq] at negative ⊢
    omega
  · simp only [isNegative, magnitudeBits, negative, decide_false, Bool.false_eq_true, if_false]
    simp only [signSize, Nat.pow_eq] at negative ⊢
    omega

theorem ext_fields {x y : Binary64} (sign : x.isNegative = y.isNegative)
    (magnitude : x.magnitudeBits = y.magnitudeBits) : x = y := by
  obtain ⟨a⟩ := x
  obtain ⟨b⟩ := y
  congr 1
  apply UInt64.toNat_inj.mp
  have ha := toNat_bits ⟨a⟩
  have hb := toNat_bits ⟨b⟩
  rw [sign, magnitude] at ha
  exact ha.trans hb.symm

theorem isNaN_of_isFinite {x : Binary64} (h : x.isFinite = true) : x.isNaN = false := by
  simp only [isFinite, isNaN, decide_eq_true_eq, decide_eq_false_iff_not] at h ⊢
  omega

/-- Both zeros are finite. -/
theorem isFinite_of_magnitudeBits {x : Binary64} (zero : x.magnitudeBits = 0) :
    x.isFinite = true := by
  simp only [isFinite, zero]
  decide

/-- Finite numbers are numerically equal if they stand for the same count of units. -/
theorem numEq_iff_units {x y : Binary64} (hx : x.isFinite = true) (hy : y.isFinite = true) :
    x.numEq y = true ↔ x.units = y.units := by
  simp only [numEq, isNaN_of_isFinite hx, isNaN_of_isFinite hy, Bool.not_false, Bool.true_and,
    Bool.or_eq_true, Bool.and_eq_true, beq_iff_eq]
  constructor
  · rintro (rfl | ⟨zx, zy⟩)
    · rfl
    · simp [units, magnitude_eq_zero.mpr zx, magnitude_eq_zero.mpr zy]
  · intro same
    have magnitudes : x.magnitude = y.magnitude := by
      have := congrArg Int.natAbs same
      simp only [units] at this
      split at this <;> split at this <;> simpa using this
    by_cases zero : x.magnitude = 0
    · exact .inr ⟨magnitude_eq_zero.mp zero, magnitude_eq_zero.mp (magnitudes ▸ zero)⟩
    · refine .inl (ext_fields ?_ (magnitude_inj.mp magnitudes))
      cases hx : x.isNegative <;> cases hy : y.isNegative <;> simp [units, hx, hy] at same ⊢ <;>
        omega

theorem unitsPerOne_pos : (0 : Int) < unitsPerOne := by
  apply Int.natCast_pos.mpr
  unfold unitsPerOne
  apply Nat.pow_pos
  exact Nat.two_pos

/-- A number holds an integer if it stands for that many ones. -/
theorem integral?_eq_some_iff {x : Binary64} {i : Int64} :
    x.integral? = some i ↔ x.isFinite = true ∧ x.units = i.toInt * unitsPerOne := by
  have pos := unitsPerOne_pos
  simp only [integral?]
  constructor
  · intro h
    split at h
    · rename_i exact_
      obtain ⟨finite, whole, low, high⟩ := exact_
      cases h
      refine ⟨finite, ?_⟩
      rw [Int64.toInt_ofInt_of_le low (Int.lt_of_le_of_lt high (by decide))]
      exact (Int.ediv_mul_cancel (Int.dvd_of_emod_eq_zero whole)).symm
    · cases h
  · rintro ⟨finite, same⟩
    rw [same, Int.mul_ediv_cancel _ (Int.ne_of_gt pos), Int.mul_emod_left]
    rw [if_pos ⟨finite, rfl, Int64.minValue_le_toInt i, Int64.toInt_le i⟩, Int64.ofInt_toInt]

/-- Numerically equal numbers hold the same integer, if they hold one. -/
theorem integral?_congr {x y : Binary64} (h : x.numEq y = true) : x.integral? = y.integral? := by
  have same := h
  simp only [numEq, Bool.and_eq_true, Bool.or_eq_true, beq_iff_eq] at same
  obtain ⟨-, rfl | ⟨zx, zy⟩⟩ := same
  · rfl
  · have finite := isFinite_of_magnitudeBits zx
    have finite' := isFinite_of_magnitudeBits zy
    have units := (numEq_iff_units finite finite').mp h
    apply Option.ext
    intro i
    rw [integral?_eq_some_iff, integral?_eq_some_iff, units, finite, finite']

theorem numEq_self {x : Binary64} (h : x.isNaN = false) : x.numEq x = true := by
  simp [numEq, h]

theorem eq_of_numEq_of_not_integral {x y : Binary64} (h : x.numEq y = true)
    (fractional : x.integral? = none) : x = y := by
  simp only [numEq, Bool.and_eq_true, Bool.or_eq_true, beq_iff_eq] at h
  obtain ⟨-, same | ⟨zero, -⟩⟩ := h
  · exact same
  · have holds : x.integral? = some 0 := by
      refine integral?_eq_some_iff.mpr ⟨isFinite_of_magnitudeBits zero, ?_⟩
      have none : x.units = 0 := by simp [units, magnitude_eq_zero.mpr zero]
      rw [none, Int64.toInt_zero, Int.zero_mul]
    rw [fractional] at holds
    cases holds

end Binary64

namespace Value

theorem key_float (x : Binary64) :
    key (.float x) = match x.integral? with
      | some i => .integer i
      | none => .float x.bits := by
  rw [key]
  cases x.integral? <;> rfl

theorem numEq_iff_key {x y : Binary64} :
    x.numEq y = true ↔
      x.isNaN = false ∧ y.isNaN = false ∧ key (.float x) = key (.float y) := by
  constructor
  · intro same
    have numbers := same
    simp only [Binary64.numEq, Bool.and_eq_true, Bool.not_eq_true'] at numbers
    refine ⟨numbers.1.1, numbers.1.2, ?_⟩
    rw [key_float, key_float, ← Binary64.integral?_congr same]
    cases whole : x.integral? with
    | some i => rfl
    | none => rw [Binary64.eq_of_numEq_of_not_integral same whole]
  · rintro ⟨nx, ny, same⟩
    rw [key_float, key_float] at same
    cases hx : x.integral? <;> cases hy : y.integral? <;> simp only [hx, hy] at same
    · cases x
      cases y
      cases same
      exact Binary64.numEq_self nx
    · cases same
    · cases same
    · cases same
      obtain ⟨fx, ux⟩ := Binary64.integral?_eq_some_iff.mp hx
      obtain ⟨fy, uy⟩ := Binary64.integral?_eq_some_iff.mp hy
      exact (Binary64.numEq_iff_units fx fy).mpr (ux.trans uy.symm)

theorem integral?_iff_key {i : Int64} {x : Binary64} :
    x.integral? = some i ↔ x.isNaN = false ∧ key (.integer i) = key (.float x) := by
  rw [key_float]
  cases whole : x.integral? with
  | none => simp [key]
  | some j =>
      have number := Binary64.isNaN_of_isFinite (Binary64.integral?_eq_some_iff.mp whole).1
      simp [key, number, eq_comm]

theorem key_float_ne {k : Key} (h : k.rank < 2 ∨ 3 < k.rank) (x : Binary64) :
    key (.float x) ≠ k := by
  rintro rfl
  rw [key_float] at h
  split at h <;> simp [Key.rank] at h

theorem sqlEq_iff_key_of_kinds {a b : Value} (unequal : a.sqlEq b = false)
    (kinds : a.key ≠ b.key) :
    a.sqlEq b = true ↔ a.isNaN = false ∧ b.isNaN = false ∧ a.key = b.key := by
  simp only [unequal, kinds, Bool.false_eq_true, and_false]

/-- Values are equal in the language if both are comparable and they share a key. -/
theorem sqlEq_iff_key {a b : Value} :
    a.sqlEq b = true ↔ a.isNaN = false ∧ b.isNaN = false ∧ a.key = b.key := by
  match a, b with
  | .float x, .float y => exact numEq_iff_key
  | .integer i, .float x =>
      rw [show sqlEq (.integer i) (.float x) = (x.integral? == some i) from rfl, beq_iff_eq,
        integral?_iff_key]
      exact ⟨fun ⟨number, same⟩ => ⟨rfl, number, same⟩, fun ⟨_, number, same⟩ => ⟨number, same⟩⟩
  | .float x, .integer i =>
      rw [show sqlEq (.float x) (.integer i) = (x.integral? == some i) from rfl, beq_iff_eq,
        integral?_iff_key]
      exact ⟨fun ⟨number, same⟩ => ⟨number, rfl, same.symm⟩,
        fun ⟨number, _, same⟩ => ⟨number, same.symm⟩⟩
  | .float x, .null => exact sqlEq_iff_key_of_kinds rfl (key_float_ne (.inl (by decide)) x)
  | .float x, .boolean b =>
      exact sqlEq_iff_key_of_kinds rfl (key_float_ne (.inl (by simp [key, Key.rank])) x)
  | .float x, .text s =>
      exact sqlEq_iff_key_of_kinds rfl (key_float_ne (.inr (by simp [key, Key.rank])) x)
  | .null, .float x => exact sqlEq_iff_key_of_kinds rfl (key_float_ne (.inl (by decide)) x).symm
  | .boolean b, .float x =>
      exact sqlEq_iff_key_of_kinds rfl (key_float_ne (.inl (by simp [key, Key.rank])) x).symm
  | .text s, .float x =>
      exact sqlEq_iff_key_of_kinds rfl (key_float_ne (.inr (by simp [key, Key.rank])) x).symm
  | .null, .null | .null, .boolean _ | .null, .integer _ | .null, .text _
  | .boolean _, .null | .boolean _, .boolean _ | .boolean _, .integer _ | .boolean _, .text _
  | .integer _, .null | .integer _, .boolean _ | .integer _, .integer _ | .integer _, .text _
  | .text _, .null | .text _, .boolean _ | .text _, .integer _ | .text _, .text _ =>
      simp [sqlEq, isNaN, key]

theorem sqlEq_comm (a b : Value) : a.sqlEq b = b.sqlEq a := by
  apply Bool.eq_iff_iff.mpr
  rw [sqlEq_iff_key, sqlEq_iff_key]
  exact ⟨fun ⟨ha, hb, same⟩ => ⟨hb, ha, same.symm⟩, fun ⟨hb, ha, same⟩ => ⟨ha, hb, same.symm⟩⟩

end Value

/-- Whether a key stands for no number. -/
def Key.isNaN : Key → Bool
  | .float bits => Binary64.isNaN ⟨bits⟩
  | _ => false

namespace Value

theorem isNaN_key (v : Value) : v.key.isNaN = v.isNaN := by
  cases v with
  | null | boolean | integer | text => rfl
  | float x =>
      rw [key_float]
      cases whole : x.integral? with
      | none => rfl
      | some i =>
          exact (Binary64.isNaN_of_isFinite (Binary64.integral?_eq_some_iff.mp whole).1).symm

/-- What is no number shares its key only with what is no number either. -/
theorem isNaN_congr {a b : Value} (h : a.key = b.key) : a.isNaN = b.isNaN := by
  rw [← isNaN_key, ← isNaN_key, h]

theorem sqlEq_iff_of_number {a b : Value} (number : b.isNaN = false) :
    a.sqlEq b = true ↔ a.key = b.key := by
  rw [sqlEq_iff_key]
  exact ⟨fun h => h.2.2, fun same => ⟨(isNaN_congr same).trans number, number, same⟩⟩

theorem sqlEq_of_isNaN {a b : Value} (h : b.isNaN = true) : a.sqlEq b = false := by
  apply Bool.eq_false_iff.mpr
  intro same
  have number := (sqlEq_iff_key.mp same).2.1
  rw [h] at number
  cases number

theorem sqlEq_self {v : Value} (number : v.isNaN = false) : v.sqlEq v = true :=
  sqlEq_iff_key.mpr ⟨number, number, rfl⟩

theorem sqlEq_trans {a b c : Value} (first : a.sqlEq b = true) (second : b.sqlEq c = true) :
    a.sqlEq c = true := by
  obtain ⟨number, -, same⟩ := sqlEq_iff_key.mp first
  obtain ⟨-, number', same'⟩ := sqlEq_iff_key.mp second
  exact sqlEq_iff_key.mpr ⟨number, number', same.trans same'⟩

/-- Null equals nothing but null. -/
theorem ne_null_of_sqlEq {a b : Value} (same : a.sqlEq b = true) (present : b ≠ .null) :
    a ≠ .null := by
  rintro rfl
  cases b <;> simp_all [sqlEq]

/-- Two cells that a unique column can hold together: null goes with everything. -/
def Apart (a b : Value) : Prop := a = .null ∨ a.sqlEq b = false

theorem Apart.symm {a b : Value} (h : Apart a b) : Apart b a := by
  rcases h with rfl | unequal
  · cases b with
    | null => exact .inl rfl
    | boolean | integer | float | text => exact .inr rfl
  · exact .inr ((sqlEq_comm b a).trans unequal)

theorem apart_iff_sqlEq {a b : Value} (present : b ≠ .null) :
    Apart a b ↔ a.sqlEq b = false := by
  constructor
  · rintro (rfl | unequal)
    · cases b with
      | null => exact absurd rfl present
      | boolean | integer | float | text => rfl
    · exact unequal
  · exact .inr

theorem apart_of_exempt {a b : Value} (h : a = .null ∨ a.isNaN = true) : Apart a b := by
  rcases h with null | undefined
  · exact .inl null
  · exact Apart.symm (.inr (sqlEq_of_isNaN undefined))

/-- What is not null goes with everything but what is comparable and has its key. -/
theorem apart_iff_of_present {a b : Value} (present : a ≠ .null) :
    Apart a b ↔ (b ≠ .null → b.isNaN = false → b.key ≠ a.key) := by
  constructor
  · intro apart there number same
    rcases apart with null | unequal
    · exact present null
    · rw [(sqlEq_iff_of_number number).mpr same.symm] at unequal
      cases unequal
  · intro fresh
    by_cases there : b = .null
    · exact Apart.symm (.inl there)
    · refine .inr (Bool.eq_false_iff.mpr fun same => ?_)
      obtain ⟨-, number, keys⟩ := sqlEq_iff_key.mp same
      exact fresh there number keys.symm

end Value

end Tabular
