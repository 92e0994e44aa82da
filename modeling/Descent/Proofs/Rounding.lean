import Descent.Decimal
import Mathlib.Algebra.Order.Field.Power
import Mathlib.Data.Int.Log
import Mathlib.Data.Rat.Floor
import Mathlib.Tactic.FieldSimp
import Mathlib.Tactic.GCongr
import Mathlib.Tactic.Positivity

/-!
# Rounding goes by the number, not by how it is written

The nearest binary fraction is found from a quotient of whole numbers, by way of an estimate of its
size. The estimate depends on the two whole numbers. What it is corrected to does not: it is the
binary logarithm of the quotient, so that a common factor makes no difference. Nor does a zero
behind the digits of a numeral, if the power of ten goes down by one.
-/

namespace Descent

namespace Binary64

variable {n k : Nat} {q : Quotient} {power : Int}

namespace Quotient

/-- The number that a quotient stands for. -/
def value (q : Quotient) : ℚ := q.numerator / q.denominator

/-- Neither part of the quotient is zero. -/
structure Positive (q : Quotient) : Prop where
  above : 0 < q.numerator
  below : 0 < q.denominator

/-- A quotient with a common factor. -/
def times (k : Nat) (q : Quotient) : Quotient := ⟨k * q.numerator, k * q.denominator⟩

theorem Positive.times (positive : q.Positive) (factor : 0 < k) : (q.times k).Positive :=
  ⟨Nat.mul_pos factor positive.above, Nat.mul_pos factor positive.below⟩

theorem Positive.value (positive : q.Positive) : 0 < q.value :=
  div_pos (Nat.cast_pos.mpr positive.above) (Nat.cast_pos.mpr positive.below)

/-- A common factor does not change the number. -/
theorem value_times (q : Quotient) (factor : 0 < k) : (q.times k).value = q.value := by
  have nonzero : (k : ℚ) ≠ 0 := Nat.cast_ne_zero.mpr (Nat.ne_of_gt factor)
  rw [value, times, Nat.cast_mul, Nat.cast_mul, mul_div_mul_left _ _ nonzero, value]

end Quotient

/-! ## The scale of a quotient -/

/-- A number lies between the powers of two that its length in binary digits says. -/
theorem bitLength_bounds (positive : 0 < n) :
    2 ^ ((bitLength n : Int) - 1) ≤ (n : ℚ) ∧ (n : ℚ) < 2 ^ (bitLength n : Int) := by
  have nonzero : n ≠ 0 := Nat.ne_of_gt positive
  have length : bitLength n = n.log2 + 1 := if_neg nonzero
  have least : 2 ^ n.log2 ≤ n := Nat.log2_self_le nonzero
  have most : n < 2 ^ (n.log2 + 1) := Nat.lt_log2_self
  rw [length, Nat.cast_succ, add_sub_cancel_right, zpow_natCast, ← Nat.cast_succ, zpow_natCast]
  exact ⟨by exact_mod_cast least, by exact_mod_cast most⟩

/-- A quotient is halved as its number is. -/
theorem value_halved (q : Quotient) (power : Int) :
    (halved q power).value = q.value / 2 ^ power := by
  unfold halved Quotient.value twoTo
  rcases Int.lt_or_le power 0 with negative | positive
  · obtain ⟨k, rfl⟩ := Int.eq_negSucc_of_lt_zero negative
    rw [if_pos negative, zpow_negSucc, div_inv_eq_mul, div_mul_eq_mul_div]
    simp
  · obtain ⟨k, rfl⟩ := Int.eq_ofNat_of_zero_le positive
    rw [if_neg (by omega), zpow_natCast, div_div]
    simp

theorem Quotient.Positive.halved (positive : q.Positive) (power : Int) :
    (halved q power).Positive := by
  have two (k : Nat) : 0 < twoTo k := Nat.two_pow_pos k
  unfold Binary64.halved
  split
  · exact ⟨Nat.mul_pos positive.above (two _), positive.below⟩
  · exact ⟨positive.above, Nat.mul_pos positive.below (two _)⟩

/-- The lengths of both parts tell the size of a quotient up to a factor of two on either side. -/
theorem value_bounds (positive : q.Positive) :
    2 ^ ((bitLength q.numerator : Int) - bitLength q.denominator - 1) ≤ q.value ∧
      q.value < 2 ^ ((bitLength q.numerator : Int) - bitLength q.denominator + 1) := by
  obtain ⟨leastAbove, mostAbove⟩ := bitLength_bounds positive.above
  obtain ⟨leastBelow, mostBelow⟩ := bitLength_bounds positive.below
  have two (power : Int) : (0 : ℚ) < 2 ^ power := zpow_pos two_pos power
  have below : (0 : ℚ) < q.denominator := Nat.cast_pos.mpr positive.below
  constructor
  · calc (2 : ℚ) ^ ((bitLength q.numerator : Int) - bitLength q.denominator - 1)
        = 2 ^ ((bitLength q.numerator : Int) - 1) / 2 ^ (bitLength q.denominator : Int) := by
          rw [sub_right_comm, zpow_sub₀ two_ne_zero]
      _ ≤ q.numerator / q.denominator :=
          div_le_div₀ (Nat.cast_nonneg _) leastAbove below mostBelow.le
  · calc (q.numerator / q.denominator : ℚ)
        < 2 ^ (bitLength q.numerator : Int) / 2 ^ ((bitLength q.denominator : Int) - 1) :=
          div_lt_div₀ mostAbove leastBelow (two _).le (two _)
      _ = 2 ^ ((bitLength q.numerator : Int) - bitLength q.denominator + 1) := by
          rw [← zpow_sub₀ two_ne_zero, ← sub_add]

/-- A power of two is the last one up to a number if the next one is above it. -/
theorem log_eq {x : ℚ} (positive : 0 < x) (least : 2 ^ power ≤ x) (most : x < 2 ^ (power + 1)) :
    Int.log 2 x = power := by
  have atLeast : power ≤ Int.log 2 x :=
    (Int.zpow_le_iff_le_log Nat.one_lt_two positive).mp (by exact_mod_cast least)
  have lessThan : Int.log 2 x < power + 1 :=
    (Int.lt_zpow_iff_log_lt Nat.one_lt_two positive).mp (by exact_mod_cast most)
  omega

/-- The scale is the binary logarithm, less the 52 digits behind the first one. -/
theorem scale_eq_log (positive : q.Positive) :
    scale q = max (-1074) (Int.log 2 q.value - 52) := by
  obtain ⟨least, most⟩ := value_bounds positive
  generalize span : (bitLength q.numerator : Int) - bitLength q.denominator = m at least most
  have exceeds : twoTo 53 * (halved q (m - 53)).denominator ≤ (halved q (m - 53)).numerator ↔
      2 ^ m ≤ q.value := by
    have below : (0 : ℚ) < (halved q (m - 53)).denominator :=
      Nat.cast_pos.mpr (positive.halved _).below
    have two : (0 : ℚ) < 2 ^ (m - 53) := zpow_pos two_pos _
    calc twoTo 53 * (halved q (m - 53)).denominator ≤ (halved q (m - 53)).numerator
        ↔ (2 : ℚ) ^ 53 ≤ (halved q (m - 53)).value := by
          rw [Quotient.value, le_div_iff₀ below, twoTo]
          exact_mod_cast Iff.rfl
      _ ↔ 2 ^ m ≤ q.value := by
          rw [value_halved, le_div_iff₀ two, ← zpow_natCast, ← zpow_add₀ two_ne_zero]
          norm_num
  unfold scale
  dsimp only
  rw [span]
  congr 1
  by_cases more : (2 : ℚ) ^ m ≤ q.value
  · rw [if_pos (decide_eq_true (exceeds.mpr more)), log_eq positive.value more most]
    omega
  · rw [if_neg (by simpa using mt exceeds.mp more),
      log_eq positive.value least (by rw [sub_add_cancel]; exact not_le.mp more)]
    omega

/-! ## Common factors -/

theorem halved_times (q : Quotient) (k : Nat) (power : Int) :
    halved (q.times k) power = (halved q power).times k := by
  unfold halved Quotient.times
  split
  · rw [Nat.mul_assoc]
  · rw [Nat.mul_assoc]

theorem rounded_times (q : Quotient) (factor : 0 < k) : rounded (q.times k) = rounded q := by
  unfold rounded Quotient.times
  simp only [Nat.mul_div_mul_left _ _ factor, Nat.mul_mod_mul_left, Nat.mul_left_comm 2 k,
    Nat.mul_lt_mul_left factor]

/-- A common factor does not change what is nearest. -/
theorem nearest_times (positive : q.Positive) (factor : 0 < k) :
    nearest (q.times k) = nearest q := by
  have scaled : scale (q.times k) = scale q := by
    rw [scale_eq_log (positive.times factor), scale_eq_log positive, q.value_times factor]
  unfold nearest nearestBits
  dsimp only
  rw [scaled, halved_times, rounded_times _ factor]

end Binary64

namespace Decimal

open Binary64 (tenTo)

/-- The number that a numeral stands for. -/
def value (d : Decimal) : ℚ := d.digits * 10 ^ d.exponent

/-- A zero behind the digits makes them one longer. -/
theorem length_tenfold {n : Nat} (positive : 0 < n) : length (10 * n) = length n + 1 := by
  have shift : Nat.toDigits 10 (10 * n) = Nat.toDigits 10 n ++ ['0'] := by
    rw [Nat.toDigits_of_base_le (by decide) (by omega), Nat.mul_div_cancel_left n (by decide),
      Nat.mul_mod_right]
    rfl
  rw [length, shift, List.length_append]
  rfl

/-- The quotient of a numeral has another common factor, if it is not the same. -/
theorem quotient_tenfold (n : Nat) (exponent : Int) :
    quotient ⟨10 * n, exponent - 1⟩ = quotient ⟨n, exponent⟩ ∨
      quotient ⟨10 * n, exponent - 1⟩ = (quotient ⟨n, exponent⟩).times 10 := by
  have tenTo_succ (k : Nat) : tenTo (k + 1) = 10 * tenTo k := Nat.pow_succ'
  have one : tenTo 0 = 1 := rfl
  unfold quotient Binary64.Quotient.times
  dsimp only
  rcases Int.lt_trichotomy exponent 0 with negative | rfl | positive
  · have less : (exponent - 1).natAbs = exponent.natAbs + 1 := by omega
    rw [if_pos (by omega), if_pos negative, less, tenTo_succ]
    exact .inr rfl
  · right
    simp [tenTo_succ, one]
  · have more : exponent.natAbs = (exponent - 1).natAbs + 1 := by omega
    rw [if_neg (by omega), if_neg (by omega), more, tenTo_succ, Nat.mul_comm 10 n, Nat.mul_assoc]
    exact .inl rfl

theorem quotient_positive {n : Nat} (positive : 0 < n) (exponent : Int) :
    (quotient ⟨n, exponent⟩).Positive := by
  have ten (k : Nat) : 0 < tenTo k := Nat.pow_pos (by decide)
  unfold quotient
  split
  · exact ⟨positive, ten _⟩
  · exact ⟨Nat.mul_pos positive (ten _), Nat.one_pos⟩

/-- A zero behind the digits and one power of ten less are the same to the binary fraction. -/
theorem toFloat_tenfold (n : Nat) (exponent : Int) :
    toFloat ⟨10 * n, exponent - 1⟩ = toFloat ⟨n, exponent⟩ := by
  rcases Nat.eq_zero_or_pos n with rfl | positive
  · simp [toFloat]
  · have places : exponent - 1 + length (10 * n) = exponent + length n := by
      rw [length_tenfold positive]
      omega
    have nearest : Binary64.nearest (quotient ⟨10 * n, exponent - 1⟩) =
        Binary64.nearest (quotient ⟨n, exponent⟩) := by
      rcases quotient_tenfold n exponent with same | tenfold
      · rw [same]
      · rw [tenfold, Binary64.nearest_times (quotient_positive positive exponent) (by decide)]
    have zero : 10 * n = 0 ↔ n = 0 := by omega
    simp only [toFloat, places, nearest, zero]

end Decimal
end Descent
