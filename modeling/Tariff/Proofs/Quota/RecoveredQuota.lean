import Tariff.Proofs.Binary64.Integers
import Tariff.Quota.Format

/-!
# Quota from amounts

The amount of currency that quota is worth is the quotient of quota and a number of units, rounded,
and quota is recovered from it by multiplying and rounding twice more.  The quotient may be so small
that only a few of its bits are left; but then the divisor is so large that quota is hardly above
zero.  So the product is off by less than a half as long as quota has no more than fifty bits.
-/

namespace Tariff

namespace Binary64

variable {x y : Binary64} {q : ℚ}

/-- A finite number that is nearest to a rational is off by its `2 ^ 53`th part at most, and by that of
the smallest normal number if the rational is smaller. -/
theorem IsNearest.abs_sub_le (isNearest : x.IsNearest q) (finite : x.isFinite = true) :
  |x.toRat - q| ≤ (|q| + smallestNormal) / pow2 53
  := by
  obtain ⟨n, d, d_pos, units_eq⟩ := exists_units q
  rw [isNearest.toRat_eq]
  apply abs_rounded_sub_le_of_code d_pos units_eq
  obtain ⟨negative, rfl, -⟩ := isNearest
  rw [← code_nearest d_pos units_eq]
  exact of_decide_eq_true finite

/-- Finite numbers are below `2 ^ 1024`. -/
theorem abs_toRat_le (finite : x.isFinite = true) :
  |x.toRat| ≤ pow2 1024
  := by
  have code_le : x.code ≤ infinityCode := (of_decide_eq_true finite).le
  have units_le : x.units ≤ pow2 1024 * pow2 1074 := by
    rw [← unitsOfCode_infinityCode]
    exact strictMono_unitsOfCode.monotone code_le
  rw [abs_toRat, magnitude, div_le_iff₀ (pow2_pos_rat 1074)]
  exact_mod_cast units_le

/-- The smallest normal number is the fourth part of the bound of finite numbers, turned upside down. -/
theorem smallestNormal_mul :
  smallestNormal * pow2 1024 = 4
  := by
  have powers : pow2 52 * pow2 1024 = 4 * pow2 1074 := by
    have four : 4 = pow2 2 := rfl
    rw [four, ← pow2_add, ← pow2_add]
  have powers_rat : (pow2 52 : ℚ) * pow2 1024 = 4 * pow2 1074 := by exact_mod_cast powers
  rw [smallestNormal, div_mul_eq_mul_div, powers_rat, mul_div_cancel_right₀ _ (pow2_pos_rat 1074).ne']

/-- A finite quotient times its divisor is off by the `2 ^ 53`th part of the dividend, and of four more
for quotients that are very small. -/
theorem abs_div_mul_sub_le (x_finite : x.isFinite = true) (y_finite : y.isFinite = true)
    (ne : y.toRat ≠ 0) (finite : (x / y).isFinite = true) :
  |(x / y).toRat * y.toRat - x.toRat| ≤ (|x.toRat| + 4) / pow2 53
  := by
  have near := (isNearest_div x_finite y_finite ne).abs_sub_le finite
  have y_le := abs_toRat_le y_finite
  have product_eq := smallestNormal_mul
  have small_nonneg := smallestNormal_le.1
  have parts_pos := pow2_pos_rat 53
  generalize (pow2 53 : ℚ) = parts at *
  generalize (pow2 1024 : ℚ) = bound at *
  generalize smallestNormal = small at *
  generalize (x / y).toRat = quotient at *
  generalize x.toRat = dividend at *
  generalize y.toRat = divisor at *
  have scaled_eq : quotient * divisor - dividend = (quotient - dividend / divisor) * divisor := by
    rw [sub_mul, div_mul_cancel₀ _ ne]
  calc |quotient * divisor - dividend|
      = |quotient - dividend / divisor| * |divisor| := by rw [scaled_eq, abs_mul]
    _ ≤ (|dividend / divisor| + small) / parts * |divisor| := by gcongr
    _ = (|dividend| + small * |divisor|) / parts := by
      rw [abs_div, div_mul_eq_mul_div, add_mul, div_mul_cancel₀ _ (abs_ne_zero.mpr ne)]
    _ ≤ (|dividend| + small * bound) / parts := by gcongr
    _ = (|dividend| + 4) / parts := by rw [product_eq]

/-- An integer of up to fifty bits has a number of its value. -/
theorem toRat_ofInt_of_natAbs_le {n : ℤ} (le : n.natAbs ≤ pow2 50) :
  (ofInt n).isFinite = true ∧ (ofInt n).toRat = n ∧ |(n : ℚ)| ≤ 2 ^ 50
  := by
  have abs_le : |(n : ℚ)| ≤ 2 ^ 50 := by
    have power_eq : pow2 50 = 2 ^ 50 := rfl
    rw [power_eq] at le
    rw [← Int.cast_abs, ← Int.natCast_natAbs, Int.cast_natCast]
    exact_mod_cast le
  have short : IsShort n := isShort_of_lt (le.trans_lt (by decide))
  have exact_value := (rounded_intCast_eq_iff (le.trans (pow2_le (by decide)))).mpr short
  refine ⟨((isNearest_ofInt n).finite_near (abs_le.trans (by norm_num))).1, ?_, abs_le⟩
  rw [(isNearest_ofInt n).toRat_eq, exact_value]

/-- An integer of up to fifty bits is recovered from a finite quotient by multiplying and rounding. -/
theorem toInt64_div_mul {n : Int64} (le : n.toInt.natAbs ≤ pow2 50) (y_finite : y.isFinite = true)
    (ne : y.toRat ≠ 0) (finite : (ofInt64 n / y).isFinite = true) :
  ((ofInt64 n / y) * y).isFinite = true ∧ ((ofInt64 n / y) * y).toInt64 = n
  := by
  obtain ⟨n_finite, n_eq, n_le⟩ := toRat_ofInt_of_natAbs_le le
  have near := abs_div_mul_sub_le n_finite y_finite ne finite
  have isNearest := isNearest_mul finite y_finite
  rw [ofInt64] at *
  rw [n_eq] at near
  generalize (ofInt n.toInt / y).toRat * y.toRat = product at *
  have power_eq : (pow2 53 : ℚ) = 2 ^ 53 := by
    have power_eq : pow2 53 = 2 ^ 53 := rfl
    exact_mod_cast power_eq
  have product_near : |product - n.toInt| ≤ 1 / 8 + 1 / 2 ^ 51 := by
    rw [power_eq] at near
    linarith
  have product_le : |product| ≤ 2 ^ 50 + 1 := by
    have difference_le := abs_sub_abs_le_abs_sub product n.toInt
    linarith
  obtain ⟨finite', near'⟩ := isNearest.finite_near (product_le.trans (by norm_num))
  refine ⟨finite', ?_⟩
  have rounded_eq : roundAway 0 (ofInt n.toInt / y * y).toRat = n.toInt := by
    apply roundAway_of_near
    calc |(ofInt n.toInt / y * y).toRat - n.toInt|
        ≤ |(ofInt n.toInt / y * y).toRat - product| + |product - n.toInt| := abs_sub_le _ _ _
      _ < 1 / 2 := by linarith
  rw [← cast_roundToInt, Int.cast_inj] at rounded_eq
  rw [toInt64, rounded_eq, nearestInt64_toInt]

end Binary64

namespace QuotaFormat

/-- A unit of currency has a finite number of units of quota above zero. -/
theorem perUnit_pos (format : QuotaFormat) :
  format.perUnit.isFinite = true ∧ 0 < format.perUnit.toRat
  := by
  obtain ⟨finite, pos⟩ : format.perUnit.isFinite = true ∧ (0 : Binary64) < format.perUnit := by
    have usable := format.perUnit_usable
    rw [usablePerUnit, Bool.and_eq_true, decide_eq_true_iff] at usable
    exact usable
  obtain ⟨zero_finite, zero_eq⟩ := Binary64.toRat_ofInt_of_le (Nat.zero_le (pow2 53))
  use finite
  have lt := (Binary64.lt_iff_toRat_lt zero_finite finite).mp pos
  rwa [zero_eq, Nat.cast_zero] at lt

/-- Quota of up to fifty bits is recovered from its amount, if that is finite. -/
theorem quotaOf_amount (format : QuotaFormat) (q : Quota) (le : q.units.toInt.natAbs ≤ pow2 50)
    (finite : (format.amount q).isFinite = true) :
  format.quotaOf (format.amount q) = q
  := by
  obtain ⟨perUnit_finite, pos⟩ := format.perUnit_pos
  obtain ⟨finite', back⟩ := Binary64.toInt64_div_mul le perUnit_finite pos.ne' finite
  rw [quotaOf, Binary64.finitePart_of_isFinite finite, Quota.ofReal, amount, Quota.toReal,
    Binary64.finitePart_of_isFinite finite', back]

/-- So much quota makes up a unit of currency that amounts have fewer bits than other numbers. -/
def hugeUnit : QuotaFormat :=
  ofPerUnit .currency ⟨0x7fefffffffffffff⟩

/-- A little quota, with an amount below the normal numbers, is recovered. -/
theorem quotaOf_amount_hugeUnit :
  (Quota.mk (-3)).units.toInt.natAbs ≤ pow2 50 ∧ (hugeUnit.amount ⟨-3⟩).isFinite = true ∧
    (hugeUnit.amount ⟨-3⟩).code < pow2 52 ∧ hugeUnit.quotaOf (hugeUnit.amount ⟨-3⟩) = ⟨-3⟩
  := by
  have le : (Quota.mk (-3)).units.toInt.natAbs ≤ pow2 50 := by decide
  have finite : (hugeUnit.amount ⟨-3⟩).isFinite = true := by decide +kernel
  have subnormal : (hugeUnit.amount ⟨-3⟩).code < pow2 52 := by decide +kernel
  exact ⟨le, finite, subnormal, quotaOf_amount hugeUnit ⟨-3⟩ le finite⟩

end QuotaFormat

end Tariff
