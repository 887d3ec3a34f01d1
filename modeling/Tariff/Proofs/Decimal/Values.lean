import Mathlib.Algebra.Order.Field.Basic
import Mathlib.Algebra.Order.Ring.Rat
import Mathlib.Data.Rat.Lemmas
import Tariff.Decimal.Order

/-!
# Values of decimals

Decimals are compared as the numbers that they stand for.  A decimal and its normal form stand for
the same number, so that they take the same place in the order.
-/

namespace Tariff.Decimal

variable {a b d : Decimal}

/-- Decimals are equal in the order exactly if they have the same value. -/
theorem compare_eq_iff :
  compare a b = .eq ↔ a.toRat = b.toRat
  := by
  rw [compare_def, Std.LawfulEqCmp.compare_eq_iff_eq, toRat, toRat,
    Rat.mkRat_eq_iff (pow10_pos _).ne' (pow10_pos _).ne']
  rfl

/-- Decimals are ordered as their values. -/
theorem lt_iff :
  a < b ↔ a.toRat < b.toRat
  := by
  have pos_a : (0 : ℚ) < pow10 a.scale := Nat.cast_pos.mpr (pow10_pos _)
  have pos_b : (0 : ℚ) < pow10 b.scale := Nat.cast_pos.mpr (pow10_pos _)
  have compare_iff : a < b ↔ compare (a.widened b.scale) (b.widened a.scale) = .lt := Iff.rfl
  rw [compare_iff, Int.compare_eq_lt, toRat, toRat, Rat.mkRat_eq_div, Rat.mkRat_eq_div,
    div_lt_div_iff₀ pos_a pos_b, widened, widened]
  norm_cast

/-- Decimals are at most as large as one another as their values are. -/
theorem le_iff :
  a ≤ b ↔ a.toRat ≤ b.toRat
  := by
  have pos_a : (0 : ℚ) < pow10 a.scale := Nat.cast_pos.mpr (pow10_pos _)
  have pos_b : (0 : ℚ) < pow10 b.scale := Nat.cast_pos.mpr (pow10_pos _)
  have compare_iff : a ≤ b ↔ (compare (a.widened b.scale) (b.widened a.scale)).isLE = true := Iff.rfl
  rw [compare_iff, Int.isLE_compare, toRat, toRat, Rat.mkRat_eq_div, Rat.mkRat_eq_div,
    div_le_div_iff₀ pos_a pos_b, widened, widened]
  norm_cast

/-- The value of the decimal zero. -/
@[simp] theorem toRat_zero :
  zero.toRat = 0
  := rfl

/-- The value of the decimal one. -/
@[simp] theorem toRat_one :
  one.toRat = 1
  := rfl

/-- The positive decimals are those with a positive coefficient and no sign. -/
theorem zero_lt_iff :
  zero < d ↔ d.negative = false ∧ 0 < d.coefficient
  := by
  have lt_iff : zero < d ↔ compare (zero.widened d.scale) (d.widened zero.scale) = .lt := Iff.rfl
  have zero_eq : zero.widened d.scale = 0 := Int.zero_mul _
  have widened_eq : d.widened zero.scale = d.signedCoefficient := Int.mul_one _
  rw [lt_iff, zero_eq, widened_eq, Int.compare_eq_lt, signedCoefficient]
  cases d.negative with
  | true => simp
  | false => simp

/-- No zeros are stripped from a coefficient but it keeps its sign, as only a zero loses it. -/
theorem signedCoefficient_normalize (d : Decimal) :
  d.normalize.signedCoefficient =
    if d.negative then -((stripZeros d.coefficient d.scale).1 : Int)
    else (stripZeros d.coefficient d.scale).1
  := by
  cases negative : d.negative with
  | false => simp [signedCoefficient, normalize, negative]
  | true =>
    cases zero : d.isZero with
    | false => simp [signedCoefficient, normalize, negative, zero]
    | true =>
      have coefficient_eq : d.coefficient = 0 := of_decide_eq_true zero
      have stripped_eq : (stripZeros d.coefficient d.scale).1 = 0 :=
        Nat.le_zero.mp ((stripZeros_le d.coefficient d.scale).1.trans coefficient_eq.le)
      simp [signedCoefficient, normalize, negative, zero, stripped_eq]

/-- A normal form has the value of the decimal. -/
theorem toRat_normalize (d : Decimal) :
  d.normalize.toRat = d.toRat
  := by
  have value_eq : ((stripZeros d.coefficient d.scale).1 : Int) * pow10 d.scale =
      d.coefficient * pow10 (stripZeros d.coefficient d.scale).2 := by
    exact_mod_cast stripZeros_value d.coefficient d.scale
  rw [toRat, toRat, Rat.mkRat_eq_iff (pow10_pos _).ne' (pow10_pos _).ne',
    signedCoefficient_normalize, signedCoefficient]
  split
  · rw [Int.neg_mul, Int.neg_mul, value_eq]
    rfl
  · exact value_eq

/-- Normal forms are compared as the decimals. -/
theorem compare_normalize (a b : Decimal) :
  compare a.normalize b.normalize = compare a b
  := by
  have a_eq : compare a.normalize a = .eq := compare_eq_iff.mpr (toRat_normalize a)
  have b_eq : compare b.normalize b = .eq := compare_eq_iff.mpr (toRat_normalize b)
  rw [Std.TransCmp.congr_left a_eq, Std.TransCmp.congr_right b_eq]

end Tariff.Decimal
