import Tariff.Decimal.Basic

/-!
# The order of decimals

Decimals are ordered by value, so that decimals of different scales may compare as equal and the
zeros of both signs do.  The order is transitive.
-/

namespace Tariff.Decimal

/-- The coefficient with its sign at the scale `d.scale + places`. -/
def widened (d : Decimal) (places : Nat) : Int :=
  d.signedCoefficient * pow10 places

/-- Decimals are compared by value: the coefficients at a common scale decide. -/
instance : Ord Decimal where
  compare a b := compare (a.widened b.scale) (b.widened a.scale)

instance : LT Decimal := ltOfOrd
instance : LE Decimal := leOfOrd

instance (a b : Decimal) : Decidable (a < b) :=
  inferInstanceAs (Decidable (compare a b = .lt))

instance (a b : Decimal) : Decidable (a ≤ b) :=
  inferInstanceAs (Decidable ((compare a b).isLE = true))

/-- The comparison is that of the coefficients at a common scale. -/
theorem compare_def (a b : Decimal) :
  compare a b = compare (a.widened b.scale) (b.widened a.scale)
  := rfl

/-- Places can be added one number after the other. -/
theorem widened_mul (d : Decimal) (places more : Nat) :
  d.widened places * pow10 more = d.widened more * pow10 places
  := by
  simp only [widened]
  rw [Int.mul_assoc, Int.mul_comm (pow10 places : Int), ← Int.mul_assoc]

/-- The order is transitive. -/
theorem isLE_trans {a b c : Decimal} (hab : (compare a b).isLE = true)
    (hbc : (compare b c).isLE = true) :
  (compare a c).isLE = true
  := by
  simp only [compare_def, Int.isLE_compare] at hab hbc ⊢
  have hpos : (0 : Int) < pow10 b.scale := Int.natCast_pos.mpr (pow10_pos _)
  apply Int.le_of_mul_le_mul_right (a := pow10 b.scale) ?_ hpos
  calc a.widened c.scale * pow10 b.scale = a.widened b.scale * pow10 c.scale := widened_mul ..
    _ ≤ b.widened a.scale * pow10 c.scale :=
      Int.mul_le_mul_of_nonneg_right hab (Int.natCast_nonneg _)
    _ = b.widened c.scale * pow10 a.scale := widened_mul ..
    _ ≤ c.widened b.scale * pow10 a.scale :=
      Int.mul_le_mul_of_nonneg_right hbc (Int.natCast_nonneg _)
    _ = c.widened a.scale * pow10 b.scale := widened_mul ..

instance : Std.TransOrd Decimal where
  eq_swap := by
    intro a b
    rw [compare_def, compare_def]
    exact Std.OrientedCmp.eq_swap
  isLE_trans := isLE_trans

example :
    compare (⟨false, 100, 1, by decide, by decide⟩ : Decimal) ⟨false, 10, 0, by decide, by decide⟩
      = .eq := by
  decide

end Tariff.Decimal
