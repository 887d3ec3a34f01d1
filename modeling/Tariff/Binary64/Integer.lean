import Tariff.Binary64.Arithmetic

/-!
# Binary64 numbers and 64-bit integers

A 64-bit integer becomes the nearest number, and a finite number the nearest 64-bit integer,
halves away from zero and what is out of range clamped.
-/

namespace Tariff

/-- The 64-bit integer nearest to `n`. -/
def nearestInt64 (n : Int) : Int64 :=
  Int64.ofInt (max Int64.minValue.toInt (min n Int64.maxValue.toInt))

/-- An integer of 64 bits is kept. -/
theorem nearestInt64_toInt (n : Int64) :
  nearestInt64 n.toInt = n
  := by
  have h₁ : Int64.minValue.toInt ≤ n.toInt := by simpa using n.minValue_le_toInt
  have h₂ : n.toInt ≤ Int64.maxValue.toInt := by simpa using n.toInt_le
  rw [nearestInt64, Int.min_eq_left h₂, Int.max_eq_right h₁, Int64.ofInt_toInt]

/-- What is out of range is clamped. -/
theorem toInt_nearestInt64 (n : Int) :
  (nearestInt64 n).toInt = max Int64.minValue.toInt (min n Int64.maxValue.toInt)
  := by
  rw [nearestInt64, Int64.toInt_minValue, Int64.toInt_maxValue, Int64.toInt_ofInt_of_le]
  all_goals omega

namespace Binary64

/-- The number nearest to a 64-bit integer. -/
def ofInt64 (n : Int64) : Binary64 :=
  ofInt n.toInt

/-- The 64-bit integer nearest to a finite number. -/
def toInt64 (x : Binary64) : Int64 :=
  nearestInt64 x.roundToInt

example : (toInt64 1e30, toInt64 2.5, toInt64 (-2.5)) = (Int64.maxValue, 3, -3) := by
  decide +kernel

end Binary64

end Tariff
