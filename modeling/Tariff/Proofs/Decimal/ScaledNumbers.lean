import Tariff.Decimal.Arithmetic
import Tariff.Proofs.Decimal.Values
import Tariff.Proofs.Rounding

/-!
# Numbers with a sign and places

The value of a decimal is a natural number with a sign, divided by a power of ten.  Such a number can
be written with other places and, if it is zero, with either sign.  Products, opposites and roundings
are told from the natural number and its places.
-/

namespace Tariff.Decimal

variable {a b d : Decimal} {negative : Bool} {n scale : Nat}

/-- A decimal can hold this number. -/
def IsValue (x : ℚ) : Prop :=
  ∃ d : Decimal, d.toRat = x

/-- A natural number with a sign, divided by a power of ten. -/
def scaled (negative : Bool) (n scale : Nat) : ℚ :=
  (if negative then -(n : ℚ) else n) / pow10 scale

/-- The value of a decimal is its coefficient with its sign, divided by a power of ten. -/
theorem toRat_eq_scaled (d : Decimal) :
  d.toRat = scaled d.negative d.coefficient d.scale
  := by
  rw [toRat, Rat.mkRat_eq_div, signedCoefficient, scaled]
  cases d.negative <;> simp

/-- The size of a number with a sign. -/
theorem abs_scaled (negative : Bool) (n scale : Nat) :
  |scaled negative n scale| = n / pow10 scale
  := by
  have nonneg : (0 : ℚ) ≤ n / pow10 scale := by positivity
  cases negative with
  | true => rw [scaled, if_pos rfl, neg_div, abs_neg, abs_of_nonneg nonneg]
  | false => rw [scaled, if_neg Bool.false_ne_true, abs_of_nonneg nonneg]

/-- The sign of a number does not matter exactly if it is zero. -/
theorem scaled_eq_iff {negative' : Bool} :
  scaled negative n scale = scaled negative' n scale ↔ (n ≠ 0 → negative = negative')
  := by
  rcases Nat.eq_zero_or_pos n with rfl | pos
  · simp [scaled]
  · have size_pos : (0 : ℚ) < n / pow10 scale := div_pos (Nat.cast_pos.mpr pos)
      (Nat.cast_pos.mpr (pow10_pos scale))
    have opposite : -((n : ℚ) / pow10 scale) < n / pow10 scale := neg_lt_self size_pos
    cases negative <;> cases negative' <;> simp [scaled, neg_div, pos.ne', opposite.ne, opposite.ne']

/-- The sign of a zero does not matter. -/
theorem scaled_congr {negative' : Bool} (same : n ≠ 0 → negative = negative') :
  scaled negative n scale = scaled negative' n scale
  := scaled_eq_iff.mpr same

/-- A number with a sign is zero exactly if the natural number is. -/
theorem scaled_eq_zero_iff :
  scaled negative n scale = 0 ↔ n = 0
  := by
  have pos : (0 : ℚ) < pow10 scale := Nat.cast_pos.mpr (pow10_pos _)
  rw [← abs_eq_zero, abs_scaled, div_eq_iff pos.ne', zero_mul, Nat.cast_eq_zero]

/-- Numbers with a sign are multiplied by multiplying the natural numbers and adding the places. -/
theorem scaled_mul_scaled (negative negative' : Bool) (n n' scale scale' : Nat) :
  scaled negative n scale * scaled negative' n' scale' =
    scaled (negative != negative') (n * n') (scale + scale')
  := by
  rw [scaled, scaled, scaled, div_mul_div_comm, pow10_add]
  push_cast
  congr 1
  cases negative <;> cases negative' <;> simp

/-- A number keeps its value when it is written with other places. -/
theorem scaled_eq_of_mul_eq {n' scale' : Nat} (same : n' * pow10 scale = n * pow10 scale') :
  scaled negative n' scale' = scaled negative n scale
  := by
  have pos : (0 : ℚ) < pow10 scale := Nat.cast_pos.mpr (pow10_pos _)
  have pos' : (0 : ℚ) < pow10 scale' := Nat.cast_pos.mpr (pow10_pos _)
  have same_rat : (n' : ℚ) * pow10 scale = n * pow10 scale' := by exact_mod_cast same
  rw [scaled, scaled, div_eq_div_iff pos'.ne' pos.ne']
  cases negative with
  | true =>
    rw [if_pos rfl, if_pos rfl]
    linarith
  | false => exact same_rat

/-- Numbers with one sign and as many places are equal exactly if the natural numbers are. -/
theorem scaled_inj {n' : Nat} :
  scaled negative n scale = scaled negative n' scale ↔ n = n'
  := by
  have pos : (0 : ℚ) < pow10 scale := Nat.cast_pos.mpr (pow10_pos _)
  constructor
  · intro same
    have size_eq := congrArg abs same
    rw [abs_scaled, abs_scaled, div_left_inj' pos.ne'] at size_eq
    exact_mod_cast size_eq
  · rintro rfl
    rfl

/-! ### Decimals -/

/-- A decimal without a coefficient is zero. -/
theorem toRat_of_isZero (isZero : d.isZero = true) :
  d.toRat = 0
  := by
  have coefficient_eq : d.coefficient = 0 := of_decide_eq_true isZero
  rw [toRat_eq_scaled, coefficient_eq, scaled]
  simp

/-- A zero loses its sign without losing its value. -/
theorem toRat_unsignZero (d : Decimal) :
  d.unsignZero.toRat = d.toRat
  := by
  rw [toRat_eq_scaled, toRat_eq_scaled]
  apply scaled_congr
  intro not_zero
  simp [unsignZero, isZero, show d.coefficient ≠ 0 from not_zero]

/-- The decimal with the opposite sign has the opposite value. -/
theorem toRat_neg (d : Decimal) :
  d.neg.toRat = -d.toRat
  := by
  rw [toRat_eq_scaled, toRat_eq_scaled, scaled, scaled, neg]
  cases d.negative <;> simp [neg_div]

/-- The coefficient with its sign at a larger scale gives the value. -/
theorem widened_div (d : Decimal) {scale : Nat} (le : d.scale ≤ scale) :
  (d.widened (scale - d.scale) : ℚ) / pow10 scale = d.toRat
  := by
  have pos : (0 : ℚ) < pow10 scale := Nat.cast_pos.mpr (pow10_pos _)
  have pos_d : (0 : ℚ) < pow10 d.scale := Nat.cast_pos.mpr (pow10_pos _)
  have power_eq : (pow10 scale : ℚ) = pow10 (scale - d.scale) * pow10 d.scale := by
    rw [← Nat.cast_mul, ← pow10_add, Nat.sub_add_cancel le]
  rw [toRat, Rat.mkRat_eq_div, div_eq_div_iff pos.ne' pos_d.ne', widened, power_eq]
  push_cast
  ring

/-! ### Rounding -/

/-- A number with a sign is rounded like its size. -/
theorem roundAway_scaled (places : Nat) (negative : Bool) (n scale : Nat) :
  roundAway places (scaled negative n scale) =
    if negative then -roundAway places (n / pow10 scale) else roundAway places (n / pow10 scale)
  := by
  cases negative with
  | true => rw [scaled, if_pos rfl, if_pos rfl, neg_div, roundAway_neg]
  | false => rfl

/-- A decimal is rounded to a number of places, ties away from zero. -/
theorem toRat_roundPlaces (d : Decimal) (places : Nat) :
  (d.roundPlaces places).toRat = roundAway places d.toRat
  := by
  rw [toRat_eq_scaled d, roundAway_scaled]
  unfold roundPlaces
  split
  case isTrue lt =>
    -- The sign is lost with the last digit only.
    have signed_eq (n : Nat) :
        scaled (d.negative && (d.isZero || n ≠ 0)) n places = scaled d.negative n places :=
      scaled_congr fun not_zero => by simp [not_zero]
    rw [roundAway_div lt.le, toRat_eq_scaled]
    dsimp only
    rw [signed_eq, scaled, ite_div, neg_div]
  case isFalse not_lt =>
    rw [roundAway_of_le (Nat.le_of_not_lt not_lt), toRat_eq_scaled, scaled, ite_div, neg_div]

end Tariff.Decimal
