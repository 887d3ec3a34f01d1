import Mathlib.Order.Monotone.Odd
import Tariff.Proofs.Binary64.Quotients

/-!
# Values of rounded results

The value of a result is a function of the exact value alone: it grows with that, is opposite for
the opposite, is the exact value where a number has it, and differs from it by its `2 ^ 53`th part at
most, as far as it is not tiny.  Numbers are compared as their values.
-/

namespace Tariff.Binary64

variable {x y : Binary64} {q r : ℚ} {n d : Nat}

/-- The value of the number nearest to a rational; infinity counts as the power of two at which it
starts. -/
def rounded (q : ℚ) : ℚ :=
  (nearest (q < 0) q).toRat

/-! ### Codes of values -/

/-- The magnitude of a rational is a quotient of units. -/
theorem exists_units (q : ℚ) :
  ∃ n d : Nat, 0 < d ∧ |q| * pow2 1074 * d = n
  := by
  have den_ne : (q.den : ℚ) ≠ 0 := Nat.cast_ne_zero.mpr q.den_nz
  use q.num.natAbs * pow2 1074, q.den, q.den_pos
  rw [abs_eq_div, Nat.cast_mul]
  generalize (pow2 1074 : ℚ) = unit
  field_simp

/-- A number is rounded to the code nearest to its magnitude, with its sign. -/
theorem rounded_eq (d_pos : 0 < d) (units_eq : |q| * pow2 1074 * d = n) :
  rounded q =
    if q < 0 then -(unitsOfCode (nearestCode n d) / pow2 1074 : ℚ)
    else unitsOfCode (nearestCode n d) / pow2 1074
  := by
  have code_lt := nearestCode_lt n d
  rw [rounded, nearest_eq d_pos units_eq, toRat_eq_magnitude, magnitude, units,
    code_ofCode _ code_lt, negative_ofCode _ code_lt]
  simp only [decide_eq_true_eq]

/-- A number that is not negative is rounded to the code nearest to it. -/
theorem rounded_of_nonneg (nonneg : 0 ≤ q) (d_pos : 0 < d) (units_eq : q * pow2 1074 * d = n) :
  rounded q = unitsOfCode (nearestCode n d) / pow2 1074
  := by
  rw [← abs_of_nonneg nonneg] at units_eq
  rw [rounded_eq d_pos units_eq, if_neg nonneg.not_gt]

/-- What does not exceed the largest finite number has no more units than that. -/
theorem le_of_units_eq (units_eq : |q| * pow2 1074 * d = n) (le : |q| ≤ maxFinite) :
  n ≤ maxFinite * pow2 1074 * d
  := by
  have le_rat : (n : ℚ) ≤ (maxFinite * pow2 1074 * d : Nat) := by
    rw [← units_eq, Nat.cast_mul, Nat.cast_mul]
    apply mul_le_mul_of_nonneg_right _ (Nat.cast_nonneg d)
    apply mul_le_mul_of_nonneg_right le (Nat.cast_nonneg _)
  exact Nat.cast_le.mp le_rat

/-- Zero is not changed. -/
theorem rounded_zero :
  rounded 0 = 0
  := by
  have units_eq : (0 : ℚ) * pow2 1074 * (1 : Nat) = (0 : Nat) := by
    rw [zero_mul, zero_mul, Nat.cast_zero]
  rw [rounded_of_nonneg le_rfl Nat.one_pos units_eq, nearestCode_zero Nat.one_pos, unitsOfCode_zero,
    Nat.cast_zero, zero_div]

/-- The opposite is rounded to the opposite. -/
theorem rounded_neg (q : ℚ) :
  rounded (-q) = -rounded q
  := by
  obtain ⟨n, d, d_pos, units_eq⟩ := exists_units q
  have units_eq' := units_eq
  rw [← abs_neg] at units_eq'
  rw [rounded_eq d_pos units_eq, rounded_eq d_pos units_eq']
  rcases lt_trichotomy q 0 with negative | rfl | positive
  · rw [if_neg (by linarith), if_pos negative, neg_neg]
  · rw [abs_zero, zero_mul, zero_mul] at units_eq
    obtain rfl := Nat.cast_eq_zero.mp units_eq.symm
    rw [nearestCode_zero d_pos, unitsOfCode_zero, Nat.cast_zero, zero_div, neg_zero, ite_self,
      neg_zero]
  · rw [if_pos (by linarith), if_neg (by linarith)]

/-- Of two numbers the larger one is rounded to the larger one. -/
theorem rounded_mono :
  Monotone rounded
  := by
  apply monotone_of_odd_of_monotoneOn_nonneg rounded_neg
  intro q q_nonneg r r_nonneg le
  obtain ⟨n, d, d_pos, units_eq⟩ := exists_units q
  obtain ⟨n', d', d_pos', units_eq'⟩ := exists_units r
  rw [abs_of_nonneg q_nonneg] at units_eq
  rw [abs_of_nonneg r_nonneg] at units_eq'
  rw [rounded_of_nonneg q_nonneg d_pos units_eq, rounded_of_nonneg r_nonneg d_pos' units_eq']
  apply div_le_div_of_nonneg_right _ (pow2_pos_rat 1074).le
  apply Nat.cast_le.mpr
  apply strictMono_unitsOfCode.monotone
  apply nearestCode_mono d_pos d_pos'
  have cross : (n : ℚ) * d' ≤ n' * d := by
    rw [← units_eq, ← units_eq', mul_right_comm (r * _)]
    apply mul_le_mul_of_nonneg_right _ (Nat.cast_nonneg d')
    apply mul_le_mul_of_nonneg_right _ (Nat.cast_nonneg d)
    apply mul_le_mul_of_nonneg_right le (Nat.cast_nonneg _)
  exact_mod_cast cross

/-- What is not negative is rounded to what is not negative. -/
theorem rounded_nonneg (nonneg : 0 ≤ q) :
  0 ≤ rounded q
  := by
  rw [← rounded_zero]
  apply rounded_mono nonneg

/-- The value of a finite number is not changed. -/
theorem rounded_toRat (finite : x.isFinite = true) :
  rounded x.toRat = x.toRat
  := by
  have pos := pow2_pos_rat 1074
  have code_le : x.code ≤ infinityCode := (of_decide_eq_true finite).le
  have units_eq : x.magnitude * pow2 1074 * (1 : Nat) = x.units := by
    rw [magnitude, Nat.cast_one, mul_one, div_mul_cancel₀ _ pos.ne']
  have magnitude_eq : rounded x.magnitude = x.magnitude := by
    rw [rounded_of_nonneg x.magnitude_nonneg Nat.one_pos units_eq, magnitude, units,
      nearestCode_unitsOfCode code_le]
  rw [toRat_eq_magnitude]
  split
  case isTrue => rw [rounded_neg, magnitude_eq]
  case isFalse => exact magnitude_eq

/-- Where a quotient has 53 bits of a power of two, it is rounded to the nearest multiple of that. -/
theorem rounded_div_eq {e : Nat} (e_le : e ≤ 1074) (low : pow2 52 * d ≤ n * pow2 e)
    (high : n * pow2 e < pow2 53 * d) :
  rounded (n / d) = roundDiv .toEven (n * pow2 e) d / pow2 e
  := by
  obtain ⟨k, k_eq⟩ := Nat.exists_eq_add_of_le' e_le
  have d_pos : 0 < d := Nat.pos_of_mul_pos_left (Nat.zero_lt_of_lt high)
  have d_rat : (0 : ℚ) < d := Nat.cast_pos.mpr d_pos
  have k_pos := pow2_pos k
  have k_rat := pow2_pos_rat k
  have split_eq : pow2 1074 = pow2 e * pow2 k := by
    rw [k_eq, pow2_add, Nat.mul_comm]
  have units_eq : (n / d : ℚ) * pow2 1074 * d = (n * pow2 1074 : Nat) := by
    rw [Nat.cast_mul]
    generalize (pow2 1074 : ℚ) = unit
    field_simp
  have log_eq : Nat.log2 (n * pow2 1074 / d) = 52 + k := by
    have low_scaled : pow2 (52 + k) ≤ n * pow2 1074 / d := by
      rw [Nat.le_div_iff_mul_le d_pos, pow2_add, split_eq, ← Nat.mul_assoc, Nat.mul_right_comm]
      apply Nat.mul_le_mul_right _ low
    have high_scaled : n * pow2 1074 / d < pow2 (52 + k + 1) := by
      rw [Nat.div_lt_iff_lt_mul d_pos, Nat.add_right_comm, pow2_add, split_eq, ← Nat.mul_assoc,
        Nat.mul_right_comm (pow2 (52 + 1))]
      apply Nat.mul_lt_mul_of_pos_right high k_pos
    have some_units : n * pow2 1074 / d ≠ 0 := (Nat.lt_of_lt_of_le (pow2_pos _) low_scaled).ne'
    apply (Nat.log2_eq_iff some_units).mpr ⟨low_scaled, high_scaled⟩
  have code_eq : nearestCode (n * pow2 1074) d =
      min (k * pow2 52 + roundDiv .toEven (n * pow2 e) d) infinityCode := by
    unfold nearestCode
    dsimp only
    rw [log_eq, Nat.add_sub_cancel_left, split_eq, ← Nat.mul_assoc,
      roundDiv_mul_mul .toEven _ _ k_pos]
  have r_ge : pow2 52 ≤ roundDiv .toEven (n * pow2 e) d := le_roundDiv d_pos low
  have r_le : roundDiv .toEven (n * pow2 e) d ≤ pow2 53 := roundDiv_le_of_le d_pos high.le
  have code_le : k * pow2 52 + roundDiv .toEven (n * pow2 e) d ≤ infinityCode := by
    have blocks_le : k * pow2 52 ≤ 1074 * pow2 52 := Nat.mul_le_mul_right _ (by omega)
    apply (Nat.add_le_add blocks_le r_le).trans (by decide)
  have nonneg : (0 : ℚ) ≤ n / d := div_nonneg (Nat.cast_nonneg n) d_rat.le
  rw [rounded_of_nonneg nonneg d_pos units_eq, code_eq, Nat.min_eq_left code_le,
    unitsOfCode_block (.inl r_ge) r_le, split_eq, Nat.cast_mul, Nat.cast_mul,
    mul_div_mul_right _ _ k_rat.ne']

/-! ### Errors -/

/-- What is below the normal magnitudes is rounded to a whole number of units. -/
theorem unitsOfCode_nearestCode_of_lt (tiny : n < pow2 52 * d) :
  unitsOfCode (nearestCode n d) = roundDiv .toEven n d
  := by
  have d_pos : 0 < d := Nat.pos_of_mul_pos_left (Nat.zero_lt_of_lt tiny)
  have first_block : Nat.log2 (n / d) - 52 = 0 := by
    have quotient_lt : n / d < pow2 52 := (Nat.div_lt_iff_lt_mul d_pos).mpr tiny
    rcases Nat.eq_zero_or_pos (n / d) with zero | pos
    · rw [zero]
      rfl
    · have log_lt := (Nat.log2_lt pos.ne').mpr quotient_lt
      omega
  have one : pow2 0 = 1 := rfl
  have small : roundDiv .toEven n d ≤ pow2 52 := roundDiv_le_of_le d_pos tiny.le
  have block := unitsOfCode_block (.inr rfl) (small.trans (pow2_le (by decide)) )
  rw [Nat.zero_mul, Nat.zero_add, one, Nat.mul_one] at block
  unfold nearestCode
  dsimp only
  rw [first_block, one, Nat.mul_one, Nat.zero_mul, Nat.zero_add,
    Nat.min_eq_left (small.trans (by decide)), block]

/-- A finite magnitude is off by its `2 ^ 53`th part at most, and by half a unit if it is below the
normal ones. -/
theorem unitsOfCode_nearestCode_off (d_pos : 0 < d) (finite : nearestCode n d < infinityCode) :
  unitsOfCode (nearestCode n d) * d * pow2 53 ≤ n * pow2 53 + (n + pow2 52 * d) ∧
    n * pow2 53 ≤ unitsOfCode (nearestCode n d) * d * pow2 53 + (n + pow2 52 * d)
  := by
  rcases Nat.lt_or_ge n (pow2 52 * d) with tiny | normal
  · obtain ⟨above, below⟩ := roundDiv_near .toEven d_pos n
    rw [unitsOfCode_nearestCode_of_lt tiny, pow2_succ 52]
    generalize roundDiv .toEven n d * d = multiple at *
    have scaled := Nat.mul_le_mul_left (pow2 52) above
    have scaled' := Nat.mul_le_mul_left (pow2 52) below
    constructor <;> linarith
  · obtain ⟨above, below⟩ := unitsOfCode_nearestCode_near d_pos normal finite
    constructor <;> omega

/-- The smallest normal number. -/
def smallestNormal : ℚ :=
  pow2 52 / pow2 1074

/-- Rounding a number to a finite one changes it by its `2 ^ 53`th part at most, and by that of the
smallest normal number if it is smaller. -/
theorem abs_rounded_sub_le_of_code (d_pos : 0 < d) (units_eq : |q| * pow2 1074 * d = n)
    (finite : nearestCode n d < infinityCode) :
  |rounded q - q| ≤ (|q| + smallestNormal) / pow2 53
  := by
  -- The opposite has the opposite error.
  wlog nonneg : 0 ≤ q generalizing q
  · have near := this (q := -q) (by rwa [abs_neg]) (by linarith)
    rwa [rounded_neg, abs_neg, neg_sub_neg, abs_sub_comm] at near
  have unit_pos := pow2_pos_rat 1074
  have parts_pos := pow2_pos_rat 53
  have d_rat : (0 : ℚ) < d := Nat.cast_pos.mpr d_pos
  rw [abs_of_nonneg nonneg] at units_eq ⊢
  obtain ⟨above, below⟩ := unitsOfCode_nearestCode_off d_pos finite
  rw [rounded_of_nonneg nonneg d_pos units_eq, smallestNormal]
  generalize unitsOfCode (nearestCode n d) = u at *
  have above_rat : (u : ℚ) * d * pow2 53 ≤ n * pow2 53 + (n + pow2 52 * d) := by
    exact_mod_cast above
  have below_rat : (n : ℚ) * pow2 53 ≤ u * d * pow2 53 + (n + pow2 52 * d) := by
    exact_mod_cast below
  rw [← units_eq] at above_rat below_rat
  generalize (pow2 1074 : ℚ) = unit at *
  generalize (pow2 53 : ℚ) = parts at *
  generalize (pow2 52 : ℚ) = half at *
  have off_eq : (u : ℚ) / unit - q = (u * d * parts - q * unit * d * parts) / (unit * d * parts) := by
    field_simp
  have bound_eq : (q + half / unit) / parts = (q * unit * d + half * d) / (unit * d * parts) := by
    field_simp
  rw [off_eq, bound_eq, abs_div, abs_of_pos (by positivity : 0 < unit * d * parts),
    div_le_div_iff_of_pos_right (by positivity), abs_le]
  constructor
  · linarith
  · linarith

/-- Rounding a number that does not exceed the largest finite one changes it by little. -/
theorem abs_rounded_sub_le (le : |q| ≤ maxFinite) :
  |rounded q - q| ≤ (|q| + smallestNormal) / pow2 53
  := by
  obtain ⟨n, d, d_pos, units_eq⟩ := exists_units q
  apply abs_rounded_sub_le_of_code d_pos units_eq
  apply nearestCode_lt_infinityCode d_pos (le_of_units_eq units_eq le)

/-- A number that is far from the largest finite one does not exceed it. -/
theorem abs_le_maxFinite (le : |q| ≤ 2 ^ 100) :
  |q| ≤ maxFinite
  := by
  apply le.trans
  have power_le : pow2 100 ≤ maxFinite := pow2_le_maxFinite (by decide)
  have power_eq : pow2 100 = 2 ^ 100 := rfl
  rw [power_eq] at power_le
  exact_mod_cast power_le

/-- The smallest normal number is very small. -/
theorem smallestNormal_le :
  0 ≤ smallestNormal ∧ smallestNormal ≤ 1 / 2 ^ 60
  := by
  have power_le : pow2 52 * 2 ^ 60 ≤ pow2 1074 := by
    have power_eq : 2 ^ 60 = pow2 60 := rfl
    rw [power_eq, ← pow2_add]
    apply pow2_le (by decide)
  have power_rat : (pow2 52 : ℚ) * 2 ^ 60 ≤ pow2 1074 := by exact_mod_cast power_le
  constructor
  · apply div_nonneg (Nat.cast_nonneg _) (Nat.cast_nonneg _)
  · rw [smallestNormal, div_le_div_iff₀ (pow2_pos_rat 1074) (by positivity), one_mul]
    exact power_rat

/-! ### Operations -/

/-- A number is below zero exactly if it has a sign and is not zero. -/
theorem toRat_neg_iff (x : Binary64) :
  x.toRat < 0 ↔ x.negative = true ∧ x.toRat ≠ 0
  := by
  rw [toRat_eq_magnitude]
  have nonneg := x.magnitude_nonneg
  cases x.negative with
  | true => simp [nonneg.lt_iff_ne']
  | false => simp [nonneg.not_gt]

/-- The number is nearest to a rational, and has its sign unless the rational is zero. -/
def IsNearest (x : Binary64) (q : ℚ) : Prop :=
  ∃ negative : Bool, x = nearest negative q ∧ (q ≠ 0 → (negative = true ↔ q < 0))

/-- The number nearest to a rational has the rounded value. -/
theorem IsNearest.toRat_eq (isNearest : x.IsNearest q) :
  x.toRat = rounded q
  := by
  obtain ⟨negative, rfl, sign⟩ := isNearest
  by_cases zero : q = 0
  · subst zero
    have units_eq : |(0 : ℚ)| * pow2 1074 * (1 : Nat) = (0 : Nat) := by
      rw [abs_zero, zero_mul, zero_mul, Nat.cast_zero]
    have code_eq : (nearest negative 0).code = 0 := by
      rw [code_nearest Nat.one_pos units_eq, nearestCode_zero Nat.one_pos]
    rw [rounded_zero, toRat_eq_magnitude, magnitude, units, code_eq, unitsOfCode_zero, Nat.cast_zero,
      zero_div, neg_zero, ite_self]
  · have negative_eq : negative = decide (q < 0) := by
      rw [Bool.eq_iff_iff, decide_eq_true_iff]
      exact sign zero
    rw [rounded, negative_eq]

/-- The number nearest to what does not exceed the largest finite number is finite. -/
theorem IsNearest.isFinite (isNearest : x.IsNearest q) (le : |q| ≤ maxFinite) :
  x.isFinite = true
  := by
  obtain ⟨negative, rfl, -⟩ := isNearest
  obtain ⟨n, d, d_pos, units_eq⟩ := exists_units q
  apply decide_eq_true
  rw [code_nearest d_pos units_eq]
  apply nearestCode_lt_infinityCode d_pos
  apply le_of_units_eq units_eq le

/-- The number nearest to one that is not very large is finite and off by little. -/
theorem IsNearest.finite_near (isNearest : x.IsNearest q) (le : |q| ≤ 2 ^ 100) :
  x.isFinite = true ∧ |x.toRat - q| ≤ (|q| + 1 / 2 ^ 60) / 2 ^ 53
  := by
  have le_max := abs_le_maxFinite le
  use isNearest.isFinite le_max
  have power_eq : (pow2 53 : ℚ) = 2 ^ 53 := by
    have power_eq : pow2 53 = 2 ^ 53 := rfl
    exact_mod_cast power_eq
  rw [isNearest.toRat_eq]
  apply (abs_rounded_sub_le le_max).trans
  rw [power_eq]
  have tiny := smallestNormal_le.2
  gcongr

/-- An integer becomes the number nearest to it. -/
theorem isNearest_ofInt (n : Int) :
  (ofInt n).IsNearest n
  := by
  refine ⟨_, rfl, fun _ => ?_⟩
  rw [decide_eq_true_iff, Int.cast_lt_zero]

/-- Natural numbers of up to `2 ^ 53` become finite numbers of their value. -/
theorem toRat_ofInt_of_le (le : n ≤ pow2 53) :
  (ofInt n).isFinite = true ∧ (ofInt n).toRat = n
  := by
  constructor
  · apply isFinite_ofInt_of_le (le.trans (pow2_le_maxFinite (by decide)))
  · rw [toRat_eq_magnitude, negative_ofInt, if_neg Bool.false_ne_true, magnitude,
      units_ofInt_of_le le, Nat.cast_mul, mul_div_cancel_right₀ _ (pow2_pos_rat 1074).ne']

/-- Natural numbers of up to `2 ^ 53` are not changed. -/
theorem rounded_natCast (le : n ≤ pow2 53) :
  rounded n = n
  := by
  obtain ⟨finite, value_eq⟩ := toRat_ofInt_of_le le
  rw [← value_eq, rounded_toRat finite]

/-- A number is rounded to the integer that its value is rounded to. -/
theorem cast_roundToInt (x : Binary64) :
  (x.roundToInt : ℚ) = roundAway 0 x.toRat
  := by
  have magnitude_eq : roundAway 0 x.magnitude = roundDiv .up x.units (pow2 1074) :=
    roundAway_natCast_div (pow2_pos 1074) x.units
  rw [roundToInt, toRat_eq_magnitude]
  cases x.negative with
  | true => rw [if_pos rfl, if_pos rfl, roundAway_neg, magnitude_eq, Int.cast_neg, Int.cast_natCast]
  | false => rw [if_neg Bool.false_ne_true, if_neg Bool.false_ne_true, magnitude_eq, Int.cast_natCast]

variable (finite : x.isFinite = true) (finite' : y.isFinite = true)

include finite finite'

/-- The product of finite numbers is nearest to the exact product. -/
theorem isNearest_mul :
  (x * y).IsNearest (x.toRat * y.toRat)
  := by
  have mul_eq : x * y = nearest (x.negative != y.negative) (x.toRat * y.toRat) := by
    change mul x y = _
    simp [mul, finite, finite']
  refine ⟨_, mul_eq, fun ne => ?_⟩
  obtain ⟨x_ne, y_ne⟩ := mul_ne_zero_iff.mp ne
  have x_iff := x.toRat_neg_iff
  have y_iff := y.toRat_neg_iff
  rw [mul_neg_iff]
  grind

/-- The quotient of finite numbers is nearest to the exact quotient, unless the divisor is zero. -/
theorem isNearest_div (ne : y.toRat ≠ 0) :
  (x / y).IsNearest (x.toRat / y.toRat)
  := by
  have y_pos : 0 < y.units := by
    apply Nat.pos_of_ne_zero
    intro zero
    apply ne
    rw [toRat_eq_magnitude, magnitude, zero, Nat.cast_zero, zero_div, neg_zero, ite_self]
  have pos := pow2_pos_rat 1074
  have units_rat : (0 : ℚ) < y.units := Nat.cast_pos.mpr y_pos
  have units_eq : |x.toRat / y.toRat| * pow2 1074 * y.units = (x.units * pow2 1074 : Nat) := by
    rw [abs_div, abs_toRat, abs_toRat, magnitude, magnitude, Nat.cast_mul]
    generalize (pow2 1074 : ℚ) = unit at *
    field_simp
  have div_eq : x / y = nearest (x.negative != y.negative) (x.toRat / y.toRat) := by
    rw [div_eq finite finite' y_pos, nearest_eq y_pos units_eq]
  refine ⟨_, div_eq, fun quotient_ne => ?_⟩
  obtain ⟨x_ne, -⟩ := div_ne_zero_iff.mp quotient_ne
  have x_iff := x.toRat_neg_iff
  have y_iff := y.toRat_neg_iff
  rw [div_neg_iff]
  grind

/-- The sum of finite numbers is nearest to the exact sum. -/
theorem isNearest_add :
  (x + y).IsNearest (x.toRat + y.toRat)
  := by
  have add_eq : x + y = if x.toRat + y.toRat = 0 then zero (x.negative && y.negative)
      else nearest (x.toRat + y.toRat < 0) (x.toRat + y.toRat) := by
    change add x y = _
    simp [add, finite, finite']
  rw [add_eq]
  split
  case isTrue none =>
    rw [none]
    refine ⟨x.negative && y.negative, ?_, fun ne => absurd rfl ne⟩
    have units_eq : |(0 : ℚ)| * pow2 1074 * (1 : Nat) = (0 : Nat) := by
      rw [abs_zero, zero_mul, zero_mul, Nat.cast_zero]
    rw [nearest_eq Nat.one_pos units_eq, nearestCode_zero Nat.one_pos]
    rfl
  case isFalse => exact ⟨_, rfl, fun _ => decide_eq_true_iff⟩

omit finite finite' in
/-- The opposite of a number has its code and the other sign. -/
theorem neg_code (x : Binary64) :
  x.neg.code = x.code ∧ x.neg.negative = !x.negative
  := by
  have code_lt : x.code < pow2 63 := Nat.mod_lt _ (pow2_pos 63)
  exact ⟨code_ofCode _ code_lt, negative_ofCode _ code_lt⟩

omit finite finite' in
/-- The opposite of a number has the opposite value. -/
theorem toRat_neg (x : Binary64) :
  x.neg.toRat = -x.toRat
  := by
  obtain ⟨code_eq, negative_eq⟩ := x.neg_code
  rw [toRat_eq_magnitude, toRat_eq_magnitude, magnitude, magnitude, units, units, code_eq,
    negative_eq]
  cases x.negative with
  | true => rw [Bool.not_true, if_neg Bool.false_ne_true, if_pos rfl, neg_neg]
  | false => rw [Bool.not_false, if_pos rfl, if_neg Bool.false_ne_true]

/-- The difference of finite numbers is nearest to the exact difference. -/
theorem isNearest_sub :
  (x - y).IsNearest (x.toRat - y.toRat)
  := by
  have finite_neg : y.neg.isFinite = true := by
    rw [isFinite, y.neg_code.1]
    exact finite'
  rw [sub_eq_add_neg, ← toRat_neg]
  exact isNearest_add finite finite_neg

omit finite finite'

/-! ### Order -/

/-- Magnitudes have the order of their codes. -/
theorem magnitude_lt_magnitude_iff (x y : Binary64) :
  x.magnitude < y.magnitude ↔ x.code < y.code
  := by
  rw [magnitude, magnitude, div_lt_div_iff_of_pos_right (pow2_pos_rat 1074), Nat.cast_lt]
  exact strictMono_unitsOfCode.lt_iff_lt

/-- A magnitude is above zero exactly if its code is. -/
theorem magnitude_pos_iff (x : Binary64) :
  0 < x.magnitude ↔ 0 < x.code
  := by
  rw [magnitude, div_pos_iff_of_pos_right (pow2_pos_rat 1074), Nat.cast_pos, units,
    ← unitsOfCode_zero]
  exact strictMono_unitsOfCode.lt_iff_lt

/-- Numbers have the order of their values. -/
theorem toRat_lt_toRat_iff (x y : Binary64) :
  x.toRat < y.toRat ↔ x.rank < y.rank
  := by
  have x_nonneg := x.magnitude_nonneg
  have y_nonneg := y.magnitude_nonneg
  have x_pos := x.magnitude_pos_iff
  have y_pos := y.magnitude_pos_iff
  have above := magnitude_lt_magnitude_iff x y
  have below := magnitude_lt_magnitude_iff y x
  rw [toRat_eq_magnitude, toRat_eq_magnitude, rank, rank]
  generalize x.magnitude = m at *
  generalize y.magnitude = m' at *
  cases x.negative with
  | true =>
    cases y.negative with
    | true =>
      rw [if_pos rfl, if_pos rfl, if_pos rfl, if_pos rfl, neg_lt_neg_iff, neg_lt_neg_iff, below,
        Int.ofNat_lt]
    | false =>
      rw [if_pos rfl, if_neg Bool.false_ne_true, if_pos rfl, if_neg Bool.false_ne_true]
      -- Both sides say that one of the two is not zero.
      have value_iff : -m < m' ↔ 0 < m ∨ 0 < m' := by
        constructor
        · intro lt
          by_contra none
          rw [not_or] at none
          linarith
        · rintro (m_pos | m_pos')
          · linarith
          · linarith
      rw [value_iff, x_pos, y_pos]
      omega
  | false =>
    cases y.negative with
    | true =>
      rw [if_neg Bool.false_ne_true, if_pos rfl, if_neg Bool.false_ne_true, if_pos rfl]
      constructor
      · intro lt
        linarith
      · intro lt
        omega
    | false =>
      rw [if_neg Bool.false_ne_true, if_neg Bool.false_ne_true, if_neg Bool.false_ne_true,
        if_neg Bool.false_ne_true, above, Int.ofNat_lt]

/-- A finite number has a value. -/
theorem isNaN_of_isFinite (finite : x.isFinite = true) :
  x.isNaN = false
  := by
  have code_lt : x.code < infinityCode := of_decide_eq_true finite
  apply decide_eq_false code_lt.not_gt

/-- A finite number is below another one exactly if its value is. -/
theorem lt_iff_toRat_lt (finite : x.isFinite = true) (finite' : y.isFinite = true) :
  x < y ↔ x.toRat < y.toRat
  := by
  rw [toRat_lt_toRat_iff]
  change lt x y = true ↔ _
  rw [lt, isNaN_of_isFinite finite, isNaN_of_isFinite finite']
  simp

/-- A number whose magnitude does not exceed that of a finite one is finite. -/
theorem isFinite_of_abs_toRat_le (finite : y.isFinite = true) (le : |x.toRat| ≤ |y.toRat|) :
  x.isFinite = true
  := by
  have code_lt : y.code < infinityCode := of_decide_eq_true finite
  have code_le : x.code ≤ y.code := by
    apply not_lt.mp
    intro above
    rw [abs_toRat, abs_toRat] at le
    exact le.not_gt ((magnitude_lt_magnitude_iff y x).mpr above)
  exact decide_eq_true (code_le.trans_lt code_lt)

end Tariff.Binary64
