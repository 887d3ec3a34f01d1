import Mathlib.Algebra.Order.Field.Basic
import Mathlib.Algebra.Order.Round
import Mathlib.Data.Rat.Floor
import Mathlib.Order.Monotone.Odd
import Mathlib.Tactic.Linarith
import Mathlib.Tactic.Positivity
import Mathlib.Tactic.Ring
import Tariff.Power
import Tariff.Rounding

/-!
# Rounding rational numbers

A rational number is rounded to a number of places, ties away from zero.  The quotient of two natural
numbers that is rounded with ties up is the floor of the quotient and a half.  Rounding keeps the
order of numbers.
-/

namespace Tariff

/-- The multiple of `10 ^ -places` nearest to a number, and of two the one further from zero. -/
def roundAway (places : Nat) (x : ℚ) : ℚ :=
  if x < 0 then -(⌊-x * pow10 places + 1 / 2⌋ / pow10 places)
  else ⌊x * pow10 places + 1 / 2⌋ / pow10 places

/-- The size of a number is the quotient of two natural numbers. -/
theorem abs_eq_div (x : ℚ) :
  |x| = x.num.natAbs / x.den
  := by
  nth_rewrite 1 [← Rat.num_div_den x]
  rw [abs_div, Nat.abs_cast, Nat.cast_natAbs, Int.cast_abs]

/-- A quotient is rounded the same when dividend and divisor are multiplied by one number. -/
theorem roundDiv_mul_mul (tie : Tie) (n d : Nat) {k : Nat} (pos : 0 < k) :
  roundDiv tie (n * k) (d * k) = roundDiv tie n d
  := by
  have below_iff : 2 * (n % d * k) < d * k ↔ 2 * (n % d) < d := by
    rw [← Nat.mul_assoc, Nat.mul_lt_mul_right pos]
  have above_iff : d * k < 2 * (n % d * k) ↔ d < 2 * (n % d) := by
    rw [← Nat.mul_assoc, Nat.mul_lt_mul_right pos]
  unfold roundDiv
  dsimp only
  rw [Nat.mul_div_mul_right _ _ pos, Nat.mul_mod_mul_right]
  simp only [below_iff, above_iff]

/-- Of two dividends the larger one has the larger rounded quotient. -/
theorem roundDiv_mono_left (tie : Tie) {n n' : Nat} (d : Nat) (le : n ≤ n') :
  roundDiv tie n d ≤ roundDiv tie n' d
  := by
  have quotient_le : n / d ≤ n' / d := Nat.div_le_div_right le
  rcases Nat.lt_or_eq_of_le quotient_le with lt | eq
  · rcases roundDiv_eq_or tie n d with rounded | rounded <;>
      rcases roundDiv_eq_or tie n' d with rounded' | rounded' <;> omega
  · -- The quotients are rounded from one whole number, so that their rests decide.
    have rest_le : n % d ≤ n' % d := by
      have n_eq := Nat.div_add_mod n d
      have n'_eq := Nat.div_add_mod n' d
      rw [eq] at n_eq
      omega
    unfold roundDiv
    dsimp only
    rw [eq]
    cases tie with
    | toEven => grind
    | up => grind

/-- Of two quotients the larger one is rounded to the larger number. -/
theorem roundDiv_mono (tie : Tie) {n d n' d' : Nat} (pos : 0 < d) (pos' : 0 < d')
    (le : n * d' ≤ n' * d) :
  roundDiv tie n d ≤ roundDiv tie n' d'
  := by
  calc roundDiv tie n d = roundDiv tie (n * d') (d * d') := (roundDiv_mul_mul tie n d pos').symm
    _ ≤ roundDiv tie (n' * d) (d * d') := roundDiv_mono_left tie _ le
    _ = roundDiv tie (n' * d) (d' * d) := by rw [Nat.mul_comm d]
    _ = roundDiv tie n' d' := roundDiv_mul_mul tie n' d' pos

/-- A half is rounded to the even number. -/
theorem roundDiv_half {n d k : Nat} (pos : 0 < d) (half : 2 * n = (2 * k + 1) * d) :
  roundDiv .toEven n d = if k % 2 = 0 then k else k + 1
  := by
  have two_eq : roundDiv .toEven (2 * k + 1) 2 = if k % 2 = 0 then k else k + 1 := by
    have quotient_eq : (2 * k + 1) / 2 = k := by omega
    have rest_eq : (2 * k + 1) % 2 = 1 := by omega
    rw [roundDiv, quotient_eq, rest_eq]
    simp
  rw [← two_eq, ← roundDiv_mul_mul _ n d two_pos, Nat.mul_comm n, half, Nat.mul_comm d,
    roundDiv_mul_mul _ _ _ pos]

/-- A quotient is rounded below an even number exactly if it is more than half a unit below it. -/
theorem roundDiv_toEven_lt_iff {n d m : Nat} (d_pos : 0 < d) (m_pos : 0 < m) (even : m % 2 = 0) :
  roundDiv .toEven n d < m ↔ 2 * n < (2 * m - 1) * d
  := by
  have split_eq : n / d * d + n % d = n := Nat.div_add_mod' n d
  have rest_lt : n % d < d := Nat.mod_lt n d_pos
  have limit_eq : (2 * m - 1) * d = 2 * ((m - 1) * d) + d := by
    rw [show 2 * m - 1 = 2 * (m - 1) + 1 by omega]
    ring
  rw [limit_eq]
  rcases lt_trichotomy (n / d) (m - 1) with below | at_limit | above
  · have whole_le : (n / d + 1) * d ≤ (m - 1) * d := Nat.mul_le_mul_right d below
    rw [Nat.succ_mul] at whole_le
    have rounded := roundDiv_eq_or .toEven n d
    omega
  · -- The last number below the even one is odd, so that a half is rounded up to the even one.
    rw [at_limit] at split_eq
    unfold roundDiv
    dsimp only
    rw [at_limit]
    split
    case isTrue => omega
    case isFalse =>
      have not_even : ¬ (m - 1) % 2 = 0 := by omega
      rw [if_neg not_even]
      split <;> omega
  · have whole_le : (m - 1 + 1) * d ≤ n / d * d := Nat.mul_le_mul_right d above
    rw [Nat.succ_mul] at whole_le
    have rounded := roundDiv_eq_or .toEven n d
    omega

/-- A quotient that is rounded with ties up is the quotient of twice the dividend and the divisor by
twice the divisor. -/
theorem roundDiv_up {d : Nat} (pos : 0 < d) (n : Nat) :
  roundDiv .up n d = (2 * n + d) / (2 * d)
  := by
  have split_eq : n / d * d + n % d = n := Nat.div_add_mod' n d
  have rest_lt : n % d < d := Nat.mod_lt n pos
  have floor_eq : n / d * (2 * d) = 2 * (n / d * d) := Nat.mul_left_comm _ _ _
  have next_eq : (n / d + 1) * (2 * d) = 2 * (n / d * d) + 2 * d := by ring
  have after_eq : (n / d + 1 + 1) * (2 * d) = 2 * (n / d * d) + 4 * d := by ring
  symm
  unfold roundDiv
  dsimp only
  split
  case isTrue below => apply Nat.div_eq_of_lt_le <;> omega
  case isFalse not_below => split <;> apply Nat.div_eq_of_lt_le <;> omega

/-- A quotient that is rounded with ties up is the floor of the quotient and a half. -/
theorem floor_div_add_half {d : Nat} (pos : 0 < d) (n : Nat) :
  ⌊(n : ℚ) / d + 1 / 2⌋ = roundDiv .up n d
  := by
  have pos_rat : (0 : ℚ) < d := Nat.cast_pos.mpr pos
  have quotient_eq : (n : ℚ) / d + 1 / 2 = ((2 * n + d : Nat) : ℤ) / ((2 * d : Nat) : ℚ) := by
    push_cast
    field_simp
  rw [roundDiv_up pos, quotient_eq, Rat.floor_intCast_div_natCast]
  exact (Int.natCast_div _ _).symm

/-- Negative numbers are rounded as positive ones. -/
theorem roundAway_neg (places : Nat) (x : ℚ) :
  roundAway places (-x) = -roundAway places x
  := by
  unfold roundAway
  rcases lt_trichotomy x 0 with negative | rfl | positive
  · rw [if_pos negative, if_neg (by linarith), neg_neg]
  · norm_num
  · rw [if_pos (by linarith), if_neg (by linarith), neg_neg]

/-- A quotient by a power of ten is rounded as the dividend by the power of ten that is left. -/
theorem roundAway_div {places scale : Nat} (le : places ≤ scale) (n : Nat) :
  roundAway places (n / pow10 scale) = roundDiv .up n (pow10 (scale - places)) / pow10 places
  := by
  have not_negative : ¬ (n : ℚ) / pow10 scale < 0 := not_lt.mpr (by positivity)
  have places_pos : (0 : ℚ) < pow10 places := Nat.cast_pos.mpr (pow10_pos places)
  have rest_pos : (0 : ℚ) < pow10 (scale - places) := Nat.cast_pos.mpr (pow10_pos _)
  have power_eq : (pow10 scale : ℚ) = pow10 (scale - places) * pow10 places := by
    rw [← Nat.cast_mul, ← pow10_add, Nat.sub_add_cancel le]
  have quotient_eq : (n : ℚ) / pow10 scale * pow10 places = n / pow10 (scale - places) := by
    rw [power_eq]
    field_simp
  rw [roundAway, if_neg not_negative, quotient_eq, floor_div_add_half (pow10_pos _), Int.cast_natCast]

/-- A quotient by a power of ten with no more places is not changed. -/
theorem roundAway_of_le {places scale : Nat} (le : scale ≤ places) (n : Nat) :
  roundAway places (n / pow10 scale) = n / pow10 scale
  := by
  have not_negative : ¬ (n : ℚ) / pow10 scale < 0 := not_lt.mpr (by positivity)
  have places_pos : (0 : ℚ) < pow10 places := Nat.cast_pos.mpr (pow10_pos places)
  have scale_pos : (0 : ℚ) < pow10 scale := Nat.cast_pos.mpr (pow10_pos scale)
  have power_eq : (pow10 places : ℚ) = pow10 (places - scale) * pow10 scale := by
    rw [← Nat.cast_mul, ← pow10_add, Nat.sub_add_cancel le]
  have whole : (n : ℚ) / pow10 scale * pow10 places = (n * pow10 (places - scale) : Nat) := by
    rw [power_eq, Nat.cast_mul]
    field_simp
  have half_eq : ⌊(1 / 2 : ℚ)⌋ = 0 := by norm_num
  rw [roundAway, if_neg not_negative, whole, Int.floor_natCast_add, half_eq, add_zero,
    Int.cast_natCast, ← whole, mul_div_cancel_right₀ _ places_pos.ne']

/-- Of two numbers that are not negative the larger one is rounded to the larger number. -/
theorem roundAway_mono {x y : ℚ} (places : Nat) (nonneg : 0 ≤ x) (le : x ≤ y) :
  roundAway places x ≤ roundAway places y
  := by
  have pos : (0 : ℚ) < pow10 places := Nat.cast_pos.mpr (pow10_pos places)
  rw [roundAway, roundAway, if_neg (not_lt.mpr nonneg), if_neg (not_lt.mpr (nonneg.trans le))]
  have floor_le : ⌊x * pow10 places + 1 / 2⌋ ≤ ⌊y * pow10 places + 1 / 2⌋ := by
    gcongr
  gcongr

/-- Rounding up a half looks at one more place than it leaves. -/
theorem floor_mul_add_half {places k : Nat} (lt : places < k) (x : ℚ) :
  ⌊x * pow10 places + 1 / 2⌋ =
    (⌊x * pow10 k⌋ + (5 * pow10 (k - places - 1) : Nat)) / (pow10 (k - places) : Nat)
  := by
  have rest_pos : (0 : ℚ) < pow10 (k - places) := Nat.cast_pos.mpr (pow10_pos _)
  have power_eq : (pow10 k : ℚ) = pow10 places * pow10 (k - places) := by
    rw [← Nat.cast_mul, ← pow10_add, Nat.add_sub_cancel' lt.le]
  have half_eq : ((5 * pow10 (k - places - 1) : Nat) : ℚ) = pow10 (k - places) / 2 := by
    rw [show pow10 (k - places) = 10 * pow10 (k - places - 1) by
      rw [← pow10_succ, Nat.sub_add_cancel (Nat.sub_pos_of_lt lt)]]
    push_cast
    ring
  have quotient_eq : x * pow10 places + 1 / 2 =
      (x * pow10 k + (5 * pow10 (k - places - 1) : Nat)) / (pow10 (k - places) : Nat) := by
    rw [half_eq, power_eq, eq_div_iff rest_pos.ne']
    ring
  rw [quotient_eq, Int.floor_div_natCast, Int.floor_add_natCast]

/-- Numbers with the same digits up to one more place are rounded the same. -/
theorem roundAway_congr {x y : ℚ} {places k : Nat} (lt : places < k) (nonneg : 0 ≤ x)
    (nonneg' : 0 ≤ y) (same : ⌊x * pow10 k⌋ = ⌊y * pow10 k⌋) :
  roundAway places x = roundAway places y
  := by
  rw [roundAway, roundAway, if_neg (not_lt.mpr nonneg), if_neg (not_lt.mpr nonneg'),
    floor_mul_add_half lt, floor_mul_add_half lt, same]

/-- A natural number is not changed. -/
theorem roundAway_natCast (places n : Nat) :
  roundAway places n = n
  := by
  have one : (pow10 0 : ℚ) = 1 := Nat.cast_one
  have whole := roundAway_of_le (Nat.zero_le places) n
  rwa [one, div_one] at whole

/-- A number that is not negative is rounded to a natural number of units of the last place. -/
theorem exists_roundAway_eq {x : ℚ} (places : Nat) (nonneg : 0 ≤ x) :
  ∃ n : Nat, roundAway places x = n / pow10 places
  := by
  have floor_nonneg : 0 ≤ ⌊x * pow10 places + 1 / 2⌋ := by
    apply Int.floor_nonneg.mpr
    positivity
  obtain ⟨n, floor_eq⟩ := Int.eq_ofNat_of_zero_le floor_nonneg
  use n
  rw [roundAway, if_neg (not_lt.mpr nonneg), floor_eq, Int.cast_natCast]

/-- A number that is not negative is rounded by half a unit of the last place at most. -/
theorem abs_roundAway_sub_le {x : ℚ} (places : Nat) (nonneg : 0 ≤ x) :
  |roundAway places x - x| ≤ 1 / (2 * pow10 places)
  := by
  have pos : (0 : ℚ) < pow10 places := Nat.cast_pos.mpr (pow10_pos places)
  have floor_le := Int.floor_le (x * pow10 places + 1 / 2)
  have lt_floor := Int.lt_floor_add_one (x * pow10 places + 1 / 2)
  have difference_eq : roundAway places x - x =
      (⌊x * pow10 places + 1 / 2⌋ - x * pow10 places) / pow10 places := by
    rw [roundAway, if_neg (not_lt.mpr nonneg)]
    field_simp
  rw [difference_eq, abs_div, abs_of_pos pos, div_le_div_iff₀ pos (by positivity), one_mul,
    mul_comm (2 : ℚ), mul_left_comm]
  apply mul_le_of_le_one_right pos.le
  have near : |(⌊x * pow10 places + 1 / 2⌋ : ℚ) - x * pow10 places| ≤ 1 / 2 := by
    rw [abs_le]
    constructor <;> linarith
  linarith

/-- Zero is not changed. -/
theorem roundAway_zero (places : Nat) :
  roundAway places 0 = 0
  := by
  norm_num [roundAway]

/-- A number that is not negative is rounded to zero exactly if it is less than half a unit of the
last place. -/
theorem roundAway_eq_zero_iff {x : ℚ} (places : Nat) (nonneg : 0 ≤ x) :
  roundAway places x = 0 ↔ x * pow10 places < 1 / 2
  := by
  have pos : (0 : ℚ) < pow10 places := Nat.cast_pos.mpr (pow10_pos places)
  have product_nonneg := mul_nonneg nonneg pos.le
  rw [roundAway, if_neg (not_lt.mpr nonneg), div_eq_zero_iff, or_iff_left pos.ne', Int.cast_eq_zero,
    Int.floor_eq_zero_iff, Set.mem_Ico]
  constructor
  · rintro ⟨-, lt⟩
    linarith
  · intro lt
    constructor <;> linarith

/-! ### Whole numbers -/

/-- Of two numbers the larger one is rounded to the larger one, whatever their signs. -/
theorem monotone_roundAway (places : Nat) :
  Monotone (roundAway places)
  := by
  apply monotone_of_odd_of_monotoneOn_nonneg (roundAway_neg places)
  intro x x_nonneg y _ le
  apply roundAway_mono places x_nonneg le

/-- What is less than one half away from an integer is rounded to it. -/
theorem roundAway_of_near {x : ℚ} {k : ℤ} (near : |x - k| < 1 / 2) :
  roundAway 0 x = k
  := by
  have one : (pow10 0 : ℚ) = 1 := Nat.cast_one
  obtain ⟨above, below⟩ := abs_lt.mp near
  rw [roundAway, one]
  split
  case isTrue =>
    have floor_eq : ⌊-x * 1 + 1 / 2⌋ = -k := by
      rw [Int.floor_eq_iff]
      push_cast
      constructor <;> linarith
    rw [floor_eq, Int.cast_neg, div_one, neg_neg]
  case isFalse =>
    have floor_eq : ⌊x * 1 + 1 / 2⌋ = k := by
      rw [Int.floor_eq_iff]
      constructor <;> linarith
    rw [floor_eq, div_one]

/-- A quotient of natural numbers is rounded to a whole number with ties up. -/
theorem roundAway_natCast_div {d : Nat} (pos : 0 < d) (n : Nat) :
  roundAway 0 (n / d) = roundDiv .up n d
  := by
  have one : (pow10 0 : ℚ) = 1 := Nat.cast_one
  have not_negative : ¬ (n / d : ℚ) < 0 := not_lt.mpr (by positivity)
  rw [roundAway, if_neg not_negative, one, mul_one, div_one, floor_div_add_half pos, Int.cast_natCast]

/-- Half a unit is rounded away from zero. -/
theorem roundAway_add_half (n : Nat) :
  roundAway 0 (n + 1 / 2) = n + 1
  := by
  have one : (pow10 0 : ℚ) = 1 := Nat.cast_one
  have not_negative : ¬ (n : ℚ) + 1 / 2 < 0 := not_lt.mpr (by positivity)
  have floor_eq : ⌊((n : ℚ) + 1 / 2) * 1 + 1 / 2⌋ = (n + 1 : ℤ) := by
    rw [Int.floor_eq_iff]
    push_cast
    constructor <;> linarith
  rw [roundAway, one, if_neg not_negative, floor_eq, div_one]
  push_cast
  rfl

/-- A number is rounded below zero exactly if it is minus one half or less. -/
theorem roundAway_nonneg_iff {x : ℚ} :
  0 ≤ roundAway 0 x ↔ -1 / 2 < x
  := by
  have half_eq : roundAway 0 (-1 / 2) = -1 := by norm_num [roundAway, pow10]
  constructor
  · intro nonneg
    by_contra below
    have le := monotone_roundAway 0 (le_of_not_gt below)
    linarith
  · intro above
    rcases lt_or_ge x 0 with negative | nonneg
    · have near : |x - (0 : ℤ)| < 1 / 2 := by
        rw [Int.cast_zero, sub_zero, abs_lt]
        constructor <;> linarith
      rw [roundAway_of_near near, Int.cast_zero]
    · rw [← roundAway_zero 0]
      apply roundAway_mono 0 le_rfl nonneg

/-- A quotient that is not halfway between two integers is half a part nearer to one of them than
that. -/
theorem exists_abs_div_sub_le {n : ℤ} {d : Nat} (d_pos : 0 < d)
    (no_half : ∀ k : ℤ, (n / d : ℚ) ≠ k + 1 / 2) :
  ∃ k : ℤ, |(n / d : ℚ) - k| ≤ 1 / 2 - 1 / (2 * d)
  := by
  have d_rat : (0 : ℚ) < d := Nat.cast_pos.mpr d_pos
  use round (n / d : ℚ)
  have near := abs_sub_round (n / d : ℚ)
  generalize round (n / d : ℚ) = k at *
  obtain ⟨below, above⟩ := abs_le.mp near
  -- Twice the numerator is not an odd multiple of the divisor, so that it is one more or less.
  have high_ne : (2 * n : ℤ) ≠ (2 * k + 1) * d := by
    intro eq
    apply no_half k
    have eq_rat : (2 * n : ℚ) = (2 * k + 1) * d := by exact_mod_cast eq
    rw [div_eq_iff d_rat.ne']
    linarith
  have low_ne : (2 * k - 1) * (d : ℤ) ≠ 2 * n := by
    intro eq
    apply no_half (k - 1)
    have eq_rat : (2 * k - 1) * (d : ℚ) = 2 * n := by exact_mod_cast eq
    rw [div_eq_iff d_rat.ne']
    push_cast
    linarith
  have high_le : (2 * n : ℤ) ≤ (2 * k + 1) * d := by
    have le_rat : (n : ℚ) ≤ (k + 1 / 2) * d := (div_le_iff₀ d_rat).mp (by linarith)
    have twice_rat : (2 * n : ℚ) ≤ (2 * k + 1) * d := by linarith
    exact_mod_cast twice_rat
  have low_le : (2 * k - 1) * (d : ℤ) ≤ 2 * n := by
    have le_rat : (k - 1 / 2) * d ≤ (n : ℚ) := (le_div_iff₀ d_rat).mp (by linarith)
    have twice_rat : (2 * k - 1) * d ≤ (2 * n : ℚ) := by linarith
    exact_mod_cast twice_rat
  have high_rat : (2 * n : ℚ) + 1 ≤ (2 * k + 1) * d := by
    exact_mod_cast lt_of_le_of_ne high_le high_ne
  have low_rat : (2 * k - 1) * (d : ℚ) + 1 ≤ 2 * n := by
    exact_mod_cast lt_of_le_of_ne low_le low_ne
  have part_eq : 1 / (2 * d) * (d : ℚ) = 1 / 2 := by field_simp
  rw [abs_le]
  constructor
  · have low : (k : ℚ) - 1 / 2 + 1 / (2 * d) ≤ n / d := by
      rw [le_div_iff₀ d_rat, add_mul, part_eq]
      linarith
    linarith
  · have high : (n / d : ℚ) ≤ k + 1 / 2 - 1 / (2 * d) := by
      rw [div_le_iff₀ d_rat, sub_mul, part_eq]
      linarith
    linarith

/-- What is less than half a part away from a quotient that is not halfway between two integers is
rounded as the quotient. -/
theorem roundAway_eq_of_near {n : ℤ} {d : Nat} {x : ℚ} (d_pos : 0 < d)
    (no_half : ∀ k : ℤ, (n / d : ℚ) ≠ k + 1 / 2) (near : |x - n / d| < 1 / (2 * d)) :
  roundAway 0 x = roundAway 0 (n / d)
  := by
  obtain ⟨k, gap⟩ := exists_abs_div_sub_le d_pos no_half
  have part_pos : (0 : ℚ) < 1 / (2 * d) := by positivity
  have near_k : |x - k| < 1 / 2 := by
    calc |x - k| ≤ |x - n / d| + |(n / d : ℚ) - k| := abs_sub_le _ _ _
      _ < 1 / 2 := by linarith
  rw [roundAway_of_near near_k, roundAway_of_near (gap.trans_lt (by linarith))]

end Tariff
