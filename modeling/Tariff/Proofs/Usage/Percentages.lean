import Tariff.Proofs.Binary64.RoundedValues

/-!
# Percentages

The percentage that is left when a share is taken off is rounded three times: the share, what is left
of one, and a hundred times that.  It falls as the share grows.  For a quotient of natural numbers it
is off by little, so that with numbers of 42 bits it is rounded to the right whole number unless the
exact percentage is halfway between two.  The halves that are rounded to the wrong side are listed.
-/

namespace Tariff.Binary64

/-- The percentage of a whole that is left when a share is taken off it. -/
def percentLeft (share : Binary64) : Binary64 :=
  (1 - share) * 100

/-- A share of a whole, or not too many wholes. -/
structure IsShare (x : Binary64) : Prop where
  isFinite : x.isFinite = true
  nonneg : 0 ≤ x.toRat
  le : x.toRat ≤ 2 ^ 65

variable {x y : Binary64}

instance : Decidable x.IsShare :=
  decidable_of_iff (x.isFinite = true ∧ 0 ≤ x.toRat ∧ x.toRat ≤ 2 ^ 65)
    ⟨fun ⟨isFinite, nonneg, le⟩ => ⟨isFinite, nonneg, le⟩,
      fun share => ⟨share.isFinite, share.nonneg, share.le⟩⟩

/-- What is left of a whole is rounded once, and its percentage once more. -/
theorem exists_left (share : x.IsShare) :
  ∃ left : ℚ, left = rounded (1 - x.toRat) ∧
    |left - (1 - x.toRat)| ≤ (|1 - x.toRat| + 1 / 2 ^ 60) / 2 ^ 53 ∧
    (percentLeft x).IsNearest (left * 100) ∧ |left * 100| ≤ 2 ^ 100
  := by
  obtain ⟨one_finite, one_eq⟩ := toRat_ofInt_of_le (by decide : 1 ≤ pow2 53)
  obtain ⟨hundred_finite, hundred_eq⟩ := toRat_ofInt_of_le (by decide : 100 ≤ pow2 53)
  have left_nearest := isNearest_sub one_finite share.isFinite
  rw [one_eq, Nat.cast_one] at left_nearest
  have left_le : |1 - x.toRat| ≤ 2 ^ 66 := by
    have nonneg := share.nonneg
    have le := share.le
    rw [abs_le]
    constructor <;> linarith
  obtain ⟨left_finite, left_near⟩ := left_nearest.finite_near (left_le.trans (by norm_num))
  have percent_nearest := isNearest_mul left_finite hundred_finite
  rw [hundred_eq] at percent_nearest
  refine ⟨_, left_nearest.toRat_eq, left_near, percent_nearest, ?_⟩
  obtain ⟨left_above, left_below⟩ := abs_le.mp left_near
  obtain ⟨above, below⟩ := abs_le.mp left_le
  rw [abs_le]
  constructor <;> linarith only [left_above, left_below, left_le, above, below]

/-- The percentage is a function of the value of the share. -/
theorem toRat_percentLeft (share : x.IsShare) :
  (percentLeft x).toRat = rounded (rounded (1 - x.toRat) * 100)
  := by
  obtain ⟨left, left_eq, -, nearest, -⟩ := exists_left share
  rw [nearest.toRat_eq, left_eq]

/-- The more is taken off the less is left. -/
theorem toRat_percentLeft_anti (share : x.IsShare) (share' : y.IsShare) (le : x.toRat ≤ y.toRat) :
  (percentLeft y).toRat ≤ (percentLeft x).toRat
  := by
  have hundred_nonneg : (0 : ℚ) ≤ 100 := by norm_num
  rw [toRat_percentLeft share, toRat_percentLeft share']
  apply rounded_mono (mul_le_mul_of_nonneg_right _ hundred_nonneg)
  apply rounded_mono (sub_le_sub_left le 1)

/-- A quotient of numbers that are little off is little off. -/
theorem abs_div_sub_div_le {a b m k v w : ℚ} (m_pos : 0 < m) (k_pos : 0 < k)
    (a_near : |a - m| ≤ v * m) (b_near : |b - k| ≤ v * k) (v_lt : v < 1)
    (w_large : 1 + v ≤ (1 + w) * (1 - v)) (w_small : (1 - w) * (1 + v) ≤ 1 - v) (w_le : w ≤ 1) :
  0 < a ∧ 0 < b ∧ |a / b - m / k| ≤ w * (m / k)
  := by
  obtain ⟨a_low, a_high⟩ := abs_le.mp a_near
  obtain ⟨b_low, b_high⟩ := abs_le.mp b_near
  have a_ge : (1 - v) * m ≤ a := by linarith
  have a_le : a ≤ (1 + v) * m := by linarith
  have b_ge : (1 - v) * k ≤ b := by linarith
  have b_le : b ≤ (1 + v) * k := by linarith
  have a_pos : 0 < a := (mul_pos (sub_pos.mpr v_lt) m_pos).trans_le a_ge
  have b_pos : 0 < b := (mul_pos (sub_pos.mpr v_lt) k_pos).trans_le b_ge
  have mk_nonneg : 0 ≤ m * k := (mul_pos m_pos k_pos).le
  have w_nonneg : 0 ≤ 1 + w := by
    have v_nonneg : 0 ≤ v := nonneg_of_mul_nonneg_left ((abs_nonneg _).trans a_near) m_pos
    apply nonneg_of_mul_nonneg_left _ (sub_pos.mpr v_lt)
    linarith
  have high : a / b ≤ (1 + w) * m / k := by
    rw [div_le_div_iff₀ b_pos k_pos]
    calc a * k ≤ (1 + v) * m * k := mul_le_mul_of_nonneg_right a_le k_pos.le
      _ = (1 + v) * (m * k) := by ring
      _ ≤ (1 + w) * (1 - v) * (m * k) := mul_le_mul_of_nonneg_right w_large mk_nonneg
      _ = (1 + w) * m * ((1 - v) * k) := by ring
      _ ≤ (1 + w) * m * b := mul_le_mul_of_nonneg_left b_ge (mul_nonneg w_nonneg m_pos.le)
  have low : (1 - w) * m / k ≤ a / b := by
    rw [div_le_div_iff₀ k_pos b_pos]
    calc (1 - w) * m * b ≤ (1 - w) * m * ((1 + v) * k) :=
          mul_le_mul_of_nonneg_left b_le (mul_nonneg (sub_nonneg.mpr w_le) m_pos.le)
      _ = (1 - w) * (1 + v) * (m * k) := by ring
      _ ≤ (1 - v) * (m * k) := mul_le_mul_of_nonneg_right w_small mk_nonneg
      _ = (1 - v) * m * k := by ring
      _ ≤ a * k := mul_le_mul_of_nonneg_right a_ge k_pos.le
  refine ⟨a_pos, b_pos, ?_⟩
  rw [mul_div_assoc] at high low
  rw [abs_le]
  constructor <;> linarith

/-! ### Percentages of natural numbers -/

/-- A natural number is off by little when it is converted. -/
theorem abs_toRat_ofInt_sub_le {n : Nat} (pos : 0 < n) (lt : n < 2 ^ 63) :
  (ofInt n).isFinite = true ∧ |(ofInt n).toRat - n| ≤ (1 + 1 / 2 ^ 60) / 2 ^ 53 * n
  := by
  have one_le : (1 : ℚ) ≤ n := Nat.one_le_cast.mpr pos
  have lt_rat : (n : ℚ) < 2 ^ 63 := by exact_mod_cast lt
  have nearest := isNearest_ofInt n
  rw [Int.cast_natCast] at nearest
  have small : |(n : ℚ)| ≤ 2 ^ 100 := by
    rw [Nat.abs_cast]
    linarith only [lt_rat]
  obtain ⟨finite, near⟩ := nearest.finite_near small
  use finite
  rw [Nat.abs_cast] at near
  linarith only [near, one_le]

variable {m k : Nat}

section

variable (m_pos : 0 < m) (k_pos : 0 < k) (m_lt : m < 2 ^ 63) (k_lt : k < 2 ^ 63)

include m_pos k_pos m_lt k_lt

/-- The quotient of natural numbers is a share, off by little. -/
theorem isShare_ofInt_div :
  (ofInt m / ofInt k).IsShare ∧
    |(ofInt m / ofInt k).toRat - m / k| ≤ 6 / 2 ^ 53 * max 1 (m / k : ℚ)
  := by
  obtain ⟨m_finite, m_near⟩ := abs_toRat_ofInt_sub_le m_pos m_lt
  obtain ⟨k_finite, k_near⟩ := abs_toRat_ofInt_sub_le k_pos k_lt
  have m_rat : (0 : ℚ) < m := Nat.cast_pos.mpr m_pos
  have k_rat : (0 : ℚ) < k := Nat.cast_pos.mpr k_pos
  obtain ⟨a_pos, b_pos, exact_near⟩ := abs_div_sub_div_le (w := 3 / 2 ^ 53) m_rat k_rat m_near k_near
    (by norm_num) (by norm_num) (by norm_num) (by norm_num)
  have quotient_le : (m : ℚ) / k ≤ 2 ^ 63 := by
    have m_le : (m : ℚ) ≤ 2 ^ 63 := by exact_mod_cast m_lt.le
    have one_le : (1 : ℚ) ≤ k := Nat.one_le_cast.mpr k_pos
    apply (div_le_self m_rat.le one_le).trans m_le
  have quotient_pos : (0 : ℚ) < m / k := div_pos m_rat k_rat
  have nearest := isNearest_div m_finite k_finite b_pos.ne'
  have exact_pos := div_pos a_pos b_pos
  generalize (ofInt m).toRat / (ofInt k).toRat = exact at *
  generalize (m : ℚ) / k = quotient at *
  have exact_le : exact ≤ (1 + 3 / 2 ^ 53) * quotient := by
    linarith only [(abs_le.mp exact_near).2]
  have small : |exact| ≤ 2 ^ 100 := by
    rw [abs_of_pos exact_pos]
    linarith only [exact_le, quotient_le]
  obtain ⟨finite, near⟩ := nearest.finite_near small
  rw [abs_of_pos exact_pos] at near
  refine ⟨⟨finite, ?_, ?_⟩, ?_⟩
  · rw [nearest.toRat_eq]
    apply rounded_nonneg exact_pos.le
  · linarith only [(abs_le.mp near).2, exact_le, quotient_le]
  · apply (abs_sub_le _ exact quotient).trans
    linarith only [near, exact_near, exact_le, le_max_left 1 quotient, le_max_right 1 quotient]

/-- The percentage that is left is off by little, as far as no more is taken off than there is. -/
theorem abs_percentLeft_sub_le :
  |(percentLeft (ofInt m / ofInt k)).toRat - 100 * (k - m) / k| ≤ max 1 (m / k : ℚ) / 2 ^ 43
  := by
  obtain ⟨share, share_near⟩ := isShare_ofInt_div m_pos k_pos m_lt k_lt
  obtain ⟨left, -, left_near, percent_nearest, percent_small⟩ := exists_left share
  obtain ⟨-, percent_near⟩ := percent_nearest.finite_near percent_small
  have k_rat : (0 : ℚ) < k := Nat.cast_pos.mpr k_pos
  have quotient_nonneg : (0 : ℚ) ≤ m / k := div_nonneg (Nat.cast_nonneg m) k_rat.le
  have exact_eq : 100 * (k - m) / k = (1 - m / k : ℚ) * 100 := by
    field_simp
  rw [exact_eq]
  generalize (percentLeft (ofInt m / ofInt k)).toRat = percent at *
  generalize (ofInt m / ofInt k).toRat = value at *
  generalize (m : ℚ) / k = quotient at *
  have one_le := le_max_left 1 quotient
  have quotient_le := le_max_right 1 quotient
  generalize max 1 quotient = size at *
  have exact_le : |1 - quotient| ≤ size := by
    rw [abs_le]
    constructor <;> linarith only [quotient_nonneg, one_le, quotient_le]
  -- The share, what is left of the whole, and its percentage are off by 6, 8 and 902 parts.
  have rest_off : |1 - value - (1 - quotient)| ≤ 6 / 2 ^ 53 * size := by
    rwa [sub_sub_sub_cancel_left, abs_sub_comm]
  have rest_le : |1 - value| ≤ (1 + 6 / 2 ^ 53) * size := by
    linarith only [abs_sub_abs_le_abs_sub (1 - value) (1 - quotient), rest_off, exact_le]
  have left_off : |left - (1 - quotient)| ≤ 8 / 2 ^ 53 * size := by
    apply (abs_sub_le left (1 - value) (1 - quotient)).trans
    linarith only [left_near, rest_le, rest_off, one_le]
  have hundred_off : |left * 100 - (1 - quotient) * 100| ≤ 800 / 2 ^ 53 * size := by
    rw [← sub_mul, abs_mul, abs_of_pos (by norm_num : (0 : ℚ) < 100)]
    linarith only [left_off]
  have hundred_le : |left * 100| ≤ 101 * size := by
    rw [abs_mul, abs_of_pos (by norm_num : (0 : ℚ) < 100)]
    linarith only [abs_sub_abs_le_abs_sub left (1 - quotient), left_off, exact_le, one_le]
  apply (abs_sub_le percent (left * 100) ((1 - quotient) * 100)).trans
  linarith only [percent_near, hundred_le, hundred_off, one_le]

end

section

variable (m_pos : 0 < m) (k_pos : 0 < k) (m_lt : m < 2 ^ 42) (k_lt : k < 2 ^ 42)

include m_pos k_pos m_lt k_lt

/-- The percentage that is left is off by less than half a part if both numbers have 42 bits. -/
theorem abs_percentLeft_sub_lt :
  |(percentLeft (ofInt m / ofInt k)).toRat - 100 * (k - m) / k| < 1 / (2 * k)
  := by
  have near := abs_percentLeft_sub_le m_pos k_pos (m_lt.trans (by decide)) (k_lt.trans (by decide))
  have k_rat : (0 : ℚ) < k := Nat.cast_pos.mpr k_pos
  have m_small : (m : ℚ) < 2 ^ 42 := by exact_mod_cast m_lt
  have k_small : (k : ℚ) < 2 ^ 42 := by exact_mod_cast k_lt
  have size_lt : max 1 (m / k : ℚ) < 2 ^ 42 / k := by
    apply max_lt
    · rwa [one_lt_div k_rat]
    · rwa [div_lt_div_iff_of_pos_right k_rat]
  have bound_eq : 1 / (2 * k : ℚ) = 2 ^ 42 / k / 2 ^ 43 := by
    field_simp
  rw [bound_eq]
  linarith

/-- A percentage that is not halfway between two whole ones is rounded as the exact one. -/
theorem roundAway_percentLeft (no_half : ∀ j : ℤ, (100 * (k - m) / k : ℚ) ≠ j + 1 / 2) :
  roundAway 0 (percentLeft (ofInt m / ofInt k)).toRat = roundAway 0 (100 * (k - m) / k)
  := by
  have near := abs_percentLeft_sub_lt m_pos k_pos m_lt k_lt
  have exact_eq : (100 * (k - m) / k : ℚ) = (100 * (k - m) : ℤ) / k := by
    push_cast
    rfl
  rw [exact_eq] at near no_half ⊢
  apply roundAway_eq_of_near k_pos no_half near

/-- The percentage is above minus one half exactly if no more than two hundred and one
two-hundredths are taken off. -/
theorem neg_half_lt_percentLeft_ofInt_iff :
  -1 / 2 < (percentLeft (ofInt m / ofInt k)).toRat ↔ 200 * m ≤ 201 * k
  := by
  have near := abs_percentLeft_sub_lt m_pos k_pos m_lt k_lt
  have k_rat : (0 : ℚ) < k := Nat.cast_pos.mpr k_pos
  have exact_eq : (100 * (k - m) / k : ℚ) = -1 / 2 + (201 * k - 200 * m) * (1 / (2 * k)) := by
    field_simp
    ring
  have part_pos : 0 < 1 / (2 * k : ℚ) := by positivity
  rw [exact_eq] at near
  obtain ⟨low, high⟩ := abs_lt.mp near
  rcases lt_trichotomy (200 * m) (201 * k) with below | same | above
  · -- There is one part more at least, of which less than one is lost.
    have more_rat : (1 : ℚ) ≤ 201 * k - 200 * m := by
      have more : (200 * m + 1 : ℚ) ≤ 201 * k := by exact_mod_cast below
      linarith
    have more := mul_le_mul_of_nonneg_right more_rat part_pos.le
    simp only [below.le, iff_true]
    linarith
  · have small : pow2 53 = 2 ^ 53 := rfl
    have share_eq : ofInt m / ofInt k = ofInt (201 : Nat) / ofInt (200 : Nat) := by
      apply ofInt_div_ofInt_congr k_pos
      all_goals omega
    have limit : -1 / 2 < (percentLeft (ofInt (201 : Nat) / ofInt (200 : Nat))).toRat := by
      decide +kernel
    rw [share_eq]
    simp only [same.le, limit]
  · have less_rat : (201 * k - 200 * m : ℚ) ≤ -1 := by
      have less : (201 * k + 1 : ℚ) ≤ 200 * m := by exact_mod_cast above
      linarith
    have less := mul_le_mul_of_nonneg_right less_rat part_pos.le
    simp only [above.not_ge, iff_false]
    linarith

end

/-! ### Bounds -/

/-- No more than all is left of a whole. -/
theorem toRat_percentLeft_le (share : x.IsShare) :
  (percentLeft x).toRat ≤ 100
  := by
  have one_kept := rounded_natCast (by decide : 1 ≤ pow2 53)
  have hundred_kept := rounded_natCast (by decide : 100 ≤ pow2 53)
  have left_le : rounded (1 - x.toRat) ≤ rounded (1 : Nat) := by
    apply rounded_mono
    rw [Nat.cast_one]
    apply sub_le_self _ share.nonneg
  have percent_le : rounded (1 - x.toRat) * 100 ≤ (100 : Nat) := by
    rw [one_kept, Nat.cast_one] at left_le
    push_cast
    linarith
  rw [toRat_percentLeft share]
  apply (rounded_mono percent_le).trans
  rw [hundred_kept]
  rfl

/-- A number is not more than the whole of one that is not smaller. -/
theorem toRat_ofInt_div_le_one (m_pos : 0 < m) (k_lt : k < 2 ^ 63) (le : m ≤ k) :
  (ofInt m / ofInt k).toRat ≤ 1
  := by
  have k_pos := m_pos.trans_le le
  have k_rat : (0 : ℚ) < k := Nat.cast_pos.mpr k_pos
  obtain ⟨m_finite, -⟩ := abs_toRat_ofInt_sub_le m_pos (le.trans_lt k_lt)
  obtain ⟨k_finite, k_near⟩ := abs_toRat_ofInt_sub_le k_pos k_lt
  have converted_pos : 0 < (ofInt k).toRat := by
    obtain ⟨low, -⟩ := abs_le.mp k_near
    linarith
  have converted_le : (ofInt m).toRat ≤ (ofInt k).toRat := by
    rw [(isNearest_ofInt m).toRat_eq, (isNearest_ofInt k).toRat_eq]
    apply rounded_mono
    exact_mod_cast le
  have one_kept := rounded_natCast (by decide : 1 ≤ pow2 53)
  rw [Nat.cast_one] at one_kept
  rw [(isNearest_div m_finite k_finite converted_pos.ne').toRat_eq, ← one_kept]
  apply rounded_mono ((div_le_one converted_pos).mpr converted_le)

/-- What is not taken off a whole is left of it. -/
theorem toRat_percentLeft_nonneg (m_pos : 0 < m) (k_lt : k < 2 ^ 63) (le : m ≤ k) :
  0 ≤ (percentLeft (ofInt m / ofInt k)).toRat
  := by
  have k_pos := m_pos.trans_le le
  have hundred_nonneg : (0 : ℚ) ≤ 100 := by norm_num
  obtain ⟨share, -⟩ := isShare_ofInt_div m_pos k_pos (le.trans_lt k_lt) k_lt
  rw [toRat_percentLeft share]
  apply rounded_nonneg (mul_nonneg _ hundred_nonneg)
  apply rounded_nonneg (sub_nonneg.mpr (toRat_ofInt_div_le_one m_pos k_lt le))

/-- The percentage is above minus one half exactly if the share does not exceed the number nearest to
two hundred and one two-hundredths. -/
theorem neg_half_lt_percentLeft_iff (share : x.IsShare) :
  -1 / 2 < (percentLeft x).toRat ↔ ¬ (1.005 : Binary64) < x
  := by
  -- The limit, and the number after it.
  obtain ⟨limit, next, next_rank, limit_above, next_below⟩ :
      IsShare 1.005 ∧ IsShare ⟨0x3ff0147ae147ae15⟩ ∧ rank ⟨0x3ff0147ae147ae15⟩ = rank 1.005 + 1 ∧
        -1 / 2 < (percentLeft 1.005).toRat ∧ (percentLeft ⟨0x3ff0147ae147ae15⟩).toRat ≤ -1 / 2 := by
    decide +kernel
  rw [lt_iff_toRat_lt limit.isFinite share.isFinite, not_lt]
  constructor
  · intro above
    by_contra beyond
    have rank_lt := (toRat_lt_toRat_iff _ _).mp (not_le.mp beyond)
    have next_le : toRat ⟨0x3ff0147ae147ae15⟩ ≤ x.toRat := by
      apply not_lt.mp
      rw [toRat_lt_toRat_iff, next_rank]
      omega
    have le := toRat_percentLeft_anti next share next_le
    linarith
  · intro le
    apply limit_above.trans_le (toRat_percentLeft_anti share limit le)

/-! ### Halves of a percent -/

/-- A quotient as a multiple of a power of two with 53 bits, if it is one of the given power or the
next: the factor, and the power that divides it. -/
def roundBits? (n d lowest : Nat) : Option (Nat × Nat) :=
  let e := if n * pow2 lowest < pow2 52 * d then lowest + 1 else lowest
  if e ≤ 1074 ∧ pow2 52 * d ≤ n * pow2 e ∧ n * pow2 e < pow2 53 * d then
    some (roundDiv .toEven (n * pow2 e) d, e)
  else none

/-- A quotient is rounded to such a multiple. -/
theorem rounded_of_roundBits? {n d lowest r e : Nat} (found : roundBits? n d lowest = some (r, e)) :
  rounded (n / d) = r / pow2 e
  := by
  rw [roundBits?] at found
  generalize (if n * pow2 lowest < pow2 52 * d then lowest + 1 else lowest) = e' at found
  split at found
  case isTrue fits =>
    obtain ⟨rfl, rfl⟩ := Prod.mk.inj (Option.some.inj found)
    apply rounded_div_eq fits.1 fits.2.1 fits.2.2
  case isFalse => cases found

/-- The whole percentage that is left of two hundred parts, computed with multiples of powers of
two. -/
def percentLeft? (n : Nat) : Option Nat := do
  let (share, e) ← roundBits? n 200 (59 - Nat.log2 n)
  let (left, e) ← roundBits? (pow2 e - share) (pow2 e) (59 - Nat.log2 (200 - n))
  let (percent, e) ← roundBits? (left * 100) (pow2 e) (53 - Nat.log2 (200 - n))
  return roundDiv .up percent (pow2 e)

/-- The computed percentage is that of the quotient. -/
theorem roundToInt_of_percentLeft? {n percent : Nat} (pos : 0 < n) (le : n ≤ 200)
    (found : percentLeft? n = some percent) :
  (percentLeft (ofInt n / ofInt (200 : Nat))).roundToInt = percent
  := by
  obtain ⟨⟨share, e⟩, share_eq, found⟩ := Option.bind_eq_some_iff.mp found
  obtain ⟨⟨left, e'⟩, left_eq, found⟩ := Option.bind_eq_some_iff.mp found
  obtain ⟨⟨rest, e''⟩, rest_eq, found⟩ := Option.bind_eq_some_iff.mp found
  obtain rfl := Option.some.inj found
  obtain ⟨n_finite, n_eq⟩ := toRat_ofInt_of_le (n := n) (le.trans (by decide))
  obtain ⟨d_finite, d_eq⟩ := toRat_ofInt_of_le (n := 200) (by decide)
  have d_ne : (ofInt (200 : Nat)).toRat ≠ 0 := by
    rw [d_eq]
    exact Nat.cast_ne_zero.mpr (by decide)
  have value_eq : (ofInt n / ofInt (200 : Nat)).toRat = share / pow2 e := by
    rw [(isNearest_div n_finite d_finite d_ne).toRat_eq, n_eq, d_eq, rounded_of_roundBits? share_eq]
  have share_le : share ≤ pow2 e := by
    have le_one := toRat_ofInt_div_le_one pos (by decide) le
    rw [value_eq, div_le_one (pow2_pos_rat e)] at le_one
    exact_mod_cast le_one
  obtain ⟨isShare, -⟩ := isShare_ofInt_div pos (by decide : 0 < 200) (by omega) (by decide)
  have rest_value : 1 - (share : ℚ) / pow2 e = (pow2 e - share : Nat) / (pow2 e : Nat) := by
    rw [Nat.cast_sub share_le, sub_div,
      (div_eq_one_iff_eq (pow2_pos_rat e).ne').mpr rfl]
  have percent_value : (left : ℚ) / pow2 e' * 100 = (left * 100 : Nat) / (pow2 e' : Nat) := by
    rw [Nat.cast_mul, div_mul_eq_mul_div]
    rfl
  have percent_eq := toRat_percentLeft isShare
  rw [value_eq, rest_value, rounded_of_roundBits? left_eq, percent_value,
    rounded_of_roundBits? rest_eq] at percent_eq
  have rounded_eq := (percentLeft (ofInt n / ofInt (200 : Nat))).cast_roundToInt
  rw [percent_eq, roundAway_natCast_div (pow2_pos e'')] at rounded_eq
  exact_mod_cast rounded_eq

/-- The two-hundredths of a whole at which half a percent is lost. -/
def lostHalves : List Nat :=
  [85, 87, 89, 91, 93, 109, 111, 135, 137, 155, 157, 159, 161, 179, 181, 183, 185, 187]

/-- Halves of a percent are rounded up, except for those that are lost. -/
theorem percentLeft?_half :
  ∀ j < 100, percentLeft? (2 * j + 1) = some (if 2 * j + 1 ∈ lostHalves then 99 - j else 100 - j)
  := by
  decide +kernel

end Tariff.Binary64
