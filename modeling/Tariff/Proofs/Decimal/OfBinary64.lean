import Mathlib.Algebra.Order.Field.Basic
import Mathlib.Tactic.FieldSimp
import Mathlib.Tactic.Linarith
import Mathlib.Tactic.Positivity
import Mathlib.Tactic.Ring
import Tariff.Decimal.OfBinary64

/-!
# How near the decimal of a binary64 number is

A finite number has a decimal exactly if its magnitude is below `2 ^ 96`.  Halving truncates and
the last places are rounded one by one, so that the decimal may differ from the number.  It never
falls below a number of up to 18 places that the number has reached, and exceeds the number by less
than one unit of the 28th place.
-/

namespace Tariff

/-- The exact magnitude of a finite number. -/
def Binary64.magnitude (x : Binary64) : ℚ :=
  x.units / pow2 1074

/-- The exact magnitude of a decimal. -/
def Decimal.magnitude (d : Decimal) : ℚ :=
  d.coefficient / pow10 d.scale

/-- A power of two as a rational is positive. -/
theorem pow2_pos_rat (n : Nat) :
  (0 : ℚ) < pow2 n
  := Nat.cast_pos.mpr (pow2_pos n)

/-- A power of ten as a rational is positive. -/
theorem pow10_pos_rat (n : Nat) :
  (0 : ℚ) < pow10 n
  := Nat.cast_pos.mpr (pow10_pos n)

/-- The magnitude of a number is not negative. -/
theorem Binary64.magnitude_nonneg (x : Binary64) :
  0 ≤ x.magnitude
  := div_nonneg (Nat.cast_nonneg _) (Nat.cast_nonneg _)

/-- The magnitude of a decimal is not negative. -/
theorem Decimal.magnitude_nonneg (d : Decimal) :
  0 ≤ d.magnitude
  := div_nonneg (Nat.cast_nonneg _) (Nat.cast_nonneg _)

namespace Decimal

/-! ### Halving -/

/-- Halving keeps to 96 bits. -/
theorem halve_lt {coefficient : Nat} (places halvings : Nat) (h : coefficient < pow2 96) :
  (halve coefficient places halvings).1 < pow2 96
  := by
  induction halvings generalizing coefficient places with
  | zero => apply h
  | succ halvings ih =>
    rw [halve]
    split
    case isTrue hodd => apply ih _ hodd.2
    case isFalse =>
      apply ih
      omega

/-- A coefficient is halved with a remainder only after it has gained many places. -/
theorem le_of_narrow {coefficient places : Nat} (narrow : coefficient < pow2 53 * 5 ^ places)
    (wide : pow2 96 ≤ 5 * coefficient) :
  18 ≤ places
  := by
  by_contra few
  have power_le : 5 ^ places ≤ 5 ^ 17 := Nat.pow_le_pow_right (by decide) (by omega)
  have le := Nat.mul_le_mul_left (pow2 53) power_le
  have room : 5 * (pow2 53 * 5 ^ 17) < pow2 96 := by decide
  omega

/-- Halving never falls below a number of a few places that was reached: where a remainder is
dropped, that number is even in units of the last place. -/
theorem le_halve {n k coefficient places halvings : Nat} (k_le : k ≤ 18)
    (narrow : coefficient < pow2 53 * 5 ^ places)
    (le : n * pow10 places * pow2 halvings ≤ coefficient * pow10 k) :
  n * pow10 (halve coefficient places halvings).2 ≤ (halve coefficient places halvings).1 * pow10 k
  := by
  induction halvings generalizing coefficient places with
  | zero => simpa [halve, pow2] using le
  | succ halvings ih =>
    rw [pow2_succ, Nat.mul_left_comm] at le
    rw [halve]
    split
    case isTrue =>
      apply ih
      · rw [Nat.pow_succ, ← Nat.mul_assoc]
        omega
      · rw [pow10_succ, Nat.mul_left_comm, Nat.mul_assoc, Nat.mul_assoc 5]
        omega
    case isFalse not_widened =>
      apply ih (by omega)
      by_cases even : coefficient % 2 = 0
      case pos =>
        have half_eq : coefficient * pow10 k = 2 * (coefficient / 2 * pow10 k) := by
          rw [← Nat.mul_assoc, Nat.mul_div_cancel' (Nat.dvd_of_mod_eq_zero even)]
        omega
      case neg =>
        have many := le_of_narrow narrow (by omega)
        have power_eq : pow10 places = pow10 (places - k) * pow10 k := by
          rw [← pow10_add, Nat.sub_add_cancel (k_le.trans many)]
        have product_eq : n * pow10 places * pow2 halvings =
            n * pow10 (places - k) * pow2 halvings * pow10 k := by
          rw [power_eq]
          ring
        rw [product_eq, ← Nat.mul_assoc, Nat.mul_le_mul_right_iff (pow10_pos k)] at le
        rw [product_eq]
        apply Nat.mul_le_mul_right
        omega

/-- Halving never exceeds the exact quotient. -/
theorem halve_le (coefficient places halvings : Nat) :
  (halve coefficient places halvings).1 * pow10 places * pow2 halvings
    ≤ coefficient * pow10 (halve coefficient places halvings).2
  := by
  induction halvings generalizing coefficient places with
  | zero => simp [halve, pow2]
  | succ halvings ih =>
    rw [halve, pow2_succ halvings, Nat.mul_left_comm]
    split
    case isTrue =>
      have h := ih (5 * coefficient) (places + 1)
      rw [pow10_succ, Nat.mul_left_comm, Nat.mul_assoc 10, Nat.mul_assoc 5] at h
      omega
    case isFalse =>
      have h := ih (coefficient / 2) places
      have hhalf : 2 * (coefficient / 2) ≤ coefficient := Nat.mul_div_le coefficient 2
      calc 2 * (_ * pow2 halvings)
          ≤ 2 * (coefficient / 2 * pow10 (halve (coefficient / 2) places halvings).2) :=
            Nat.mul_le_mul_left 2 h
        _ = 2 * (coefficient / 2) * pow10 (halve (coefficient / 2) places halvings).2 := by
            rw [Nat.mul_assoc]
        _ ≤ coefficient * pow10 (halve (coefficient / 2) places halvings).2 :=
            Nat.mul_le_mul_right _ hhalf

/-! ### Dropping places -/

/-- Dropping places keeps to 96 bits. -/
theorem dropPlaces_lt {coefficient : Nat} (excess : Nat) (h : coefficient < pow2 96) :
  (dropPlaces coefficient excess).1 < pow2 96
  := by
  induction excess generalizing coefficient with
  | zero => apply h
  | succ excess ih =>
    rw [dropPlaces]
    split
    case isTrue => apply pow2_pos 96
    case isFalse =>
      apply ih
      split <;> omega

/-- Dropping places never falls below a whole number that was reached, and a coefficient that
reached one does not vanish. -/
theorem le_dropPlaces {n coefficient excess : Nat} (hn : 0 < n)
    (h : n * pow10 excess ≤ coefficient) :
  n ≤ (dropPlaces coefficient excess).1 ∧ (dropPlaces coefficient excess).2 = false
  := by
  induction excess generalizing coefficient with
  | zero => simpa [dropPlaces, pow10] using h
  | succ excess ih =>
    rw [pow10_succ, Nat.mul_left_comm] at h
    have hpos : 0 < n * pow10 excess := Nat.mul_pos hn (pow10_pos excess)
    have hq : n * pow10 excess ≤ coefficient / 10 := by omega
    rw [dropPlaces, if_neg (by omega)]
    apply ih
    split <;> omega

/-- Dropping places one by one, each with a half rounded up, exceeds the exact quotient by at most
five ninths of a unit. -/
theorem dropPlaces_le (coefficient excess : Nat) :
  9 * (dropPlaces coefficient excess).1 * pow10 excess + 5 ≤ 9 * coefficient + 5 * pow10 excess
  := by
  induction excess generalizing coefficient with
  | zero => simp [dropPlaces, pow10]
  | succ excess ih =>
    have hpos := pow10_pos excess
    rw [dropPlaces, pow10_succ, Nat.mul_left_comm]
    split
    case isTrue => omega
    case isFalse =>
      generalize hc : (if 5 ≤ coefficient % 10 then coefficient / 10 + 1 else coefficient / 10) = c
      have hround : 10 * c ≤ coefficient + 5 := by
        rw [← hc]
        split <;> omega
      have h := ih c
      omega

/-! ### The decimal of a number -/

/-- The magnitude of a binary64 number is below `2 ^ 53` times its power of two. -/
theorem significandOfCode_lt (code : Nat) :
  Binary64.significandOfCode code < pow2 53
  := by
  have h52 : pow2 53 = pow2 52 + pow2 52 := by decide
  rw [Binary64.significandOfCode]
  split
  · omega
  · have := Nat.mod_lt code (pow2_pos 52)
    omega

/-- A coefficient of 96 bits always gives a decimal. -/
theorem ofPlaces?_isSome (negative : Bool) {coefficient : Nat} (places : Nat)
    (h : coefficient < pow2 96) :
  (ofPlaces? negative coefficient places).isSome = true
  := by
  have hlt := dropPlaces_lt (places - 28) h
  rw [ofPlaces?, dif_pos hlt]
  split <;> rfl

/-- The decimal of a coefficient and its places reaches every number of a few places that they
reach. -/
theorem le_of_ofPlaces? {negative : Bool} {n k coefficient places : Nat} {d : Decimal}
    (k_le : k ≤ 28) (of_places : ofPlaces? negative coefficient places = some d)
    (le : n * pow10 places ≤ coefficient * pow10 k) :
  n * pow10 d.scale ≤ d.coefficient * pow10 k
  := by
  unfold ofPlaces? at of_places
  dsimp only at of_places
  rcases Nat.eq_zero_or_pos n with rfl | n_pos
  · simp
  rcases Nat.le_total places 28 with few | many
  · have none_dropped : dropPlaces coefficient (places - 28) = (coefficient, false) := by
      rw [Nat.sub_eq_zero_of_le few, dropPlaces]
    rw [none_dropped] at of_places
    split at of_places
    · cases of_places
      dsimp only
      rwa [show Nat.min places 28 = places from Nat.min_eq_left few]
    · cases of_places
  · have scale_eq : pow10 (28 - k) * pow10 k = pow10 28 := by
      rw [← pow10_add, Nat.sub_add_cancel k_le]
    have places_eq : pow10 28 * pow10 (places - 28) = pow10 places := by
      rw [← pow10_add, Nat.add_sub_cancel' many]
    rw [← places_eq, ← scale_eq] at le
    have reached : n * pow10 (28 - k) * pow10 (places - 28) ≤ coefficient := by
      apply Nat.le_of_mul_le_mul_right _ (pow10_pos k)
      calc n * pow10 (28 - k) * pow10 (places - 28) * pow10 k
          = n * (pow10 (28 - k) * pow10 k * pow10 (places - 28)) := by ring
        _ ≤ coefficient * pow10 k := le
    obtain ⟨reach, kept⟩ := le_dropPlaces (Nat.mul_pos n_pos (pow10_pos _)) reached
    rw [kept] at of_places
    split at of_places
    · cases of_places
      dsimp only
      rw [show Nat.min places 28 = 28 from Nat.min_eq_right many, ← scale_eq, ← Nat.mul_assoc]
      exact Nat.mul_le_mul_right _ reach
    · cases of_places

/-- The decimal of a coefficient and its places exceeds their value by at most five ninths of a
unit of the 28th place. -/
theorem le_of_ofPlaces?_le {negative : Bool} {coefficient places : Nat} {d : Decimal}
    (h : ofPlaces? negative coefficient places = some d) :
  d.magnitude ≤ coefficient / pow10 places + 5 / (9 * pow10 28)
  := by
  have hp := pow10_pos_rat places
  have h28 := pow10_pos_rat 28
  have hdrop := dropPlaces_le coefficient (places - 28)
  rw [ofPlaces?] at h
  split at h
  case isFalse => cases h
  split at h
  case isTrue =>
    cases h
    simp only [magnitude, zero, Nat.cast_zero, zero_div]
    positivity
  case isFalse =>
    cases h
    simp only [magnitude]
    generalize (dropPlaces coefficient (places - 28)).1 = c at hdrop
    by_cases hplaces : places ≤ 28
    · have hmin : Nat.min places 28 = places := Nat.min_eq_left hplaces
      have hexcess : places - 28 = 0 := by omega
      have hone : pow10 0 = 1 := rfl
      rw [hexcess, hone] at hdrop
      have hc : (c : ℚ) ≤ coefficient := by
        have : c ≤ coefficient := by omega
        exact_mod_cast this
      rw [hmin]
      have := div_le_div_of_nonneg_right hc hp.le
      have : (0 : ℚ) ≤ 5 / (9 * pow10 28) := by positivity
      linarith
    · have hmin : Nat.min places 28 = 28 := Nat.min_eq_right (by omega)
      have hsum : pow10 places = pow10 28 * pow10 (places - 28) := by
        rw [← pow10_add]
        congr 1
        omega
      have he := pow10_pos_rat (places - 28)
      have hq : 9 * (c : ℚ) * pow10 (places - 28) + 5
          ≤ 9 * coefficient + 5 * pow10 (places - 28) := by
        exact_mod_cast hdrop
      rw [hmin, hsum]
      push_cast
      generalize (pow10 28 : ℚ) = t at h28 ⊢
      generalize (pow10 (places - 28) : ℚ) = e at he hq ⊢
      rw [div_add_div _ _ (by positivity) (by positivity), div_le_div_iff₀ h28 (by positivity)]
      have := mul_le_mul_of_nonneg_right hq (show 0 ≤ t * t by positivity)
      nlinarith [mul_pos h28 h28]

/-- The magnitude of a number whose significand is halved. -/
theorem magnitude_of_shift_lt {x : Binary64} (h : Binary64.shiftOfCode x.code < 1074) :
  x.magnitude
    = Binary64.significandOfCode x.code / pow2 (1074 - Binary64.shiftOfCode x.code)
  := by
  have hsum : pow2 1074
      = pow2 (Binary64.shiftOfCode x.code) * pow2 (1074 - Binary64.shiftOfCode x.code) := by
    rw [← pow2_add]
    congr 1
    omega
  have hs := pow2_pos_rat (Binary64.shiftOfCode x.code)
  have hr := pow2_pos_rat (1074 - Binary64.shiftOfCode x.code)
  rw [Binary64.magnitude, Binary64.units, Binary64.unitsOfCode, hsum]
  push_cast
  field_simp

/-- The magnitude of a number whose significand is an integer part. -/
theorem magnitude_of_le_shift {x : Binary64} (h : 1074 ≤ Binary64.shiftOfCode x.code) :
  x.magnitude
    = ((Binary64.significandOfCode x.code * pow2 (Binary64.shiftOfCode x.code - 1074) : Nat) : ℚ)
  := by
  have hsum : pow2 (Binary64.shiftOfCode x.code)
      = pow2 (Binary64.shiftOfCode x.code - 1074) * pow2 1074 := by
    rw [← pow2_add]
    congr 1
    omega
  have hr := pow2_pos_rat 1074
  rw [Binary64.magnitude, Binary64.units, Binary64.unitsOfCode, hsum, ← mul_assoc, Nat.cast_mul,
    mul_div_cancel_right₀ _ hr.ne']

/-- A number without significand is zero. -/
theorem magnitude_of_significandOfCode {x : Binary64}
    (zero : Binary64.significandOfCode x.code = 0) :
  x.magnitude = 0
  := by
  rw [Binary64.magnitude, Binary64.units, Binary64.unitsOfCode, zero, Nat.zero_mul, Nat.cast_zero,
    zero_div]

/-- A number has no decimal exactly if its magnitude is `2 ^ 96` or more. -/
theorem ofBinary64?_eq_none_iff (x : Binary64) :
  ofBinary64? x = none ↔ (pow2 96 : ℚ) ≤ x.magnitude
  := by
  have hsig := significandOfCode_lt x.code
  have h53 : pow2 53 ≤ pow2 96 := by decide
  rw [ofBinary64?]
  split
  case isTrue hzero =>
    have hm : x.magnitude = 0 := magnitude_of_significandOfCode hzero
    have := pow2_pos_rat 96
    simp only [reduceCtorEq, hm, false_iff, not_le]
    assumption
  case isFalse hpos =>
    split
    case isTrue hshift =>
      have hlt := halve_lt 0 (1074 - Binary64.shiftOfCode x.code) (hsig.trans_le h53)
      have hsome := ofPlaces?_isSome x.negative
        (halve (Binary64.significandOfCode x.code) 0 (1074 - Binary64.shiftOfCode x.code)).2 hlt
      have hbelow : x.magnitude < pow2 96 := by
        have hone : (1 : ℚ) ≤ pow2 (1074 - Binary64.shiftOfCode x.code) := by
          exact_mod_cast pow2_pos _
        have hcast : (Binary64.significandOfCode x.code : ℚ) < pow2 96 := by
          exact_mod_cast hsig.trans_le h53
        rw [magnitude_of_shift_lt hshift]
        apply lt_of_le_of_lt (div_le_self (Nat.cast_nonneg _) hone) hcast
      constructor
      · intro hnone
        rw [hnone] at hsome
        cases hsome
      · intro hle
        exact absurd hbelow (not_lt.mpr hle)
    case isFalse hshift =>
      rw [magnitude_of_le_shift (Nat.le_of_not_lt hshift), Nat.cast_le]
      dsimp only
      split
      case isTrue hfit => simpa using hfit
      case isFalse hfit => simpa using hfit

/-- The decimal of a number reaches every number of a few places that the number has reached. -/
theorem div_le_magnitude_of_ofBinary64? {x : Binary64} {d : Decimal} (h : ofBinary64? x = some d)
    {n k : Nat} (k_le : k ≤ 18) (le : (n : ℚ) / pow10 k ≤ x.magnitude) :
  (n : ℚ) / pow10 k ≤ d.magnitude
  := by
  suffices reach : n * pow10 d.scale ≤ d.coefficient * pow10 k by
    rw [magnitude, div_le_div_iff₀ (pow10_pos_rat k) (pow10_pos_rat _)]
    exact_mod_cast reach
  have one : pow10 0 = 1 := rfl
  rw [ofBinary64?] at h
  split at h
  case isTrue no_significand =>
    have n_eq : n = 0 := by
      rw [magnitude_of_significandOfCode no_significand, div_le_iff₀ (pow10_pos_rat k), zero_mul] at le
      exact_mod_cast le_antisymm le (Nat.cast_nonneg n)
    rw [n_eq, Nat.zero_mul]
    exact Nat.zero_le _
  case isFalse =>
    split at h
    case isTrue shift_lt =>
      apply le_of_ofPlaces? (k_le.trans (by decide)) h
      apply le_halve k_le
      · rw [Nat.pow_zero, Nat.mul_one]
        exact significandOfCode_lt x.code
      · rw [magnitude_of_shift_lt shift_lt, div_le_div_iff₀ (pow10_pos_rat k) (pow2_pos_rat _)] at le
        rw [one, Nat.mul_one]
        exact_mod_cast le
    case isFalse shift_ge =>
      rw [magnitude_of_le_shift (Nat.le_of_not_lt shift_ge), div_le_iff₀ (pow10_pos_rat k)] at le
      dsimp only at h
      split at h
      · cases h
        rw [one, Nat.mul_one]
        exact_mod_cast le
      · cases h

/-- The decimal of a number reaches every whole number that the number has reached. -/
theorem le_magnitude_of_ofBinary64? {x : Binary64} {d : Decimal} (h : ofBinary64? x = some d)
    {n : Nat} (hle : (n : ℚ) ≤ x.magnitude) :
  (n : ℚ) ≤ d.magnitude
  := by
  have one : (pow10 0 : ℚ) = 1 := Nat.cast_one
  have reach := div_le_magnitude_of_ofBinary64? h (n := n) (Nat.zero_le 18) (by rwa [one, div_one])
  rwa [one, div_one] at reach

/-- The decimal of a number exceeds it by at most five ninths of a unit of the 28th place. -/
theorem magnitude_le_of_ofBinary64? {x : Binary64} {d : Decimal} (h : ofBinary64? x = some d) :
  d.magnitude ≤ x.magnitude + 5 / (9 * pow10 28)
  := by
  have h28 := pow10_pos_rat 28
  have hslack : (0 : ℚ) ≤ 5 / (9 * pow10 28) := by positivity
  have hnonneg := x.magnitude_nonneg
  rw [ofBinary64?] at h
  split at h
  case isTrue =>
    cases h
    simp only [magnitude, zero, Nat.cast_zero, zero_div]
    linarith
  case isFalse =>
    split at h
    case isTrue hshift =>
      apply (le_of_ofPlaces?_le h).trans
      rw [magnitude_of_shift_lt hshift]
      apply add_le_add_left
      have hhalve := halve_le (Binary64.significandOfCode x.code) 0
        (1074 - Binary64.shiftOfCode x.code)
      have hone : pow10 0 = 1 := rfl
      rw [hone, Nat.mul_one] at hhalve
      rw [div_le_div_iff₀ (pow10_pos_rat _) (pow2_pos_rat _)]
      exact_mod_cast hhalve
    case isFalse hshift =>
      dsimp only at h
      split at h
      · cases h
        simp only [magnitude, magnitude_of_le_shift (Nat.le_of_not_lt hshift)]
        simp only [pow10, Nat.pow_eq, pow_zero, Nat.cast_one, div_one]
        linarith
      · cases h

end Decimal

end Tariff
