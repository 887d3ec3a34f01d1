import Mathlib.Data.Nat.Find
import Tariff.Proofs.Decimal.ScaledNumbers

/-!
# Results of decimal arithmetic

A product, a sum or a difference of decimals is the exact one, rounded once: it keeps as many places as
a decimal can hold, and there is none if its integer part is too large.  This holds for operands of
any signs and scales, narrow or not.  A number that a decimal can hold is kept as it is, so that no
digit is lost by the places that the operands have together.  Rounding keeps the order of numbers,
although the larger of two may keep fewer places, and so never crosses a number that a decimal can
hold.
-/

namespace Tariff.Decimal

variable {a b : Decimal} {x y : ℚ} {negative : Bool} {n scale places : Nat}

/-! ### Units of the last place -/

/-- The size of a number in units of the last of some places, ties to the even one. -/
def evenUnits (places : Nat) (x : ℚ) : Nat :=
  roundDiv .toEven (x.num.natAbs * pow10 places) x.den

/-- The larger number has more units. -/
theorem evenUnits_mono (places : Nat) (le : |x| ≤ |y|) :
  evenUnits places x ≤ evenUnits places y
  := by
  have pos : (0 : ℚ) < x.den := Nat.cast_pos.mpr x.den_pos
  have pos' : (0 : ℚ) < y.den := Nat.cast_pos.mpr y.den_pos
  rw [abs_eq_div, abs_eq_div, div_le_div_iff₀ pos pos'] at le
  have le_nat : x.num.natAbs * y.den ≤ y.num.natAbs * x.den := by exact_mod_cast le
  apply roundDiv_mono _ x.den_pos y.den_pos
  rw [Nat.mul_right_comm, Nat.mul_right_comm y.num.natAbs]
  exact Nat.mul_le_mul_right _ le_nat

/-- The units of a quotient by a power of ten. -/
theorem evenUnits_eq (places : Nat) (abs_eq : |x| = n / pow10 scale) :
  evenUnits places x = roundDiv .toEven (n * pow10 places) (pow10 scale)
  := by
  have pos : (0 : ℚ) < x.den := Nat.cast_pos.mpr x.den_pos
  have pos' : (0 : ℚ) < pow10 scale := Nat.cast_pos.mpr (pow10_pos scale)
  rw [abs_eq_div, div_eq_div_iff pos.ne' pos'.ne'] at abs_eq
  have same : x.num.natAbs * pow10 scale = n * x.den := by exact_mod_cast abs_eq
  rw [evenUnits, ← roundDiv_mul_mul _ _ x.den (pow10_pos scale), Nat.mul_right_comm, same,
    Nat.mul_right_comm, Nat.mul_comm x.den, roundDiv_mul_mul _ _ _ x.den_pos]

/-- With fewer places than a quotient is written with, places are dropped. -/
theorem evenUnits_of_le (abs_eq : |x| = n / pow10 scale) (le : places ≤ scale) :
  evenUnits places x = roundDiv .toEven n (pow10 (scale - places))
  := by
  have power_eq : pow10 scale = pow10 (scale - places) * pow10 places := by
    rw [← pow10_add, Nat.sub_add_cancel le]
  rw [evenUnits_eq places abs_eq, power_eq, roundDiv_mul_mul _ _ _ (pow10_pos places)]

/-- With more places than a quotient is written with, the units are exact. -/
theorem evenUnits_of_ge (abs_eq : |x| = n / pow10 scale) (le : scale ≤ places) :
  evenUnits places x = n * pow10 (places - scale)
  := by
  have power_eq : pow10 places = pow10 (places - scale) * pow10 scale := by
    rw [← pow10_add, Nat.sub_add_cancel le]
  rw [evenUnits_eq places abs_eq, power_eq, ← Nat.mul_assoc, roundDiv_mul _ (pow10_pos scale)]

/-- With more places a number has more units. -/
theorem evenUnits_le_evenUnits {places' : Nat} (le : places ≤ places') (x : ℚ) :
  evenUnits places x ≤ evenUnits places' x
  := by
  apply roundDiv_mono_left
  exact Nat.mul_le_mul_left _ (pow10_le le)

/-- What reaches `2 ^ 96` units with one more place reaches them with a zero behind its units. -/
theorem le_ten_mul_evenUnits (reached : pow2 96 ≤ evenUnits (places + 1) x) :
  pow2 96 ≤ 10 * evenUnits places x
  := by
  have dividend_eq : x.num.natAbs * pow10 (places + 1) = 10 * (x.num.natAbs * pow10 places) := by
    rw [pow10_succ, Nat.mul_left_comm]
  rw [evenUnits, dividend_eq] at reached
  rw [evenUnits]
  have den_pos : 0 < x.den := x.den_pos
  generalize x.num.natAbs * pow10 places = m at *
  obtain ⟨near, -⟩ := roundDiv_near .toEven den_pos (10 * m)
  obtain ⟨-, near'⟩ := roundDiv_near .toEven den_pos m
  generalize roundDiv .toEven (10 * m) x.den = fine at *
  generalize roundDiv .toEven m x.den = coarse at *
  -- The rounded numbers differ by five and a half of the smaller units.
  have chain : 2 * fine * x.den ≤ (20 * coarse + 11) * x.den := by
    rw [Nat.add_mul, Nat.mul_assoc, Nat.mul_assoc]
    omega
  have le := Nat.le_of_mul_le_mul_right chain den_pos
  have power_eq : pow2 96 = 79228162514264337593543950336 := rfl
  omega

/-! ### What is kept -/

/-- The multiple of `10 ^ -places` nearest to a number, and of two the even one. -/
def roundEven (places : Nat) (x : ℚ) : ℚ :=
  scaled (x < 0) (evenUnits places x) places

/-- Most places of a number, up to 28, with which its units have 96 bits. -/
def keptPlaces (x : ℚ) : Nat :=
  Nat.findGreatest (fun places => evenUnits places x < pow2 96) 28

/-- What a decimal keeps of a number: as many places as it can hold, unless the integer part is too
large. -/
def kept? (x : ℚ) : Option ℚ :=
  if evenUnits 0 x < pow2 96 then some (roundEven (keptPlaces x) x) else none

/-- The places that are kept are those with which the units have 96 bits. -/
theorem le_keptPlaces_iff (fits : evenUnits 0 x < pow2 96) :
  places ≤ keptPlaces x ↔ evenUnits places x < pow2 96 ∧ places ≤ 28
  := by
  constructor
  · intro le
    have kept_fits : evenUnits (keptPlaces x) x < pow2 96 :=
      Nat.findGreatest_spec (P := fun places => evenUnits places x < pow2 96) (Nat.zero_le _) fits
    exact ⟨(evenUnits_le_evenUnits le x).trans_lt kept_fits, le.trans (Nat.findGreatest_le 28)⟩
  · rintro ⟨lt, le⟩
    exact Nat.le_findGreatest le lt

/-- A number with a sign is rounded by rounding its size. -/
theorem roundEven_scaled (places : Nat) (negative : Bool) (n scale : Nat) :
  roundEven places (scaled negative n scale) =
    scaled negative (evenUnits places (scaled negative n scale)) places
  := by
  apply scaled_congr
  intro units_ne
  have n_ne : n ≠ 0 := by
    rintro rfl
    apply units_ne
    rw [evenUnits_eq places (abs_scaled negative 0 scale), Nat.zero_mul]
    simpa using roundDiv_mul .toEven (pow10_pos scale) 0
  have size_pos : (0 : ℚ) < n / pow10 scale := by
    have := pow10_pos scale
    positivity
  cases negative with
  | true => simpa [scaled, neg_div] using size_pos
  | false => simpa [scaled] using size_pos.le

/-- A number that is written with no more places is not changed. -/
theorem roundEven_of_le (negative : Bool) (n : Nat) (le : scale ≤ places) :
  roundEven places (scaled negative n scale) = scaled negative n scale
  := by
  rw [roundEven_scaled, evenUnits_of_ge (abs_scaled negative n scale) le]
  apply scaled_eq_of_mul_eq
  rw [Nat.mul_assoc, ← pow10_add, Nat.sub_add_cancel le]

/-- Opposite numbers have the same units. -/
theorem evenUnits_neg (places : Nat) (x : ℚ) :
  evenUnits places (-x) = evenUnits places x
  := le_antisymm (evenUnits_mono _ (abs_neg x).le) (evenUnits_mono _ (abs_neg x).ge)

/-- Opposite numbers are rounded to opposite numbers. -/
theorem roundEven_neg (places : Nat) (x : ℚ) :
  roundEven places (-x) = -roundEven places x
  := by
  rw [roundEven, roundEven, evenUnits_neg]
  rcases lt_trichotomy x 0 with negative | rfl | positive
  · simp [scaled, negative, negative.not_gt, neg_div]
  · have none : evenUnits places 0 = 0 := by
      simpa [scaled] using evenUnits_of_ge (abs_scaled false 0 0) (Nat.zero_le places)
    simp [scaled, none]
  · simp [scaled, positive, positive.not_gt, neg_div]

/-- What is kept of opposite numbers is opposite. -/
theorem kept?_neg (x : ℚ) :
  kept? (-x) = (kept? x).map (- ·)
  := by
  have places_eq : keptPlaces (-x) = keptPlaces x := by
    simp only [keptPlaces, evenUnits_neg]
  rw [kept?, kept?, evenUnits_neg, places_eq, roundEven_neg]
  split <;> rfl

/-- A number is kept in part exactly if it is less than `2 ^ 96 - 1 / 2` in size. -/
theorem isSome_kept?_iff :
  (kept? x).isSome = true ↔ |x| < 2 ^ 96 - 1 / 2
  := by
  have den_pos : (0 : ℚ) < x.den := Nat.cast_pos.mpr x.den_pos
  have one : pow10 0 = 1 := rfl
  have power_eq : (2 : ℚ) ^ 96 - 1 / 2 = ((2 * pow2 96 - 1 : Nat) : ℚ) / 2 := by
    norm_num [pow2]
  have fits_iff : evenUnits 0 x < pow2 96 ↔ |x| < 2 ^ 96 - 1 / 2 := by
    rw [evenUnits, one, Nat.mul_one, roundDiv_toEven_lt_iff x.den_pos (by decide) (by decide),
      abs_eq_div, power_eq, div_lt_div_iff₀ den_pos two_pos, mul_comm (x.num.natAbs : ℚ)]
    norm_cast
  rw [← fits_iff, kept?]
  split
  case isTrue fits => simp [fits]
  case isFalse too_large => simp [too_large]

/-! ### Results -/

/-- A number is given as many places as are kept and tried. -/
theorem map_fitFrom? (le : places ≤ scale) :
  (fitFrom? negative n scale places).map toRat =
    if evenUnits 0 (scaled negative n scale) < pow2 96 then
      some (roundEven (min places (keptPlaces (scaled negative n scale))) (scaled negative n scale))
    else none
  := by
  generalize x_eq : scaled negative n scale = x
  have units_eq {p : Nat} (le : p ≤ scale) :
      roundDiv .toEven n (pow10 (scale - p)) = evenUnits p x := by
    rw [← x_eq, evenUnits_of_le (abs_scaled negative n scale) le]
  induction places with
  | zero =>
    have first := units_eq (Nat.zero_le scale)
    rw [Nat.sub_zero] at first
    rw [fitFrom?, Nat.zero_min, ← x_eq, roundEven_scaled, x_eq, ← first]
    split
    case isTrue => rw [Option.map_some, toRat_eq_scaled]
    case isFalse => rfl
  | succ places ih =>
    rw [fitFrom?]
    split
    case isTrue fits =>
      rw [units_eq le] at fits
      have first_fits := (evenUnits_le_evenUnits (Nat.zero_le (places + 1)) x).trans_lt fits.1
      rw [if_pos first_fits, Nat.min_eq_left ((le_keptPlaces_iff first_fits).mpr fits), ← x_eq,
        roundEven_scaled, x_eq, Option.map_some, toRat_eq_scaled, ← units_eq le]
    case isFalse too_large =>
      rw [units_eq le] at too_large
      rw [ih (Nat.le_of_succ_le le)]
      apply if_ctx_congr Iff.rfl _ fun _ => rfl
      intro first_fits
      have few : ¬ places + 1 ≤ keptPlaces x := mt (le_keptPlaces_iff first_fits).mp too_large
      rw [Nat.min_eq_right (by omega), Nat.min_eq_right (by omega)]

/-- A result is what a decimal keeps of it. -/
theorem map_fit? (negative : Bool) (n scale : Nat) :
  (fit? negative n scale).map toRat = kept? (scaled negative n scale)
  := by
  rw [fit?, map_fitFrom? (Nat.le_refl scale), kept?]
  rcases Nat.le_total (keptPlaces (scaled negative n scale)) scale with le | le
  · rw [Nat.min_eq_right le]
  · -- All places are kept, and more would be zeros.
    rw [Nat.min_eq_left le, roundEven_of_le negative n (Nat.le_refl scale),
      roundEven_of_le negative n le]

/-- A number that a decimal can hold is kept. -/
theorem kept?_of_isValue (value : IsValue x) :
  kept? x = some x
  := by
  obtain ⟨d, rfl⟩ := value
  rw [toRat_eq_scaled]
  have units_eq : evenUnits d.scale (scaled d.negative d.coefficient d.scale) = d.coefficient := by
    rw [evenUnits_of_ge (abs_scaled _ _ _) (Nat.le_refl _), Nat.sub_self]
    exact Nat.mul_one _
  have held : evenUnits d.scale (scaled d.negative d.coefficient d.scale) < pow2 96 :=
    units_eq.trans_lt d.coefficient_lt
  have fits := (evenUnits_le_evenUnits (Nat.zero_le d.scale) _).trans_lt held
  rw [kept?, if_pos fits,
    roundEven_of_le _ _ ((le_keptPlaces_iff fits).mpr ⟨held, d.scale_le⟩)]

/-- A product of narrow decimals with more than 47 places is next to nothing. -/
theorem kept?_of_tiny (lt : n < pow2 64) (scale_gt : 47 < scale) :
  kept? (scaled negative n scale) = some 0
  := by
  have units_eq {places : Nat} (le : places ≤ 28) :
      evenUnits places (scaled negative n scale) = 0 := by
    have power_le : pow10 20 ≤ pow10 (scale - places) := pow10_le (by omega)
    have room : 2 * pow2 64 < pow10 20 := by decide
    have quotient_eq : n / pow10 (scale - places) = 0 := Nat.div_eq_of_lt (by omega)
    have rest_eq : n % pow10 (scale - places) = n := Nat.mod_eq_of_lt (by omega)
    rw [evenUnits_of_le (abs_scaled negative n scale) (by omega), roundDiv, quotient_eq, rest_eq]
    exact if_pos (by omega)
  have few : keptPlaces (scaled negative n scale) ≤ 28 := Nat.findGreatest_le 28
  have no_units := units_eq (Nat.zero_le 28)
  rw [kept?, if_pos (no_units.trans_lt (pow2_pos 96)), roundEven_scaled, units_eq few]
  simp [scaled]

/-- A product is what a decimal keeps of the exact product. -/
theorem map_mul? (a b : Decimal) :
  (a.mul? b).map toRat = kept? (a.toRat * b.toRat)
  := by
  have product_eq : a.toRat * b.toRat =
      scaled (a.negative != b.negative) (a.coefficient * b.coefficient) (a.scale + b.scale) := by
    rw [toRat_eq_scaled, toRat_eq_scaled, scaled_mul_scaled]
  unfold mul?
  split
  case isTrue factor_zero =>
    have product_zero : a.toRat * b.toRat = zero.toRat := by
      rcases Bool.or_eq_true_iff.mp factor_zero with zero_a | zero_b
      · rw [toRat_of_isZero zero_a, zero_mul, toRat_zero]
      · rw [toRat_of_isZero zero_b, mul_zero, toRat_zero]
    rw [product_zero, kept?_of_isValue ⟨zero, rfl⟩, Option.map_some]
  case isFalse =>
    rw [product_eq]
    split
    case isTrue narrow =>
      obtain ⟨narrow_a, narrow_b⟩ := Bool.and_eq_true_iff.mp narrow
      unfold mulNarrow?
      split
      case isTrue many =>
        have lt : a.coefficient * b.coefficient < pow2 32 * pow2 32 :=
          Nat.mul_lt_mul_of_lt_of_lt (of_decide_eq_true narrow_a) (of_decide_eq_true narrow_b)
        rw [← pow2_add] at lt
        rw [kept?_of_tiny lt many, Option.map_some, toRat_zero]
      case isFalse =>
        rw [← map_fit?, Option.map_map]
        congr 1
        funext d
        exact toRat_unsignZero d
    case isFalse => exact map_fit? _ _ _

/-- A sum is what a decimal keeps of the exact sum. -/
theorem map_add? (a b : Decimal) :
  (a.add? b).map toRat = kept? (a.toRat + b.toRat)
  := by
  unfold add?
  split
  case isTrue zero =>
    rw [toRat_of_isZero zero, zero_add, kept?_of_isValue ⟨b, rfl⟩, Option.map_some]
  case isFalse =>
    split
    case isTrue zero =>
      rw [toRat_of_isZero zero, add_zero, kept?_of_isValue ⟨a, rfl⟩, Option.map_some]
    case isFalse =>
      dsimp only
      rw [map_fit?]
      congr 1
      have a_le : a.scale ≤ Nat.max a.scale b.scale := Nat.le_max_left _ _
      have b_le : b.scale ≤ Nat.max a.scale b.scale := Nat.le_max_right _ _
      rw [← widened_div a a_le, ← widened_div b b_le, ← add_div, ← Int.cast_add]
      generalize a.widened _ + b.widened _ = sum
      rw [scaled]
      congr 1
      rw [Nat.cast_natAbs]
      rcases Int.lt_or_le sum 0 with negative | nonneg
      · simp [negative, abs_of_neg negative]
      · simp [not_lt.mpr nonneg, abs_of_nonneg nonneg]

/-- A difference is what a decimal keeps of the exact difference. -/
theorem map_sub? (a b : Decimal) :
  (a.sub? b).map toRat = kept? (a.toRat - b.toRat)
  := by
  unfold sub?
  split
  case isTrue zero =>
    rw [toRat_of_isZero zero, sub_zero, kept?_of_isValue ⟨a, rfl⟩]
    split
    case isTrue zero_a => rw [Option.map_some, toRat_of_isZero zero, toRat_of_isZero zero_a]
    case isFalse => rfl
  case isFalse => rw [map_add?, toRat_neg, sub_eq_add_neg]

/-! ### Exact results -/

/-- A product that a decimal can hold is exact. -/
theorem mul?_exact (value : IsValue (a.toRat * b.toRat)) :
  ∃ c, a.mul? b = some c ∧ c.toRat = a.toRat * b.toRat
  := Option.map_eq_some_iff.mp ((map_mul? a b).trans (kept?_of_isValue value))

/-- A sum that a decimal can hold is exact. -/
theorem add?_exact (value : IsValue (a.toRat + b.toRat)) :
  ∃ c, a.add? b = some c ∧ c.toRat = a.toRat + b.toRat
  := Option.map_eq_some_iff.mp ((map_add? a b).trans (kept?_of_isValue value))

/-! ### The order of results -/

/-- What takes the place of a number: what a decimal keeps of it, or else the largest decimal. -/
def kept (x : ℚ) : ℚ :=
  (kept? x).getD max.toRat

/-- A number that a decimal can hold takes its own place. -/
theorem kept_of_isValue (value : IsValue x) :
  kept x = x
  := by
  rw [kept, kept?_of_isValue value, Option.getD_some]

/-- A number that is not negative is rounded to its units. -/
theorem roundEven_of_nonneg (places : Nat) (nonneg : 0 ≤ x) :
  roundEven places x = evenUnits places x / pow10 places
  := by
  rw [roundEven, decide_eq_false (not_lt.mpr nonneg)]
  rfl

/-- What is kept does not exceed the largest decimal. -/
theorem kept_le_max (nonneg : 0 ≤ x) :
  kept x ≤ max.toRat
  := by
  rw [kept, kept?]
  split
  case isTrue fits =>
    have units_le : evenUnits (keptPlaces x) x ≤ pow2 96 - 1 :=
      Nat.le_sub_one_of_lt ((le_keptPlaces_iff fits).mp (Nat.le_refl _)).1
    have one_le : (1 : ℚ) ≤ pow10 (keptPlaces x) := Nat.one_le_cast.mpr (pow10_pos _)
    have max_eq : max.toRat = (pow2 96 - 1 : Nat) := rfl
    rw [Option.getD_some, roundEven_of_nonneg _ nonneg, max_eq]
    apply (div_le_self (Nat.cast_nonneg _) one_le).trans
    exact Nat.cast_le.mpr units_le
  case isFalse => exact le_refl _

/-- Of two numbers the larger one keeps the larger value, and with no more places. -/
theorem kept_mono (nonneg : 0 ≤ x) (le : x ≤ y) :
  kept x ≤ kept y
  := by
  have nonneg' : 0 ≤ y := nonneg.trans le
  have abs_le : |x| ≤ |y| := by rwa [abs_of_nonneg nonneg, abs_of_nonneg nonneg']
  by_cases fits' : evenUnits 0 y < pow2 96
  case neg =>
    have kept_eq : kept y = max.toRat := by rw [kept, kept?, if_neg fits', Option.getD_none]
    rw [kept_eq]
    exact kept_le_max nonneg
  case pos =>
    have fits : evenUnits 0 x < pow2 96 := (evenUnits_mono 0 abs_le).trans_lt fits'
    rw [kept, kept, kept?, kept?, if_pos fits, if_pos fits', Option.getD_some, Option.getD_some,
      roundEven_of_nonneg _ nonneg, roundEven_of_nonneg _ nonneg']
    obtain ⟨held, few⟩ := (le_keptPlaces_iff fits).mp (Nat.le_refl _)
    obtain ⟨held', few'⟩ := (le_keptPlaces_iff fits').mp (Nat.le_refl _)
    have fewer : keptPlaces y ≤ keptPlaces x :=
      (le_keptPlaces_iff fits).mpr ⟨(evenUnits_mono _ abs_le).trans_lt held', few'⟩
    rcases Nat.eq_or_lt_of_le fewer with same | less
    · rw [same]
      have := evenUnits_mono (keptPlaces x) abs_le
      gcongr
    · -- One more place of the larger number needs more than 96 bits, those of the smaller one do not.
      have too_large : ¬ keptPlaces y + 1 ≤ keptPlaces y := Nat.not_succ_le_self _
      rw [le_keptPlaces_iff fits'] at too_large
      have reached : pow2 96 ≤ 10 * evenUnits (keptPlaces y) y := by
        apply le_ten_mul_evenUnits
        omega
      have pos : (0 : ℚ) < pow10 (keptPlaces x) := Nat.cast_pos.mpr (pow10_pos _)
      have pos' : (0 : ℚ) < pow10 (keptPlaces y) := Nat.cast_pos.mpr (pow10_pos _)
      rw [div_le_div_iff₀ pos pos']
      have chain : evenUnits (keptPlaces x) x * pow10 (keptPlaces y) ≤
          evenUnits (keptPlaces y) y * pow10 (keptPlaces x) := by
        calc evenUnits (keptPlaces x) x * pow10 (keptPlaces y)
            ≤ 10 * evenUnits (keptPlaces y) y * pow10 (keptPlaces y) :=
              Nat.mul_le_mul_right _ (held.le.trans reached)
          _ = evenUnits (keptPlaces y) y * pow10 (keptPlaces y + 1) := by
            rw [pow10_succ]
            ring
          _ ≤ evenUnits (keptPlaces y) y * pow10 (keptPlaces x) :=
            Nat.mul_le_mul_left _ (pow10_le less)
      exact_mod_cast chain

/-- A number that a decimal can hold is not exceeded by what takes the place of a smaller one. -/
theorem kept_le (nonneg : 0 ≤ x) (le : x ≤ y) (value : IsValue y) :
  kept x ≤ y
  := (kept_mono nonneg le).trans_eq (kept_of_isValue value)

/-- A number that a decimal can hold is reached by what takes the place of a larger one. -/
theorem le_kept (nonneg : 0 ≤ x) (le : x ≤ y) (value : IsValue x) :
  x ≤ kept y
  := (kept_of_isValue value).ge.trans (kept_mono nonneg le)

/-- What takes the place of a number that is not negative is not negative. -/
theorem kept_nonneg (nonneg : 0 ≤ x) :
  0 ≤ kept x
  := le_kept (le_refl 0) nonneg ⟨zero, toRat_zero⟩

/-- A number that is no larger in size than one that a decimal can hold is kept in part. -/
theorem exists_kept? (abs_le : |x| ≤ |y|) (value : IsValue y) :
  ∃ v, kept? x = some v
  := by
  have fits' : evenUnits 0 y < pow2 96 := by
    by_contra too_large
    have kept_eq := kept?_of_isValue value
    rw [kept?, if_neg too_large] at kept_eq
    cases kept_eq
  exact ⟨_, if_pos ((evenUnits_mono 0 abs_le).trans_lt fits')⟩

/-- What is kept of a number that is not positive is not positive. -/
theorem kept?_nonpos {v : ℚ} (nonpos : x ≤ 0) (kept_eq : kept? x = some v) :
  v ≤ 0
  := by
  rcases eq_or_lt_of_le nonpos with rfl | negative
  · rw [kept?_of_isValue ⟨zero, toRat_zero⟩] at kept_eq
    exact (Option.some.inj kept_eq).ge
  · have size_nonneg : (0 : ℚ) ≤ evenUnits (keptPlaces x) x / pow10 (keptPlaces x) := by positivity
    rw [kept?] at kept_eq
    split at kept_eq
    case isTrue =>
      rw [← Option.some.inj kept_eq, roundEven, decide_eq_true negative, scaled, if_pos rfl, neg_div]
      exact neg_nonpos.mpr size_nonneg
    case isFalse => cases kept_eq

/-- Decimals that are not negative have a difference, which does not exceed the first one and has the
sign that the exact difference has. -/
theorem exists_sub? (a_nonneg : 0 ≤ a.toRat) (b_nonneg : 0 ≤ b.toRat) :
  ∃ c, a.sub? b = some c ∧ (b.toRat ≤ a.toRat → 0 ≤ c.toRat ∧ c.toRat ≤ a.toRat) ∧
    (a.toRat ≤ b.toRat → c.toRat ≤ 0)
  := by
  have a_value : IsValue a.toRat := ⟨a, rfl⟩
  have b_value : IsValue b.toRat := ⟨b, rfl⟩
  -- The difference is no larger than the larger of the two, so that a decimal keeps some of it.
  obtain ⟨v, kept_eq⟩ : ∃ v, kept? (a.toRat - b.toRat) = some v := by
    rcases le_total b.toRat a.toRat with le | le
    · apply exists_kept? _ a_value
      rw [abs_of_nonneg (sub_nonneg.mpr le), abs_of_nonneg a_nonneg]
      exact sub_le_self _ b_nonneg
    · apply exists_kept? _ b_value
      rw [abs_of_nonpos (sub_nonpos.mpr le), abs_of_nonneg b_nonneg, neg_sub]
      exact sub_le_self _ a_nonneg
  obtain ⟨c, sub_eq, rfl⟩ := Option.map_eq_some_iff.mp ((map_sub? a b).trans kept_eq)
  refine ⟨c, sub_eq, fun le => ?_, fun le => kept?_nonpos (sub_nonpos.mpr le) kept_eq⟩
  have place_eq : c.toRat = kept (a.toRat - b.toRat) := by rw [kept, kept_eq, Option.getD_some]
  rw [place_eq]
  exact ⟨kept_nonneg (sub_nonneg.mpr le),
    kept_le (sub_nonneg.mpr le) (sub_le_self _ b_nonneg) a_value⟩

end Tariff.Decimal
