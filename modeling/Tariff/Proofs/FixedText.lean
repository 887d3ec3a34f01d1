import Tariff.FixedText
import Tariff.Proofs.Decimal.OfBinary64

/-!
# Which numbers have a fixed-point text

A text of up to 28 places is made from a decimal, and the text of a decimal is limited.  A number
that a decimal holds has no text exactly if its integer part has too many digits beside the places
that are asked for.  From the length of a text the condition is carried to the coefficient of the
rounded decimal, and from there to the number, which is possible since binary64 numbers are not
dense: one below a power of ten is so far below it that no rounding reaches the power.
-/

namespace Tariff

/-! ### The length of a text -/

/-- The length of a fixed-point text: the digits of the integer part, the point and the places. -/
theorem length_fixedPoint (coefficient : Nat) {places : Nat} (h : 0 < places) :
  (Text.fixedPoint coefficient places).length
    = (Text.numeral (coefficient / pow10 places)).length + (places + 1)
  := by
  rw [Text.fixedPoint, if_neg h.ne', List.length_append, List.length_cons,
    Text.length_padLeft_numeral coefficient h]

/-- A text with places keeps to the limit exactly if its coefficient has at most 31 digits. -/
theorem length_fixedPoint_le_iff (coefficient : Nat) {places : Nat} (h : 0 < places)
    (h28 : places ≤ 28) :
  (Text.fixedPoint coefficient places).length ≤ textLimit ↔ coefficient < pow10 31
  := by
  have hsum : pow10 31 = pow10 (31 - places) * pow10 places := by
    rw [← pow10_add]
    congr 1
    omega
  have hdigits : (Text.numeral (coefficient / pow10 places)).length ≤ 31 - places
      ↔ coefficient / pow10 places < pow10 (31 - places) :=
    Nat.length_toDigits_le_iff (by decide) (by omega)
  rw [hsum, ← Nat.div_lt_iff_lt_mul (pow10_pos places), ← hdigits, length_fixedPoint _ h,
    textLimit]
  omega

/-- A text without places keeps to the limit if its coefficient has at most 32 digits. -/
theorem length_fixedPoint_zero {coefficient : Nat} (h : coefficient < pow10 32) :
  (Text.fixedPoint coefficient 0).length ≤ textLimit
  := by
  have hone : pow10 0 = 1 := rfl
  rw [Text.fixedPoint, hone, Nat.div_one, if_pos rfl, List.append_nil]
  apply (Nat.length_toDigits_le_iff (by decide) (by decide)).mpr h

/-! ### The coefficient of a rounded decimal -/

namespace Decimal

/-- The coefficient of the decimal rounded to `places` places, filled up to as many. -/
def coefficientAt (d : Decimal) (places : Nat) : Nat :=
  (d.roundPlaces places).coefficient * pow10 (places - (d.roundPlaces places).scale)

/-- A rounded decimal has no text exactly if that of its coefficient is too long. -/
theorem filled?_roundPlaces_eq_none_iff (d : Decimal) (places : Nat) :
  (d.roundPlaces places).filled? places = none
    ↔ textLimit < (Text.fixedPoint (d.coefficientAt places) places).length
  := by
  rw [filled?, coefficientAt]
  simp

/-- A decimal that is not rounded has as many places as it is given. -/
theorem coefficientAt_of_le {d : Decimal} {places : Nat} (h : d.scale ≤ places) :
  (d.coefficientAt places : ℚ) = d.magnitude * pow10 places
  := by
  have hscale := pow10_pos_rat d.scale
  have hsum : pow10 places = pow10 (places - d.scale) * pow10 d.scale := by
    rw [← pow10_add]
    congr 1
    omega
  rw [coefficientAt, roundPlaces, dif_neg (by omega), magnitude, hsum]
  push_cast
  field_simp

/-- A decimal that is rounded has the rounded coefficient. -/
theorem coefficientAt_of_lt {d : Decimal} {places : Nat} (h : places < d.scale) :
  d.coefficientAt places = roundDiv .up d.coefficient (pow10 (d.scale - places))
  := by
  have hone : pow10 0 = 1 := rfl
  rw [coefficientAt, roundPlaces, dif_pos h]
  simp only [Nat.sub_self, hone, Nat.mul_one]

/-- The powers of ten that a rounded decimal loses. -/
theorem magnitude_mul_of_lt {d : Decimal} {places : Nat} (h : places < d.scale) :
  d.magnitude * pow10 places = d.coefficient / pow10 (d.scale - places)
  := by
  have hplaces := pow10_pos_rat places
  have hrest := pow10_pos_rat (d.scale - places)
  have hsum : pow10 d.scale = pow10 (d.scale - places) * pow10 places := by
    rw [← pow10_add]
    congr 1
    omega
  rw [magnitude, hsum]
  push_cast
  field_simp

/-- Rounding exceeds a decimal by at most half a unit of the last place. -/
theorem coefficientAt_le (d : Decimal) (places : Nat) :
  (d.coefficientAt places : ℚ) ≤ d.magnitude * pow10 places + 1 / 2
  := by
  cases Nat.lt_or_ge places d.scale with
  | inl hlt =>
    have hpos := pow10_pos_rat (d.scale - places)
    have hnear := (roundDiv_near .up (pow10_pos (d.scale - places)) d.coefficient).1
    rw [coefficientAt_of_lt hlt, magnitude_mul_of_lt hlt, div_add_div _ _ hpos.ne' two_ne_zero,
      le_div_iff₀ (by positivity)]
    have hcast : (2 : ℚ) * (roundDiv .up d.coefficient (pow10 (d.scale - places))
        * pow10 (d.scale - places)) ≤ 2 * d.coefficient + pow10 (d.scale - places) := by
      exact_mod_cast hnear
    linarith
  | inr hge =>
    rw [coefficientAt_of_le hge]
    linarith

/-- Rounding never falls below a whole number that was reached. -/
theorem le_coefficientAt {d : Decimal} {n : Nat} (h : (n : ℚ) ≤ d.magnitude) (places : Nat) :
  n * pow10 places ≤ d.coefficientAt places
  := by
  have hscaled : (n : ℚ) * pow10 places ≤ d.magnitude * pow10 places :=
    mul_le_mul_of_nonneg_right h (pow10_pos_rat places).le
  cases Nat.lt_or_ge places d.scale with
  | inl hlt =>
    rw [magnitude_mul_of_lt hlt, le_div_iff₀ (pow10_pos_rat _)] at hscaled
    have hmul : n * pow10 places * pow10 (d.scale - places) ≤ d.coefficient := by
      exact_mod_cast hscaled
    rw [coefficientAt_of_lt hlt]
    apply ((Nat.le_div_iff_mul_le (pow10_pos _)).mpr hmul).trans
    cases roundDiv_eq_or .up d.coefficient (pow10 (d.scale - places)) with
    | inl heq => apply heq.ge
    | inr heq => exact heq ▸ Nat.le_succ _
  | inr hge =>
    rw [← coefficientAt_of_le hge] at hscaled
    exact_mod_cast hscaled

/-- The magnitude of a decimal is below `2 ^ 96`. -/
theorem magnitude_lt (d : Decimal) :
  d.magnitude < pow2 96
  := by
  have hone : (1 : ℚ) ≤ pow10 d.scale := by exact_mod_cast pow10_pos d.scale
  have hlt : (d.coefficient : ℚ) < pow2 96 := by exact_mod_cast d.coefficient_lt
  apply lt_of_le_of_lt (div_le_self (Nat.cast_nonneg _) hone) hlt

end Decimal

/-! ### Binary64 numbers below a power of ten -/

namespace Binary64

/-- A number below a whole number of at most `10 ^ 28` leaves a gap to it of at least the whole
number divided by `10 ^ 28`. -/
theorem magnitude_gap {x : Binary64} {n : Nat} (hn : n ≤ pow10 28) (h : x.magnitude < n) :
  x.magnitude + n / pow10 28 ≤ n
  := by
  have hsig := Decimal.significandOfCode_lt x.code
  have h28 := pow10_pos_rat 28
  have hpow : pow10 28 = 10000000000000000000000000000 := rfl
  have hpow53 : pow2 53 = 9007199254740992 := rfl
  cases Nat.lt_or_ge (shiftOfCode x.code) 1074 with
  | inl hshift =>
    have hhalf := pow2_pos_rat (1074 - shiftOfCode x.code)
    rw [Decimal.magnitude_of_shift_lt hshift] at h ⊢
    generalize significandOfCode x.code = sig at *
    generalize 1074 - shiftOfCode x.code = halvings at *
    have hnat : sig < n * pow2 halvings := by
      rw [div_lt_iff₀ hhalf] at h
      exact_mod_cast h
    -- the quotient is small enough for one unit of the significand to be a large enough gap
    have hgap : pow10 28 * sig + n * pow2 halvings ≤ pow10 28 * (n * pow2 halvings) := by
      rw [hpow53] at hsig
      rw [hpow]
      generalize n * pow2 halvings = total at hnat ⊢
      omega
    have hcast : (pow10 28 : ℚ) * sig + n * pow2 halvings ≤ pow10 28 * (n * pow2 halvings) := by
      exact_mod_cast hgap
    rw [div_add_div _ _ hhalf.ne' h28.ne', div_le_iff₀ (mul_pos hhalf h28)]
    linarith
  | inr hshift =>
    rw [Decimal.magnitude_of_le_shift hshift] at h ⊢
    generalize significandOfCode x.code * pow2 (shiftOfCode x.code - 1074) = integer at *
    have hnat : integer < n := by exact_mod_cast h
    have hgap : pow10 28 * integer + n ≤ pow10 28 * n := by
      rw [hpow] at hn ⊢
      omega
    have hcast : (pow10 28 : ℚ) * integer + n ≤ pow10 28 * n := by exact_mod_cast hgap
    rw [← le_sub_iff_add_le', div_le_iff₀ h28]
    linarith

/-- The value of a number is its magnitude with its sign. -/
theorem toRat_eq_magnitude (x : Binary64) :
  x.toRat = if x.negative then -x.magnitude else x.magnitude
  := by
  rw [toRat, Rat.mkRat_eq_div, signedUnits, magnitude]
  cases x.negative with
  | true =>
    rw [if_pos rfl, if_pos rfl, ← neg_div]
    push_cast
    rfl
  | false => rfl

/-- The magnitude is the absolute value. -/
theorem abs_toRat (x : Binary64) :
  |x.toRat| = x.magnitude
  := by
  rw [toRat_eq_magnitude]
  split
  case isTrue => rw [abs_neg, abs_of_nonneg x.magnitude_nonneg]
  case isFalse => rw [abs_of_nonneg x.magnitude_nonneg]

/-- The number without its sign has the same code. -/
theorem abs_code (x : Binary64) :
  x.abs.code = x.code ∧ x.abs.negative = false
  := by
  have code_lt : x.code < pow2 63 := Nat.mod_lt _ (pow2_pos 63)
  exact ⟨code_ofCode _ code_lt, negative_ofCode _ code_lt⟩

/-- The number without its sign is finite if the number is. -/
theorem isFinite_abs {x : Binary64} (finite : x.isFinite = true) :
  x.abs.isFinite = true
  := by
  rw [isFinite, x.abs_code.1]
  exact finite

/-- The number without its sign has the absolute value. -/
theorem toRat_abs (x : Binary64) :
  x.abs.toRat = |x.toRat|
  := by
  obtain ⟨code_eq, unsigned⟩ := x.abs_code
  rw [abs_toRat, toRat_eq_magnitude, unsigned, if_neg Bool.false_ne_true, magnitude, magnitude, units,
    units, code_eq]

end Binary64

/-! ### Numbers without a text -/

/-- The text with `places` places would have more than 32 characters beside its sign, although a
decimal holds the number. -/
def Overlong (x : Binary64) (places : Nat) : Prop :=
  3 ≤ places ∧ places ≤ 28 ∧ 10 ^ (31 - places) ≤ |x.toRat| ∧ |x.toRat| < 2 ^ 96

/-- The number, zero if it is not finite, has no text with `places` places: the text would be
overlong or have more places than any text. -/
def NoFixedText (x : Binary64) (places : Nat) : Prop :=
  Overlong x.finitePart places ∨ placesLimit < places

/-- The coefficient of a decimal never needs more than 31 digits for up to two places. -/
theorem coefficientAt_lt_of_lt_three (d : Decimal) {places : Nat} (h : places < 3) :
  d.coefficientAt places < pow10 31
  := by
  have hscale : pow10 places ≤ pow10 2 := pow10_le (by omega)
  have hplaces : (pow10 places : ℚ) ≤ pow10 2 := by exact_mod_cast hscale
  have hmul : d.magnitude * pow10 places ≤ pow2 96 * pow10 2 :=
    mul_le_mul d.magnitude_lt.le hplaces (pow10_pos_rat places).le (pow2_pos_rat 96).le
  have hbound : (pow2 96 * pow10 2 + 1 : ℚ) ≤ pow10 31 := by
    exact_mod_cast (by decide : pow2 96 * pow10 2 + 1 ≤ pow10 31)
  have hround := d.coefficientAt_le places
  have : (d.coefficientAt places : ℚ) < pow10 31 := by linarith
  exact_mod_cast this

/-- The decimal of a number has a coefficient of more than 31 digits at `places` places exactly
if the number has reached the power of ten that leaves room for no more. -/
theorem le_coefficientAt_iff {x : Binary64} {d : Decimal} (hd : Decimal.ofBinary64? x = some d)
    {places : Nat} (h3 : 3 ≤ places) (h28 : places ≤ 28) :
  pow10 31 ≤ d.coefficientAt places ↔ (pow10 (31 - places) : ℚ) ≤ x.magnitude
  := by
  have hsum : pow10 31 = pow10 (31 - places) * pow10 places := by
    rw [← pow10_add]
    congr 1
    omega
  constructor
  · intro hlong
    by_contra hbelow
    have hroom : pow10 (31 - places) ≤ pow10 28 :=
      pow10_le (by omega : 31 - places ≤ 28)
    have hgap := Binary64.magnitude_gap hroom (not_le.mp hbelow)
    have hslack := Decimal.magnitude_le_of_ofBinary64? hd
    have hround := d.coefficientAt_le places
    have hplaces := pow10_pos_rat places
    have hlongQ : (pow10 31 : ℚ) ≤ d.coefficientAt places := by exact_mod_cast hlong
    -- all is compared at the scale of the coefficient, where the gap is a thousand units
    have hthousand : (pow10 (31 - places) : ℚ) / pow10 28 * pow10 places = 1000 := by
      rw [div_mul_eq_mul_div, div_eq_iff (pow10_pos_rat 28).ne']
      exact_mod_cast hsum.symm.trans (by decide : pow10 31 = 1000 * pow10 28)
    have hslackScaled : (5 : ℚ) / (9 * pow10 28) * pow10 places ≤ 1 := by
      have hle : (pow10 places : ℚ) ≤ pow10 28 := by
        exact_mod_cast Nat.pow_le_pow_right (by decide : 0 < 10) h28
      have := pow10_pos_rat 28
      rw [div_mul_eq_mul_div, div_le_one (by positivity)]
      linarith
    have hscaled : d.magnitude * pow10 places + 1000
        ≤ pow10 (31 - places) * pow10 places + 1 := by
      calc d.magnitude * pow10 places + 1000
          ≤ (x.magnitude + 5 / (9 * pow10 28)) * pow10 places + 1000 := by
            have := mul_le_mul_of_nonneg_right hslack hplaces.le
            linarith
        _ = (x.magnitude + pow10 (31 - places) / pow10 28) * pow10 places
              + 5 / (9 * pow10 28) * pow10 places := by
            rw [add_mul, add_mul, hthousand]
            ring
        _ ≤ pow10 (31 - places) * pow10 places + 1 := by
            have := mul_le_mul_of_nonneg_right hgap hplaces.le
            linarith
    have hsumQ : (pow10 31 : ℚ) = pow10 (31 - places) * pow10 places := by exact_mod_cast hsum
    linarith
  · intro hreach
    rw [hsum]
    apply Decimal.le_coefficientAt
    apply Decimal.le_magnitude_of_ofBinary64? hd hreach

/-- A number has no text with `places` places exactly if the text would be overlong or have more
places than any text. -/
theorem fixedText?_eq_none_iff (x : Binary64) (places : Nat) :
  fixedText? x places = none ↔ NoFixedText x places
  := by
  have hpow10 (k : Nat) : ((pow10 k : Nat) : ℚ) = 10 ^ k := by
    simp [pow10]
  have hpow2 : ((pow2 96 : Nat) : ℚ) = 2 ^ 96 := by
    norm_num [pow2]
  rw [fixedText?, NoFixedText, Overlong, Binary64.abs_toRat, ← hpow10, ← hpow2]
  generalize x.finitePart = x
  have hlimit : placesLimit = 65535 := rfl
  by_cases h28 : places ≤ 28
  · simp only [h28, if_true, true_and]
    cases hd : Decimal.ofBinary64? x with
    | none =>
      have hlarge := (Decimal.ofBinary64?_eq_none_iff x).mp hd
      have hplaces : places ≤ placesLimit := by omega
      simp only [hplaces, if_true, reduceCtorEq, false_iff]
      rintro (⟨-, -, hsmall⟩ | hbeyond)
      · exact absurd hlarge (not_le.mpr hsmall)
      · omega
    | some d =>
      have hsmall : x.magnitude < pow2 96 := by
        apply not_le.mp
        intro hlarge
        rw [(Decimal.ofBinary64?_eq_none_iff x).mpr hlarge] at hd
        cases hd
      have hbeyond : ¬ placesLimit < places := by omega
      simp only [hsmall, and_true, hbeyond, or_false]
      rw [Decimal.filled?_roundPlaces_eq_none_iff, ← not_le]
      by_cases h3 : 3 ≤ places
      · rw [length_fixedPoint_le_iff _ (by omega) h28, not_lt, le_coefficientAt_iff hd h3 h28]
        simp [h3]
      · have hshort := coefficientAt_lt_of_lt_three d (by omega : places < 3)
        simp only [h3, false_and, iff_false, not_not]
        cases places with
        | zero => apply length_fixedPoint_zero (hshort.trans (by decide))
        | succ places => apply (length_fixedPoint_le_iff _ (by omega) h28).mpr hshort
  · simp only [h28, if_false, false_and, and_false, false_or]
    split <;> simp <;> omega

/-- With up to two places every number has a text. -/
theorem fixedText?_ne_none {places : Nat} (h : places < 3) (x : Binary64) :
  fixedText? x places ≠ none
  := by
  rw [Ne, fixedText?_eq_none_iff, NoFixedText, Overlong, placesLimit]
  omega

end Tariff
