import Tariff.Proofs.FixedNumerals
import Tariff.Proofs.FixedText

/-!
# Rounded texts

The text of a number with up to six places denotes the number rounded to them, ties away from zero.
It is made from a decimal that need not be the number, but has the first seven places in common with
it: the decimal reaches whatever number of seven places the binary64 number reaches, and a binary64
number that does not reach one is further below it than the decimal exceeds the binary64 number.
-/

namespace Tariff

/-! ### Seven places -/

/-- A number that is halved up to seven times has seven places, and one that is halved more often is
a number of seven places that is halved the remaining times. -/
theorem exists_div_pow2_eq (n halvings : Nat) :
  ∃ units rest : Nat, (rest = 0 ∨ units = n * 5 ^ 7) ∧
    (n : ℚ) / pow2 halvings = units / (pow2 rest * pow10 7)
  := by
  have seven_pos := pow10_pos_rat 7
  have halvings_pos := pow2_pos_rat halvings
  have power_eq : pow10 7 = 5 ^ 7 * pow2 7 := rfl
  rcases Nat.le_total halvings 7 with few | many
  · have halved_eq : pow2 (7 - halvings) * pow2 halvings = pow2 7 := by
      rw [← pow2_add, Nat.sub_add_cancel few]
    have one : (pow2 0 : ℚ) = 1 := Nat.cast_one
    refine ⟨n * (5 ^ 7 * pow2 (7 - halvings)), 0, .inl rfl, ?_⟩
    rw [one, one_mul, div_eq_div_iff halvings_pos.ne' seven_pos.ne', power_eq, ← halved_eq]
    push_cast
    ring
  · have halved_eq : pow2 (halvings - 7) * pow2 7 = pow2 halvings := by
      rw [← pow2_add, Nat.sub_add_cancel many]
    have rest_pos := pow2_pos_rat (halvings - 7)
    refine ⟨n * 5 ^ 7, halvings - 7, .inr rfl, ?_⟩
    rw [div_eq_div_iff halvings_pos.ne' (mul_pos rest_pos seven_pos).ne', power_eq, ← halved_eq]
    push_cast
    ring

namespace Binary64

/-- A number is a whole number of units of the seventh place, or a small number of them halved. -/
theorem exists_magnitude_eq (x : Binary64) :
  ∃ units halvings : Nat, (halvings = 0 ∨ units < pow2 53 * 5 ^ 7) ∧
    x.magnitude = units / (pow2 halvings * pow10 7)
  := by
  rcases Nat.lt_or_ge (shiftOfCode x.code) 1074 with halved | whole
  · rw [Decimal.magnitude_of_shift_lt halved]
    obtain ⟨units, rest, few, value_eq⟩ :=
      exists_div_pow2_eq (significandOfCode x.code) (1074 - shiftOfCode x.code)
    refine ⟨units, rest, few.imp_right fun units_eq => ?_, value_eq⟩
    rw [units_eq]
    exact Nat.mul_lt_mul_of_pos_right (Decimal.significandOfCode_lt x.code) (by decide)
  · rw [Decimal.magnitude_of_le_shift whole]
    generalize significandOfCode x.code * pow2 (shiftOfCode x.code - 1074) = integer
    have one : (pow2 0 : ℚ) = 1 := Nat.cast_one
    refine ⟨integer * pow10 7, 0, .inl rfl, ?_⟩
    rw [one, one_mul, Nat.cast_mul, mul_div_cancel_right₀ _ (pow10_pos_rat 7).ne']

/-- A number below one of seven places leaves a gap to it of at least a unit of the 28th place. -/
theorem magnitude_add_unit_le {x : Binary64} {n : Nat} (below : x.magnitude < n / pow10 7) :
  x.magnitude + 1 / pow10 28 ≤ n / pow10 7
  := by
  obtain ⟨units, halvings, few, x_eq⟩ := x.exists_magnitude_eq
  have seven_pos := pow10_pos_rat 7
  have unit_pos := pow10_pos_rat 28
  have denominator_pos := mul_pos (pow2_pos_rat halvings) seven_pos
  rw [x_eq] at below ⊢
  have lt : units < n * pow2 halvings := by
    rw [div_lt_div_iff₀ denominator_pos seven_pos, ← mul_assoc,
      mul_lt_mul_iff_left₀ seven_pos] at below
    exact_mod_cast below
  -- The numerators differ by one at least, which is little only beside numbers that are not halved.
  have gap : units * pow10 28 + pow2 halvings * pow10 7 ≤ n * pow2 halvings * pow10 28 := by
    have n_pos : 0 < n := Nat.pos_of_mul_pos_right (Nat.zero_lt_of_lt lt)
    have halvings_le : pow2 halvings ≤ n * pow2 halvings := Nat.le_mul_of_pos_left _ n_pos
    have one : halvings = 0 → pow2 halvings = 1 := by
      rintro rfl
      rfl
    have power_eq : pow2 53 * 5 ^ 7 = 703687441776640000000 := rfl
    have power_eq' : pow10 28 = 10000000000000000000000000000 := rfl
    have power_eq'' : pow10 7 = 10000000 := rfl
    rw [power_eq] at few
    rw [power_eq', power_eq'']
    generalize n * pow2 halvings = whole at *
    omega
  rw [div_add_div _ _ denominator_pos.ne' unit_pos.ne',
    div_le_div_iff₀ (mul_pos denominator_pos unit_pos) seven_pos]
  have scaled := Nat.mul_le_mul_right (pow10 7) gap
  have scaled_rat : ((units : ℚ) * pow10 28 + pow2 halvings * pow10 7) * pow10 7 ≤
      n * pow2 halvings * pow10 28 * pow10 7 := by
    exact_mod_cast scaled
  linarith

end Binary64

/-! ### Rounding goes through the decimal -/

/-- A number and its decimal reach the same numbers of seven places. -/
theorem Decimal.div_le_magnitude_iff {x : Binary64} {d : Decimal}
    (converted : ofBinary64? x = some d) (n : Nat) :
  (n : ℚ) / pow10 7 ≤ d.magnitude ↔ (n : ℚ) / pow10 7 ≤ x.magnitude
  := by
  constructor
  · intro reached
    by_contra below
    have gap := Binary64.magnitude_add_unit_le (not_le.mp below)
    have excess := magnitude_le_of_ofBinary64? converted
    have unit_pos := pow10_pos_rat 28
    have excess_lt : (5 : ℚ) / (9 * pow10 28) < 1 / pow10 28 := by
      rw [div_lt_div_iff₀ (by positivity) unit_pos]
      linarith
    linarith
  · exact div_le_magnitude_of_ofBinary64? converted (by decide)

/-- A number and its decimal have the first seven places in common. -/
theorem Decimal.floor_ofBinary64? {x : Binary64} {d : Decimal} (converted : ofBinary64? x = some d) :
  ⌊d.magnitude * pow10 7⌋ = ⌊x.magnitude * pow10 7⌋
  := by
  have seven_pos := pow10_pos_rat 7
  have nonneg := mul_nonneg d.magnitude_nonneg seven_pos.le
  have nonneg' := mul_nonneg x.magnitude_nonneg seven_pos.le
  rw [← Int.natCast_floor_eq_floor nonneg, ← Int.natCast_floor_eq_floor nonneg']
  congr 1
  apply eq_of_forall_le_iff
  intro n
  rw [Nat.le_floor_iff nonneg, Nat.le_floor_iff nonneg', ← div_le_iff₀ seven_pos,
    ← div_le_iff₀ seven_pos]
  exact div_le_magnitude_iff converted n

/-- The decimal of a number has its sign. -/
theorem Decimal.negative_ofBinary64? {x : Binary64} {d : Decimal}
    (converted : ofBinary64? x = some d) :
  d.negative = x.negative
  := by
  unfold ofBinary64? ofPlaces? at converted
  dsimp only at converted
  repeat' split at converted
  all_goals cases converted
  all_goals rfl

/-- The value of a decimal is its magnitude with its sign. -/
theorem Decimal.toRat_eq_magnitude (d : Decimal) :
  d.toRat = if d.negative then -d.magnitude else d.magnitude
  := by
  rw [toRat_eq_scaled, scaled, magnitude, ite_div, neg_div]

/-- The decimal of a number is rounded to up to six places as the number. -/
theorem Decimal.roundAway_ofBinary64? {x : Binary64} {d : Decimal} {places : Nat}
    (converted : ofBinary64? x = some d) (le : places ≤ 6) :
  roundAway places d.toRat = roundAway places x.toRat
  := by
  have same : roundAway places d.magnitude = roundAway places x.magnitude :=
    roundAway_congr (Nat.lt_succ_of_le le) d.magnitude_nonneg x.magnitude_nonneg
      (floor_ofBinary64? converted)
  rw [d.toRat_eq_magnitude, x.toRat_eq_magnitude, negative_ofBinary64? converted]
  split
  case isTrue => rw [roundAway_neg, roundAway_neg, same]
  case isFalse => exact same

/-! ### Texts of rounded numbers -/

/-- A sign and a coefficient stand for a number with these places: a number without a sign gets none,
zero gets no coefficient but zero, and with up to six places the number is rounded, ties away from
zero. -/
structure Binary64.RoundsTo (x : Binary64) (places : Nat) (negative : Bool) (coefficient : Nat) :
    Prop where
  unsigned : x.negative = false → negative = false
  zero : x.isZero = true → coefficient = 0
  rounded : places ≤ 6 → Decimal.scaled negative coefficient places = roundAway places x.toRat

/-- A rounded decimal has no more places than asked for. -/
theorem Decimal.scale_roundPlaces_le (d : Decimal) (places : Nat) :
  (d.roundPlaces places).scale ≤ places
  := by
  unfold roundPlaces
  split
  case isTrue => exact Nat.le_refl places
  case isFalse few => exact Nat.le_of_not_lt few

/-- Rounding gives no sign to a decimal. -/
theorem Decimal.negative_roundPlaces {d : Decimal} (unsigned : d.negative = false) (places : Nat) :
  (d.roundPlaces places).negative = false
  := by
  unfold roundPlaces
  split
  case isTrue => simp [unsigned]
  case isFalse => exact unsigned

/-- A decimal is filled up to the numeral of its sign and of its coefficient with all places. -/
theorem Decimal.eq_text_of_filled? {d : Decimal} {places : Nat} {s : String}
    (filled : d.filled? places = some s) :
  s = (FixedNumeral.ofScaled d.negative (d.coefficient * pow10 (places - d.scale)) places).text
  := by
  unfold filled? at filled
  dsimp only at filled
  split at filled
  case isTrue => rw [FixedNumeral.text, FixedNumeral.chars_ofScaled, Option.some.inj filled]
  case isFalse => cases filled

/-- The number zero becomes a decimal without a coefficient and without places. -/
theorem Decimal.ofBinary64?_of_isZero {x : Binary64} (isZero : x.isZero = true) :
  ofBinary64? x = some { zero with negative := x.negative }
  := by
  have code_eq : x.code = 0 := of_decide_eq_true isZero
  have none : Binary64.significandOfCode 0 = 0 := rfl
  rw [ofBinary64?, code_eq, none, if_pos rfl]

/-- A number is rounded as its decimal is. -/
theorem Binary64.roundsTo_of_some {x : Binary64} {d : Decimal}
    (converted : Decimal.ofBinary64? x = some d) (places : Nat) :
  x.RoundsTo places (d.roundPlaces places).negative (d.coefficientAt places)
  := by
  constructor
  case unsigned =>
    intro unsigned
    apply Decimal.negative_roundPlaces
    rw [Decimal.negative_ofBinary64? converted, unsigned]
  case zero =>
    intro isZero
    rw [Decimal.ofBinary64?_of_isZero isZero] at converted
    cases converted
    have filled := Decimal.coefficientAt_of_le (d := { Decimal.zero with negative := x.negative })
      (Nat.zero_le places)
    rw [Decimal.magnitude, Decimal.zero, Nat.cast_zero, zero_div, zero_mul] at filled
    exact_mod_cast filled
  case rounded =>
    intro le
    rw [← Decimal.roundAway_ofBinary64? converted le, ← Decimal.toRat_roundPlaces,
      Decimal.toRat_eq_scaled]
    apply Decimal.scaled_eq_of_mul_eq
    rw [Decimal.coefficientAt, Nat.mul_assoc, ← pow10_add,
      Nat.sub_add_cancel (d.scale_roundPlaces_le places)]

/-- A number that is too large for a decimal is whole. -/
theorem Binary64.exists_units_eq {x : Binary64} (large : Decimal.ofBinary64? x = none) :
  ∃ n : Nat, x.units = n * pow2 1074
  := by
  rw [Decimal.ofBinary64?_eq_none_iff] at large
  have whole : 1074 ≤ shiftOfCode x.code := by
    by_contra halved
    have significand_lt : (significandOfCode x.code : ℚ) < pow2 96 := by
      exact_mod_cast (Decimal.significandOfCode_lt x.code).trans_le (pow2_le (by decide))
    have one_le : (1 : ℚ) ≤ pow2 (1074 - shiftOfCode x.code) := Nat.one_le_cast.mpr (pow2_pos _)
    rw [Decimal.magnitude_of_shift_lt (Nat.lt_of_not_le halved)] at large
    exact (large.trans (div_le_self (Nat.cast_nonneg _) one_le)).not_gt significand_lt
  refine ⟨significandOfCode x.code * pow2 (shiftOfCode x.code - 1074), ?_⟩
  rw [units, unitsOfCode, Nat.mul_assoc, ← pow2_add, Nat.sub_add_cancel whole]

/-- A number that is too large for a decimal is not changed. -/
theorem Binary64.scaled_of_none {x : Binary64} (large : Decimal.ofBinary64? x = none)
    (places : Nat) :
  Decimal.scaled x.negative (roundDiv .toEven (x.units * pow10 places) (pow2 1074)) places =
    roundAway places x.toRat
  := by
  obtain ⟨m, units_eq⟩ := exists_units_eq large
  have one : pow10 0 = 1 := rfl
  have magnitude_eq : x.magnitude = m / pow10 0 := by
    rw [magnitude, units_eq, Nat.cast_mul, mul_div_cancel_right₀ _ (pow2_pos_rat 1074).ne', one,
      Nat.cast_one, div_one]
  have toRat_eq : x.toRat = Decimal.scaled x.negative m 0 := by
    rw [x.toRat_eq_magnitude, magnitude_eq, Decimal.scaled, ite_div, neg_div]
  rw [toRat_eq, Decimal.roundAway_scaled, roundAway_of_le (Nat.zero_le places), ← neg_div, ← ite_div,
    units_eq, Nat.mul_right_comm, roundDiv_mul _ (pow2_pos 1074)]
  apply Decimal.scaled_eq_of_mul_eq
  rw [one, Nat.mul_one]

/-- The digits of a number that are written for want of a decimal stand for it. -/
theorem Binary64.roundsTo_fixedChars {x : Binary64} {places : Nat}
    (other : Decimal.ofBinary64? x = none ∨ 6 < places) :
  x.RoundsTo places x.negative (roundDiv .toEven (x.units * pow10 places) (pow2 1074))
  := by
  constructor
  case unsigned => exact id
  case zero =>
    intro isZero
    have code_eq : x.code = 0 := of_decide_eq_true isZero
    have no_units : unitsOfCode 0 = 0 := rfl
    have no_multiple := roundDiv_mul .toEven (pow2_pos 1074) 0
    rw [Nat.zero_mul] at no_multiple
    rw [units, code_eq, no_units, Nat.zero_mul, no_multiple]
  case rounded =>
    intro le
    apply scaled_of_none (other.resolve_right (Nat.not_lt.mpr le))

/-- A text is the numeral of the rounded decimal, with up to 28 places of a number that a decimal can
hold, and else the numeral of the exact number, a half of which is rounded to the even digit. -/
theorem numeral_of_fixedText? {x : Binary64} {places : Nat} {s : String}
    (text_eq : fixedText? x places = some s) :
  (∃ d, places ≤ 28 ∧ Decimal.ofBinary64? x.finitePart = some d ∧
    s = (FixedNumeral.ofScaled (d.roundPlaces places).negative (d.coefficientAt places) places).text) ∨
  ((28 < places ∨ Decimal.ofBinary64? x.finitePart = none) ∧
    s = (FixedNumeral.ofScaled x.finitePart.negative
      (roundDiv .toEven (x.finitePart.units * pow10 places) (pow2 1074)) places).text)
  := by
  unfold fixedText? at text_eq
  dsimp only at text_eq
  generalize x.finitePart = x at *
  split at text_eq
  case h_1 d found =>
    split at found
    case isTrue le => exact .inl ⟨d, le, found, Decimal.eq_text_of_filled? text_eq⟩
    case isFalse => cases found
  case h_2 missing =>
    have other : 28 < places ∨ Decimal.ofBinary64? x = none := by
      split at missing
      case isTrue => exact .inr missing
      case isFalse many => exact .inl (Nat.lt_of_not_le many)
    split at text_eq
    case isTrue =>
      refine .inr ⟨other, ?_⟩
      rw [FixedNumeral.text, FixedNumeral.chars_ofScaled]
      exact (Option.some.inj text_eq).symm
    case isFalse => cases text_eq

/-- A text is the numeral of a sign and a coefficient that stand for the number. -/
theorem exists_roundsTo_of_fixedText? {x : Binary64} {places : Nat} {s : String}
    (text_eq : fixedText? x places = some s) :
  ∃ negative coefficient, s = (FixedNumeral.ofScaled negative coefficient places).text ∧
    x.finitePart.RoundsTo places negative coefficient
  := by
  rcases numeral_of_fixedText? text_eq with ⟨d, -, converted, s_eq⟩ | ⟨other, s_eq⟩
  · exact ⟨_, _, s_eq, Binary64.roundsTo_of_some converted places⟩
  · have exact_digits : Decimal.ofBinary64? x.finitePart = none ∨ 6 < places :=
      other.symm.imp_right fun many => by omega
    exact ⟨_, _, s_eq, Binary64.roundsTo_fixedChars exact_digits⟩

/-- The text of a finite number with up to six places denotes the number rounded to them, ties away
from zero, and shows just these places. -/
theorem fixedText?_eq_some {x : Binary64} {places : Nat} {s : String} (finite : x.isFinite = true)
    (le : places ≤ 6) (text_eq : fixedText? x places = some s) :
  ∃ n : FixedNumeral, s = n.text ∧ n.value = roundAway places x.toRat ∧
    n.fraction.map List.length = if places = 0 then none else some places
  := by
  obtain ⟨negative, coefficient, s_eq, rounds⟩ := exists_roundsTo_of_fixedText? text_eq
  rw [Binary64.finitePart_of_isFinite finite] at rounds
  use .ofScaled negative coefficient places, s_eq
  constructor
  · rw [FixedNumeral.value_ofScaled, rounds.rounded le]
  · apply FixedNumeral.length_fraction_ofScaled

/-- A number halfway between two texts has the one further from zero. -/
theorem fixedText?_eq_some_eighth :
  fixedText? (-0.125) 2 = some "-0.13" ∧
    ∃ n : FixedNumeral, "-0.13" = n.text ∧ n.value = -13 / 100 ∧ n.fraction.map List.length = some 2
  := by
  have text_eq : fixedText? (-0.125) 2 = some "-0.13" := by decide +kernel
  have rounded_eq : roundAway 2 (-0.125 : Binary64).toRat = -13 / 100 := by decide +kernel
  obtain ⟨n, n_text, value_eq, length_eq⟩ :=
    fixedText?_eq_some (by decide +kernel) (by decide) text_eq
  exact ⟨text_eq, n, n_text, value_eq.trans rounded_eq, length_eq⟩

end Tariff
