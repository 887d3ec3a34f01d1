import Tariff.Proofs.Binary64.Shortest
import Tariff.Proofs.Json.WrittenValues

/-!
# Numbers that are read back

Numbers in range are integers of 64 bits and finite numbers.  All numbers that are read are in range,
and all of those are read back from their texts: integers as themselves, and finite numbers as finite
numbers, which may be others, as digits and power are converted and multiplied with a rounding each.
No product becomes infinite, for the shortest decimals of the largest numbers do not exceed them by
enough.
-/

namespace Tariff.Json

open Binary64 (maxFinite)

/-! ### Digits that fit -/

/-- Digits do not make a number smaller. -/
theorem le_ofDigitChars (digits : List Char) (n : Nat) :
  n ≤ Nat.ofDigitChars 10 digits n
  := by
  rw [Nat.ofDigitChars_eq_ofDigitChars_zero]
  have := Nat.le_mul_of_pos_left n (Nat.pow_pos (n := digits.length) (show 0 < 10 by decide))
  omega

/-- Integer digits whose value fits 64 bits are all taken in. -/
theorem takeWhole_eq {digits : List Char} {n : Nat}
    (fits : Nat.ofDigitChars 10 digits n < pow2 64) :
  takeWhole n digits = (Nat.ofDigitChars 10 digits n, 0)
  := by
  induction digits generalizing n with
  | nil => rfl
  | cons c digits ih =>
    rw [Nat.ofDigitChars_cons] at fits
    have first_fits : 10 * n + digitValue c < pow2 64 :=
      (le_ofDigitChars digits _).trans_lt fits
    rw [takeWhole, if_pos first_fits]
    apply ih fits

/-- Fraction digits whose value fits 64 bits are all taken in. -/
theorem takeFraction_eq {digits : List Char} {n : Nat}
    (fits : Nat.ofDigitChars 10 digits n < pow2 64) :
  takeFraction n digits = (Nat.ofDigitChars 10 digits n, digits.length)
  := by
  induction digits generalizing n with
  | nil => rfl
  | cons c digits ih =>
    rw [Nat.ofDigitChars_cons] at fits
    have first_fits : 10 * n + digitValue c < pow2 64 :=
      (le_ofDigitChars digits _).trans_lt fits
    rw [takeFraction, if_pos first_fits]
    have others := ih fits
    unfold digitValue at *
    rw [others]
    rfl

/-- The integer digits that are taken in have 64 bits. -/
theorem takeWhole_lt (digits : List Char) {n : Nat} (lt : n < pow2 64) :
  (takeWhole n digits).1 < pow2 64
  := by
  induction digits generalizing n with
  | nil => exact lt
  | cons c digits ih =>
    rw [takeWhole]
    split
    case isTrue fits => apply ih fits
    case isFalse => exact lt

/-- The fraction digits that are taken in have 64 bits. -/
theorem takeFraction_lt (digits : List Char) {n : Nat} (lt : n < pow2 64) :
  (takeFraction n digits).1 < pow2 64
  := by
  induction digits generalizing n with
  | nil => exact lt
  | cons c digits ih =>
    rw [takeFraction]
    split
    case isTrue fits => apply ih fits
    case isFalse => exact lt

/-- A numeral with a point or an exponent whose digits fit 64 bits is its digits, converted and
scaled. -/
theorem WrittenNumeral.value?_of_isReal {w : WrittenNumeral} (negative : Bool)
    (isReal : w.isReal = true) (fits : w.form.coefficient < pow2 64) :
  w.numeral.value? negative =
    (scaled? (Binary64.ofInt w.form.coefficient) w.form.exponent).map
      fun x => .real (withSign negative x)
  := by
  have coefficient_eq : w.form.coefficient =
      Nat.ofDigitChars 10 (w.fraction.getD []) (Nat.ofDigitChars 10 w.whole 0) := by
    apply Nat.ofDigitChars_append
  rw [coefficient_eq] at fits ⊢
  have whole_fits := (le_ofDigitChars (w.fraction.getD []) _).trans_lt fits
  have no_integer : ¬ (w.numeral.fraction.isNone = true ∧ w.numeral.exponent.isNone = true ∧
      0 = 0) := by
    rintro ⟨no_fraction, no_exponent, -⟩
    simp only [numeral, Option.isNone_map, Option.isNone_iff_eq_none] at no_fraction no_exponent
    simp [WrittenNumeral.isReal, no_fraction, no_exponent] at isReal
  have whole_eq : takeWhole 0 w.numeral.whole = (Nat.ofDigitChars 10 w.whole 0, 0) :=
    takeWhole_eq whole_fits
  have fraction_eq : takeFraction (Nat.ofDigitChars 10 w.whole 0) (w.numeral.fraction.getD []) =
      (Nat.ofDigitChars 10 (w.fraction.getD []) (Nat.ofDigitChars 10 w.whole 0),
        (w.fraction.getD []).length) :=
    takeFraction_eq fits
  have exponent_eq : ((0 : Nat) : Int) - ((w.fraction.getD []).length : Int) +
      w.numeral.exponent.getD 0 = w.form.exponent := by
    simp only [form, numeral]
    omega
  unfold Numeral.value?
  dsimp only
  rw [whole_eq, if_neg no_integer, fraction_eq, exponent_eq]

/-! ### Numbers in range -/

/-- An integer of 64 bits, signed or unsigned, or a finite number. -/
def Number.InRange : Number → Prop
  | .integer n => -(pow2 63 : Int) ≤ n ∧ n < pow2 64
  | .real x => x.isFinite = true

/-- Without a sign a number is kept. -/
theorem withSign_false (x : Binary64) :
  withSign false x = x
  := if_neg Bool.false_ne_true

/-- A number has the code of its opposite. -/
theorem code_withSign (negative : Bool) (x : Binary64) :
  (withSign negative x).code = x.code
  := by
  unfold withSign
  split
  case isTrue =>
    change (Binary64.ofCode (!x.negative) x.code).code = x.code
    apply Binary64.code_ofCode
    apply Nat.mod_lt _ (pow2_pos 63)
  case isFalse => rfl

/-- A number is finite if its opposite is. -/
theorem isFinite_withSign (negative : Bool) {x : Binary64} (finite : x.isFinite = true) :
  (withSign negative x).isFinite = true
  := by
  rw [Binary64.isFinite, code_withSign]
  exact finite

/-- A power of ten is converted like any other natural number. -/
theorem powerOfTen_eq {n : Nat} (small : n < 309) :
  powerOfTen n = Binary64.ofInt (pow10 n)
  := by
  have one_digit : (Text.numeral 1).length = 1 := by decide
  have not_negative : ¬ (pow10 n : Int) < 0 := by omega
  unfold powerOfTen Binary64.ofDecimal
  dsimp only
  rw [one_digit, if_neg (by simp; omega), if_neg (by omega), if_neg (by omega), Int.natAbs_natCast,
    Nat.one_mul, Binary64.ofInt, decide_eq_false not_negative, Int.cast_natCast]

/-- A bound of decimals that remain finite even though digits, power and product are rounded. -/
def decimalLimit : Nat :=
  1797693134862315 * pow10 293

/-- Two roundings do not take the bound above the largest finite number. -/
theorem rounded_decimalLimit_le :
  decimalLimit * ((pow2 53 + 1) * (pow2 53 + 1)) ≤ maxFinite * (pow2 53 * pow2 53)
  := by
  decide +kernel

/-- The bound does not exceed the largest finite number. -/
theorem decimalLimit_le :
  decimalLimit ≤ maxFinite
  := by
  apply Nat.le_of_mul_le_mul_right _ (Nat.mul_pos (pow2_pos 53) (pow2_pos 53))
  apply Nat.le_trans _ rounded_decimalLimit_le
  apply Nat.mul_le_mul_left
  exact Nat.mul_le_mul (Nat.le_succ _) (Nat.le_succ _)

/-- A power of ten with some more digits does not exceed the bound. -/
theorem mul_pow10_le_decimalLimit {m e k : Nat} (le : m ≤ pow10 k) (few : k + e ≤ 308) :
  m * pow10 e ≤ decimalLimit
  := by
  calc m * pow10 e ≤ pow10 k * pow10 e := Nat.mul_le_mul_right _ le
    _ = pow10 (k + e) := (pow10_add _ _).symm
    _ ≤ pow10 (15 + 293) := pow10_le few
    _ = pow10 15 * pow10 293 := pow10_add _ _
    _ ≤ decimalLimit := Nat.mul_le_mul_right _ (by decide)

/-- Natural numbers of 64 bits become finite numbers. -/
theorem isFinite_ofInt {n : Nat} (lt : n < pow2 64) :
  (Binary64.ofInt n).isFinite = true
  := by
  have short : n ≤ pow10 20 := lt.le.trans (by decide)
  have one : pow10 0 = 1 := rfl
  have le := mul_pow10_le_decimalLimit (e := 0) short (by decide)
  rw [one, Nat.mul_one] at le
  exact Binary64.isFinite_ofInt_of_le (le.trans decimalLimit_le)

/-- The powers of ten that numbers are divided by are finite and not below one. -/
theorem powerOfTen_bounds {n : Nat} (small : n < 309) :
  (powerOfTen n).isFinite = true ∧ pow2 1074 ≤ (powerOfTen n).units
  := by
  rw [powerOfTen_eq small]
  constructor
  · have one : 1 ≤ pow10 0 := Nat.le_refl 1
    have le := mul_pow10_le_decimalLimit one (show 0 + n ≤ 308 by omega)
    rw [Nat.one_mul] at le
    exact Binary64.isFinite_ofInt_of_le (le.trans decimalLimit_le)
  · have unit := Binary64.units_ofInt Nat.one_pos (by decide)
    rw [Nat.one_mul] at unit
    rw [← unit]
    exact Binary64.strictMono_unitsOfCode.monotone (Binary64.code_ofInt_le (pow10_pos n))

/-- A finite number divided by a power of ten is finite. -/
theorem isFinite_divideByPower {x : Binary64} (n : Nat) (finite : x.isFinite = true) :
  (divideByPower x n).isFinite = true
  := by
  have divided (k : Nat) (small : k < 309) {x : Binary64} (finite : x.isFinite = true) :
      (x / powerOfTen k).isFinite = true := by
    obtain ⟨finite_power, one_le⟩ := powerOfTen_bounds small
    have code_le := Binary64.code_div_le finite finite_power one_le
    simp only [Binary64.isFinite, decide_eq_true_eq] at finite ⊢
    omega
  induction n using Nat.strongRecOn generalizing x with
  | ind n ih =>
    rw [divideByPower]
    split
    case isTrue le => exact divided n (by omega) finite
    case isFalse =>
      split
      case isTrue => exact finite
      case isFalse => apply ih _ (by omega) (divided 308 (by decide) finite)

/-- A finite number is scaled to a finite number. -/
theorem isFinite_of_scaled? {x y : Binary64} {exponent : Int} (finite : x.isFinite = true)
    (scaled : scaled? x exponent = some y) :
  y.isFinite = true
  := by
  unfold scaled? at scaled
  split at scaled
  case isTrue =>
    cases scaled
    apply isFinite_divideByPower _ finite
  case isFalse =>
    split at scaled
    case isTrue =>
      split at scaled
      case isTrue =>
        cases scaled
        exact finite
      case isFalse => cases scaled
    case isFalse =>
      dsimp only at scaled
      split at scaled
      case isTrue finite_product =>
        cases scaled
        exact finite_product
      case isFalse => cases scaled

/-- The number that a numeral denotes is in range. -/
theorem Numeral.inRange_of_value? {numeral : Numeral} {negative : Bool} {n : Number}
    (value : numeral.value? negative = some n) :
  n.InRange
  := by
  have p63 : pow2 63 = 9223372036854775808 := rfl
  have p64 : pow2 64 = 18446744073709551616 := rfl
  have whole_lt := takeWhole_lt numeral.whole (pow2_pos 64)
  unfold value? at value
  dsimp only at value
  split at value
  case isTrue =>
    obtain rfl := Option.some.inj value
    generalize (takeWhole 0 numeral.whole).1 = significand at *
    unfold wholeNumber
    split
    case isTrue =>
      simp only [Number.InRange]
      omega
    case isFalse =>
      split
      case isTrue => exact isFinite_withSign true (isFinite_ofInt whole_lt)
      case isFalse fits =>
        simp only [Number.InRange]
        omega
  case isFalse =>
    obtain ⟨x, scaled, rfl⟩ := Option.map_eq_some_iff.mp value
    have fraction_lt := takeFraction_lt (numeral.fraction.getD []) whole_lt
    exact isFinite_withSign negative (isFinite_of_scaled? (isFinite_ofInt fraction_lt) scaled)

/-! ### What numbers are read back as -/

/-- The coefficient of the decimal that is written for a number fits 64 bits. -/
theorem writtenForm_coefficient_lt {form : DecimalForm} (lt : form.coefficient < pow2 57) :
  (writtenForm form).coefficient < pow2 64
  := by
  unfold writtenForm
  split
  case isTrue near =>
    obtain ⟨nonneg, short⟩ := near
    have coefficient_lt : form.coefficient < pow10 (Text.numeral form.coefficient).length :=
      (Nat.length_toDigits_le_iff (by decide) (List.length_pos_iff.mpr Nat.toDigits_ne_nil)).mp
        (Nat.le_refl _)
    have product_lt : form.coefficient * pow10 form.exponent.natAbs < pow10 16 := by
      calc form.coefficient * pow10 form.exponent.natAbs
          < pow10 (Text.numeral form.coefficient).length * pow10 form.exponent.natAbs :=
            Nat.mul_lt_mul_of_pos_right coefficient_lt (pow10_pos _)
        _ = pow10 ((Text.numeral form.coefficient).length + form.exponent.natAbs) :=
            (pow10_add _ _).symm
        _ ≤ pow10 16 := pow10_le (by omega)
    have room : 10 * pow10 16 < pow2 64 := by decide
    exact Nat.lt_of_le_of_lt (Nat.mul_le_mul_left 10 product_lt.le) room
  case isFalse => exact lt.trans (by decide)

/-- A finite number is read back as its digits, converted and scaled. -/
theorem Number.reread?_scaled {x : Binary64} (finite : x.isFinite = true) :
  (Number.real x).reread? =
    let form := writtenForm (x.shortest .toEven)
    (scaled? (Binary64.ofInt form.coefficient) form.exponent).map
      fun y => .number (.real (withSign x.negative y))
  := by
  obtain ⟨w, chars_eq, form_eq, isReal⟩ := exists_decimalChars (x.shortest .toEven)
  have fits : w.form.coefficient < pow2 64 := by
    rw [form_eq]
    apply writtenForm_coefficient_lt
    exact Binary64.shortest_coefficient_lt .toEven finite
  have no_more : EndsNumeral [] := by simp [EndsNumeral]
  have written : (Number.real x).chars = Text.signed x.negative w.chars := by
    rw [Number.chars, realChars, if_pos finite, chars_eq]
  have read : Reader.value nestingLimit (Text.signed x.negative w.chars ++ []) = _ :=
    Reader.value_written x.negative w no_more
  rw [← written, WrittenNumeral.value?_of_isReal x.negative isReal fits] at read
  rw [Reader.reread?_eq read, form_eq]
  dsimp only
  rw [Option.map_map]
  rfl

/-- Digits below the bound are multiplied by a power of ten to a finite number. -/
theorem isFinite_product {m e : Nat} (le : m * pow10 e ≤ decimalLimit) (small : e < 309) :
  (Binary64.ofInt m * powerOfTen e).isFinite = true
  := by
  have m_le : m ≤ decimalLimit := (Nat.le_mul_of_pos_right m (pow10_pos e)).trans le
  obtain ⟨finite_power, -⟩ := powerOfTen_bounds small
  apply Binary64.isFinite_mul (Binary64.isFinite_ofInt_of_le (m_le.trans decimalLimit_le)) finite_power
  rw [powerOfTen_eq small]
  apply Nat.le_of_mul_le_mul_right _ (Nat.mul_pos (pow2_pos 53) (pow2_pos 53))
  -- The digits and the power are both rounded, by no more than their `2 ^ 53`th parts.
  calc (Binary64.ofInt m).units * (Binary64.ofInt (pow10 e)).units * (pow2 53 * pow2 53)
      = (Binary64.ofInt m).units * pow2 53 * ((Binary64.ofInt (pow10 e)).units * pow2 53) := by ring
    _ ≤ m * pow2 1074 * (pow2 53 + 1) * (pow10 e * pow2 1074 * (pow2 53 + 1)) :=
      Nat.mul_le_mul (Binary64.units_ofInt_le m) (Binary64.units_ofInt_le (pow10 e))
    _ = m * pow10 e * ((pow2 53 + 1) * (pow2 53 + 1)) * (pow2 1074 * pow2 1074) := by ring
    _ ≤ decimalLimit * ((pow2 53 + 1) * (pow2 53 + 1)) * (pow2 1074 * pow2 1074) :=
      Nat.mul_le_mul_right _ (Nat.mul_le_mul_right _ le)
    _ ≤ maxFinite * (pow2 53 * pow2 53) * (pow2 1074 * pow2 1074) :=
      Nat.mul_le_mul_right _ rounded_decimalLimit_le
    _ = maxFinite * pow2 1074 * pow2 1074 * (pow2 53 * pow2 53) := by ring

/-- The largest shortest decimal and those with fewer digits and the same exponent are multiplied to
finite numbers. -/
theorem isFinite_product_of_le_largest {m : Nat} (le : m ≤ 17976931348623157) :
  (Binary64.ofInt m * powerOfTen 292).isFinite = true
  := by
  have largest : (Binary64.ofInt 17976931348623157 * powerOfTen 292).isFinite = true := by
    decide +kernel
  have m_lt : m < pow2 64 := le.trans_lt (by decide)
  have units_le : (Binary64.ofInt m).units ≤ (Binary64.ofInt (17976931348623157 : Nat)).units :=
    Binary64.strictMono_unitsOfCode.monotone (Binary64.code_ofInt_le le)
  obtain ⟨finite_power, -⟩ := powerOfTen_bounds (show 292 < 309 by decide)
  have code_le := Binary64.code_mul_le (isFinite_ofInt m_lt) finite_power
    (isFinite_ofInt (n := 17976931348623157) (by decide)) finite_power units_le (Nat.le_refl _)
  apply decide_eq_true
  exact code_le.trans_lt (of_decide_eq_true largest)

/-- What does not exceed the largest shortest decimal is multiplied to a finite number. -/
theorem isFinite_product_shortest {m e : Nat} (pos : 0 < m) (short : m < pow2 57)
    (le : m * pow10 e ≤ 17976931348623157 * pow10 292) :
  e < 309 ∧ (Binary64.ofInt m * powerOfTen e).isFinite = true
  := by
  have small : e < 309 := by
    apply lt_of_pow10_lt
    calc pow10 e ≤ m * pow10 e := Nat.le_mul_of_pos_left _ pos
      _ ≤ 17976931348623157 * pow10 292 := le
      _ < pow10 17 * pow10 292 := Nat.mul_lt_mul_of_pos_right (by decide) (pow10_pos 292)
      _ = pow10 (17 + 292) := (pow10_add 17 292).symm
  refine ⟨small, ?_⟩
  rcases Nat.lt_trichotomy e 292 with low | rfl | high
  · -- Here it is the number of digits that is limited.
    have m_le : m ≤ 1797693134862315 * pow10 2 := short.le.trans (by decide)
    apply isFinite_product _ small
    calc m * pow10 e ≤ 1797693134862315 * pow10 2 * pow10 291 :=
          Nat.mul_le_mul m_le (pow10_le (by omega))
      _ = decimalLimit := by rw [Nat.mul_assoc, ← pow10_add, decimalLimit]
  · exact isFinite_product_of_le_largest (Nat.le_of_mul_le_mul_right le (pow10_pos 292))
  · obtain ⟨k, rfl⟩ : ∃ k, e = 293 + k := ⟨e - 293, by omega⟩
    apply isFinite_product _ small
    have digits_le : m * pow10 k * 10 ≤ 17976931348623157 := by
      apply Nat.le_of_mul_le_mul_right _ (pow10_pos 292)
      calc m * pow10 k * 10 * pow10 292 = m * (10 * pow10 292 * pow10 k) := by ring
        _ = m * pow10 (293 + k) := by rw [pow10_add 293 k, pow10_succ 292]
        _ ≤ 17976931348623157 * pow10 292 := le
    calc m * pow10 (293 + k) = m * pow10 k * pow10 293 := by
          rw [pow10_add]
          ring
      _ ≤ decimalLimit := Nat.mul_le_mul_right _ (by omega)

/-- The shortest decimal of a finite number is scaled to a number. -/
theorem isSome_scaled?_shortest {x : Binary64} (finite : x.isFinite = true)
    (nonzero : 0 < x.code) :
  let form := x.shortest .toEven
  (scaled? (Binary64.ofInt form.coefficient) form.exponent).isSome = true
  := by
  obtain ⟨-, -, -, pos, coefficient_lt⟩ := Binary64.shortest_spec .toEven finite nonzero
  have coefficient_le {e : Nat} := Binary64.shortest_le (e := e) finite nonzero
  generalize x.shortest .toEven = form at *
  dsimp only
  unfold scaled?
  split
  case isTrue => rfl
  case isFalse nonneg =>
    obtain ⟨e, e_eq⟩ := Int.eq_ofNat_of_zero_le (Int.not_lt.mp nonneg)
    obtain ⟨small, finite_product⟩ :=
      isFinite_product_shortest pos coefficient_lt (coefficient_le e_eq)
    rw [e_eq, if_neg (by omega), Int.natAbs_natCast]
    dsimp only
    rw [if_pos finite_product]
    rfl

/-- What a finite number is read back as: its digits, converted and then scaled, each step
rounded. -/
def rereadReal (x : Binary64) : Binary64 :=
  let form := writtenForm (x.shortest .toEven)
  ((scaled? (Binary64.ofInt form.coefficient) form.exponent).map (withSign x.negative)).getD x

/-- The digits of a finite number are scaled to a finite number. -/
theorem exists_scaled? {x : Binary64} (finite : x.isFinite = true) :
  let form := writtenForm (x.shortest .toEven)
  ∃ y, scaled? (Binary64.ofInt form.coefficient) form.exponent = some y ∧ y.isFinite = true
  := by
  have some_scaled : (scaled? (Binary64.ofInt (writtenForm (x.shortest .toEven)).coefficient)
      (writtenForm (x.shortest .toEven)).exponent).isSome = true := by
    unfold writtenForm
    split
    case isTrue => rfl
    case isFalse far =>
      rcases Nat.eq_zero_or_pos x.code with zero | nonzero
      · have is_zero : x.isZero = true := decide_eq_true zero
        rw [Binary64.shortest, if_pos is_zero] at far
        exact absurd (by decide) far
      · exact isSome_scaled?_shortest finite nonzero
  obtain ⟨y, scaled⟩ := Option.isSome_iff_exists.mp some_scaled
  have finite_significand : (Binary64.ofInt
      (writtenForm (x.shortest .toEven)).coefficient).isFinite = true :=
    isFinite_ofInt (writtenForm_coefficient_lt (Binary64.shortest_coefficient_lt .toEven finite))
  exact ⟨y, scaled, isFinite_of_scaled? finite_significand scaled⟩

/-- Finite numbers are read back as numbers that are not integers. -/
theorem Number.reread?_real {x : Binary64} (finite : x.isFinite = true) :
  (Number.real x).reread? = some (.number (.real (rereadReal x)))
  := by
  obtain ⟨y, scaled, -⟩ := exists_scaled? finite
  rw [Number.reread?_scaled finite]
  simp only [rereadReal, scaled, Option.map_some, Option.getD_some]

/-- Finite numbers are read back as finite numbers. -/
theorem isFinite_rereadReal {x : Binary64} (finite : x.isFinite = true) :
  (rereadReal x).isFinite = true
  := by
  obtain ⟨y, scaled, finite_y⟩ := exists_scaled? finite
  simp only [rereadReal, scaled, Option.map_some, Option.getD_some]
  exact isFinite_withSign _ finite_y

/-- Integers of 64 bits are read back as themselves. -/
theorem Number.reread?_integer {n : Int} (inRange : (Number.integer n).InRange) :
  (Number.integer n).reread? = some (.number (.integer n))
  := by
  obtain ⟨low, high⟩ := inRange
  have p63 : pow2 63 = 9223372036854775808 := rfl
  have p64 : pow2 64 = 18446744073709551616 := rfl
  have fits : Nat.ofDigitChars 10 (Text.numeral n.natAbs) 0 < pow2 64 := by
    have value_eq := Text.numeralValue_numeral n.natAbs
    rw [Text.numeralValue] at value_eq
    omega
  have no_more : EndsNumeral [] := by simp [EndsNumeral]
  have value_eq : (WrittenNumeral.ofNat n.natAbs none (by simp)).numeral.value? (decide (n < 0)) =
      some (wholeNumber (decide (n < 0)) n.natAbs) := by
    have whole_eq := takeWhole_eq fits
    rw [← Text.numeralValue, Text.numeralValue_numeral] at whole_eq
    simp [Numeral.value?, WrittenNumeral.numeral, WrittenNumeral.ofNat, whole_eq]
  have number_eq : wholeNumber (decide (n < 0)) n.natAbs = .integer n := by
    unfold wholeNumber
    rcases Int.lt_or_le n 0 with negative | nonneg
    · rw [decide_eq_true negative, if_neg (by simp), if_neg (by omega)]
      congr 1
      omega
    · rw [decide_eq_false (by omega), if_pos (by simp)]
      congr 1
      omega
  have read : Reader.value nestingLimit ((Text.signed (decide (n < 0))
      (WrittenNumeral.ofNat n.natAbs none (by simp)).chars) ++ []) = _ :=
    Reader.value_written (decide (n < 0)) (WrittenNumeral.ofNat n.natAbs none (by simp)) no_more
  rw [← Number.chars_integer n, value_eq, number_eq] at read
  exact Reader.reread?_eq read

/-- Integers of 64 bits are in range. -/
theorem inRange_int64 (n : Int64) :
  (Number.integer n.toInt).InRange
  := by
  have low := n.le_toInt
  have high := n.toInt_lt
  have p63 : pow2 63 = 9223372036854775808 := rfl
  have p64 : pow2 64 = 18446744073709551616 := rfl
  simp only [Number.InRange]
  omega

/-- Numbers in range are read back. -/
theorem Number.isSome_reread? {n : Number} (inRange : n.InRange) :
  n.reread?.isSome = true
  := by
  cases n with
  | integer n =>
    rw [Number.reread?_integer inRange]
    rfl
  | real x =>
    rw [Number.reread?_real inRange]
    rfl

/-! ### Flat values -/

/-- A value is read back as another one wherever a container may be opened. -/
def RereadAs (v v' : Json) : Prop :=
  ∀ depth, 0 < depth → reread? depth v = some v'

/-- Truth values are read back as they are. -/
theorem rereadAs_bool (b : Bool) :
  RereadAs (.bool b) (.bool b)
  := fun _ _ => rfl

/-- Strings are read back as they are. -/
theorem rereadAs_string (s : String) :
  RereadAs (.string s) (.string s)
  := fun _ _ => rfl

/-- Integers of 64 bits are read back as they are. -/
theorem rereadAs_integer {n : Int} (inRange : (Number.integer n).InRange) :
  RereadAs (.number (.integer n)) (.number (.integer n))
  := fun _ _ => Number.reread?_integer inRange

/-- Finite numbers are read back as their digits. -/
theorem rereadAs_real {x : Binary64} (finite : x.isFinite = true) :
  RereadAs (.number (.real x)) (.number (.real (rereadReal x)))
  := fun _ _ => Number.reread?_real finite

/-- Members that are strings are read back as they are. -/
theorem rereadMembers?_strings {members : List (String × Json)}
    (strings : ∀ m ∈ members, ∃ s, m.2 = .string s) (depth : Nat) :
  rereadMembers? depth members = some members
  := by
  induction members with
  | nil => rfl
  | cons m members ih =>
    obtain ⟨⟨s, eq⟩, others⟩ := List.forall_mem_cons.mp strings
    obtain ⟨name, v⟩ := m
    obtain rfl : v = .string s := eq
    rw [rereadMembers?, ih others]
    rfl

/-- Objects of strings are read back as they are. -/
theorem rereadAs_strings {members : List (String × Json)}
    (strings : ∀ m ∈ members, ∃ s, m.2 = .string s) :
  RereadAs (.object members) (.object members)
  := by
  rintro (_ | depth) pos
  · cases pos
  · rw [reread?, rereadMembers?_strings strings, Option.map_some]

/-! ### Values that have been read -/

namespace Reader

/-- A number that is read from its digits is in range. -/
theorem inRange_of_number {negative : Bool} {cs rest : List Char} {n : Number}
    (read : number negative cs = .ok (n, rest)) :
  n.InRange
  := by
  obtain ⟨numeral, mid, -, read⟩ := bind_eq_ok.mp read
  cases value : numeral.value? negative with
  | none =>
    rw [value] at read
    cases read
  | some m =>
    rw [value] at read
    cases read
    exact Numeral.inRange_of_value? value

/-- A value that has been read is read back. -/
theorem yields_isSome_reread (depth : Nat) :
  Yields (fun v => (reread? depth v).isSome = true) (value depth)
  := by
  apply yields_value_of (P := fun depth v => (reread? depth v).isSome = true)
  · intro depth v no_container read
    cases v with
    | null => rfl
    | bool b => rfl
    | number n =>
      obtain ⟨negative, digits, rest, read_n⟩ := read n rfl
      rw [reread?]
      exact Number.isSome_reread? (inRange_of_number read_n)
    | string s => rfl
    | array items => cases no_container
    | object members => cases no_container
  · intro depth items all
    rw [reread?, Option.isSome_map]
    exact isSome_rereadItems?_iff.mpr all
  · intro depth members all
    rw [reread?, Option.isSome_map]
    exact isSome_rereadMembers?_iff.mpr all.2

end Reader

end Tariff.Json
