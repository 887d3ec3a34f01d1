import Tariff.Proofs.Binary64.ShortDecimals
import Tariff.Proofs.Json.RereadNumbers

/-!
# Short decimals as JSON numbers

A short decimal with few places is read as the quotient of two integers that are both converted without
a rounding.  What is written for the quotient has the value of the decimal, and is read as the
quotient again.
-/

namespace Tariff.Json

open Binary64 (Rounds finestGrid gridStep infinityCode nearestCode ofCode unitsOfCode)

/-- The number that digits with places are read as. -/
def quotient (coefficient places : Nat) : Binary64 :=
  Binary64.ofInt coefficient / powerOfTen places

variable {coefficient places : Nat}

/-- Up to the 22nd the powers of ten are numbers. -/
theorem powerOfTen_exact (few : places ≤ 22) :
  (powerOfTen places).negative = false ∧ (powerOfTen places).units = pow10 places * pow2 1074
  := by
  have short : 5 ^ places < pow2 53 := by
    calc 5 ^ places ≤ 5 ^ 22 := Nat.pow_le_pow_right (by decide) few
      _ < pow2 53 := by decide
  have pow10_eq : pow10 places = 5 ^ places * pow2 places := Nat.mul_pow 5 2 places
  have exact_power := Binary64.unitsOfCode_nearestCode (Nat.pow_pos (by decide)) short
    (show places ≤ 971 by omega)
  rw [powerOfTen_eq (by omega), Binary64.negative_ofInt, Binary64.units, Binary64.code_ofInt,
    Int.natAbs_natCast, pow10_eq]
  exact ⟨rfl, exact_power⟩

/-- The quotient is rounded once. -/
theorem quotient_eq (pos : 0 < coefficient) (short : coefficient < pow2 53) (few : places ≤ 22) :
  quotient coefficient places =
    ofCode false (nearestCode (coefficient * pow2 1074) (pow10 places))
  := by
  obtain ⟨unsigned, units_eq⟩ := powerOfTen_exact few
  have finite : (Binary64.ofInt coefficient).isFinite = true := isFinite_ofInt (short.trans (by decide))
  obtain ⟨finite_power, one_le⟩ := powerOfTen_bounds (show places < 309 by omega)
  rw [quotient, Binary64.div_eq finite finite_power ((pow2_pos 1074).trans_le one_le),
    Binary64.negative_ofInt, unsigned, Binary64.units_ofInt pos short, units_eq]
  apply congrArg (ofCode false)
  apply Binary64.nearestCode_congr (Nat.mul_pos (pow10_pos _) (pow2_pos _)) (pow10_pos _)
  ring

/-- Decimals of one value have one quotient. -/
theorem quotient_congr {coefficient' places' : Nat} (pos : 0 < coefficient)
    (short : coefficient < pow2 53) (few : places ≤ 22) (pos' : 0 < coefficient')
    (short' : coefficient' < pow2 53) (few' : places' ≤ 22)
    (same : coefficient * pow10 places' = coefficient' * pow10 places) :
  quotient coefficient places = quotient coefficient' places'
  := by
  rw [quotient_eq pos short few, quotient_eq pos' short' few']
  apply congrArg (ofCode false)
  apply Binary64.nearestCode_congr (pow10_pos _) (pow10_pos _)
  rw [Nat.mul_right_comm, same, Nat.mul_right_comm]

/-- The quotient is finite. -/
theorem isFinite_quotient (short : coefficient < pow2 53) (few : places ≤ 22) :
  (quotient coefficient places).isFinite = true
  := by
  have finite : (Binary64.ofInt coefficient).isFinite = true := isFinite_ofInt (short.trans (by decide))
  have divided := isFinite_divideByPower places finite
  rwa [divideByPower, if_pos (by omega)] at divided

/-- The decimal is a point of its grid that rounds to the quotient, a normal number without a
sign. -/
theorem rounds_quotient (pos : 0 < coefficient) (short : coefficient < pow2 53)
    (few : places ≤ 22) :
  (quotient coefficient places).negative = false ∧
    pow2 52 ≤ (quotient coefficient places).code ∧
    Rounds (coefficient * gridStep (finestGrid - places)) (pow10 finestGrid)
      (quotient coefficient places).code
  := by
  have finite : (quotient coefficient places).code < infinityCode :=
    of_decide_eq_true (isFinite_quotient short few)
  rw [quotient_eq pos short few] at finite ⊢
  rw [Binary64.negative_ofCode _ (Binary64.nearestCode_lt _ _)]
  rw [Binary64.code_ofCode _ (Binary64.nearestCode_lt _ _)] at finite ⊢
  refine ⟨rfl, ?_, ?_⟩
  · have least : unitsOfCode (pow2 52) = pow2 52 := by decide
    apply Binary64.le_nearestCode (pow10_pos _) (by decide)
    calc unitsOfCode (pow2 52) * pow10 places ≤ pow2 52 * pow10 22 := by
          rw [least]
          exact Nat.mul_le_mul_left _ (pow10_le few)
      _ ≤ pow2 126 := by decide
      _ ≤ pow2 1074 := pow2_le (by decide)
      _ ≤ coefficient * pow2 1074 := Nat.le_mul_of_pos_left _ pos
  · have finest_eq : finestGrid = finestGrid - places + places := by
      have : finestGrid = 324 := rfl
      omega
    have same : nearestCode (coefficient * pow2 1074) (pow10 places) =
        nearestCode (coefficient * gridStep (finestGrid - places)) (pow10 finestGrid) := by
      apply Binary64.nearestCode_congr (pow10_pos _) (pow10_pos _)
      conv_lhs => rw [finest_eq]
      rw [gridStep, pow10_add]
      ring
    rw [same] at finite ⊢
    apply Binary64.rounds_nearestCode (pow10_pos _) finite

/-! ### What is written -/

/-- A decimal has the value of digits with places, none of which are finer than the places. -/
def HasValue (form : DecimalForm) (coefficient places : Nat) : Prop :=
  ∃ k : Nat, form.exponent = (k : Int) - places ∧ form.coefficient * pow10 k = coefficient

/-- A decimal of at most 16 digits ends in front of the 16th power of ten. -/
theorem HasValue.exponent_le {form : DecimalForm} (hasValue : HasValue form coefficient places)
    (pos : 0 < coefficient) (lt : coefficient < pow10 16) :
  form.exponent + (Text.numeral form.coefficient).length ≤ 16 - (places : Int)
  := by
  obtain ⟨k, exponent_eq, rfl⟩ := hasValue
  have length_le := Binary64.length_numeral_add_le (Nat.pos_of_mul_pos_right pos) lt
  omega

/-- A decimal of at most 16 digits is written with no more places than it has, though with one at
least. -/
theorem HasValue.exists_writtenForm {form : DecimalForm} (hasValue : HasValue form coefficient places)
    (pos : 0 < coefficient) (lt : coefficient < pow10 16) (places_pos : 0 < places) :
  ∃ coefficient' places' : Nat, writtenForm form = ⟨coefficient', -(places' : Int)⟩ ∧
    0 < places' ∧ places' ≤ places ∧ coefficient' * pow10 (places - places') = coefficient
  := by
  have exponent_le := hasValue.exponent_le pos lt
  obtain ⟨k, exponent_eq, value_eq⟩ := hasValue
  rcases Nat.lt_or_ge k places with below | whole
  · have same : writtenForm form = form := if_neg (by omega)
    have exponent_eq' : form.exponent = -((places - k : Nat) : Int) := by omega
    have k_eq : places - (places - k) = k := by omega
    refine ⟨form.coefficient, places - k, ?_, by omega, Nat.sub_le _ _, ?_⟩
    · rw [same, ← exponent_eq']
    · rw [k_eq, value_eq]
  · -- The zeros of a whole number are written, and a place more.
    obtain ⟨e, rfl⟩ : ∃ e, k = e + places := ⟨k - places, by omega⟩
    obtain rfl : form.exponent.natAbs = e := by omega
    obtain ⟨others, rfl⟩ : ∃ others, places = others + 1 := ⟨places - 1, by omega⟩
    refine ⟨10 * (form.coefficient * pow10 form.exponent.natAbs), 1, if_pos (by omega), Nat.one_pos,
      places_pos, ?_⟩
    rw [← value_eq, pow10_add, pow10_succ, Nat.add_sub_cancel]
    ring

/-- The exponents of coarser grids are those of the decimal and more. -/
theorem exponent_of_coarser (few : places ≤ 22) (k : Nat) :
  ((finestGrid - places + k : Nat) : Int) - finestGrid = (k : Int) - places
  := by
  have : finestGrid = 324 := rfl
  omega

/-- The shortest decimal of the quotient of a short decimal has the value of the decimal. -/
theorem hasValue_shortest (pos : 0 < coefficient) (short : coefficient < pow2 52)
    (few : places ≤ 22) :
  HasValue ((quotient coefficient places).shortest .toEven) coefficient places
  := by
  have grid_le : finestGrid - places ≤ Binary64.coarsestGrid :=
    (Nat.sub_le _ _).trans (by decide)
  obtain ⟨-, normal, rounds⟩ := rounds_quotient pos (short.trans (by decide)) few
  obtain ⟨k, exponent_eq, value_eq⟩ := rounds.shortest_eq normal short grid_le .toEven
  rw [exponent_of_coarser few] at exponent_eq
  exact ⟨k, exponent_eq, value_eq⟩

/-! ### What is read -/

/-- Digits of 64 bits with places are read as their quotient. -/
theorem scaled?_places (few : places ≤ 22) (places_pos : 0 < places) :
  scaled? (Binary64.ofInt coefficient) (-(places : Int)) = some (quotient coefficient places)
  := by
  rw [scaled?, if_pos (by omega), Int.natAbs_neg, Int.natAbs_natCast, divideByPower,
    if_pos (by omega), quotient]

/-- A number is read back as what its written decimal is scaled to. -/
theorem rereadReal_of_writtenForm {x y : Binary64} {form : DecimalForm}
    (form_eq : writtenForm (x.shortest .toEven) = form)
    (scaled : scaled? (Binary64.ofInt form.coefficient) form.exponent = some y) :
  rereadReal x = withSign x.negative y
  := by
  simp only [rereadReal, form_eq, scaled, Option.map_some, Option.getD_some]

/-- The quotient of a short decimal is read back as it is. -/
theorem rereadReal_quotient (pos : 0 < coefficient) (short : coefficient < pow2 52)
    (few : places ≤ 22) (places_pos : 0 < places) :
  rereadReal (quotient coefficient places) = quotient coefficient places
  := by
  have lt : coefficient < pow2 53 := short.trans (by decide)
  obtain ⟨coefficient', places', form_eq, places_pos', places_le, value_eq⟩ :=
    (hasValue_shortest pos short few).exists_writtenForm pos (short.trans (by decide)) places_pos
  have pos' : 0 < coefficient' := by
    rw [← value_eq] at pos
    apply Nat.pos_of_mul_pos_right pos
  have coefficient_le : coefficient' ≤ coefficient := by
    rw [← value_eq]
    apply Nat.le_mul_of_pos_right _ (pow10_pos _)
  have few' := places_le.trans few
  have same : quotient coefficient' places' = quotient coefficient places := by
    apply quotient_congr pos' (coefficient_le.trans_lt lt) few' pos lt few
    rw [← value_eq, Nat.mul_assoc, ← pow10_add, Nat.sub_add_cancel places_le]
  have unsigned := (rounds_quotient pos lt few).1
  rw [rereadReal_of_writtenForm form_eq (scaled?_places few' places_pos'), unsigned, withSign_false,
    same]

end Tariff.Json
