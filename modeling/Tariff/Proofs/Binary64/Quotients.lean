import Tariff.Proofs.Binary64.Arithmetic

/-!
# Quotients

Zero divided is zero, and a quotient of numbers without a sign has none, whether it is finite or not.
Natural numbers of up to `2 ^ 53` are ordered as the numbers that they become.  Their quotients are
finite and grow with the dividend.  A quotient is exact if it is a natural number, and otherwise
differs from the exact one by less than one part of the divisor.
-/

namespace Tariff.Binary64

variable {x y : Binary64} {m n k : Nat}

/-! ### Zeros and signs -/

/-- The code of zero is zero. -/
theorem code_zero :
  (0 : Binary64).code = 0
  := by
  change (ofInt 0).code = 0
  rw [code_ofInt, Int.natAbs_zero, Nat.zero_mul, nearestCode_zero Nat.one_pos]

/-- Zero is finite. -/
theorem isFinite_of_isZero (isZero : x.isZero = true) :
  x.isFinite = true
  := by
  have code_eq : x.code = 0 := of_decide_eq_true isZero
  rw [isFinite, code_eq]
  rfl

/-- A number above zero has no sign and is not zero. -/
theorem units_pos_of_pos (pos : 0 < x) :
  x.negative = false ∧ 0 < x.units
  := by
  have zero_rank : (0 : Binary64).rank = 0 := by
    rw [rank, code_zero, Nat.cast_zero, neg_zero, ite_self]
  have rank_pos : 0 < x.rank := by
    rw [← zero_rank]
    apply of_decide_eq_true (Bool.and_eq_true_iff.mp pos).2
  rw [rank] at rank_pos
  cases unsigned : x.negative with
  | true =>
    rw [unsigned, if_pos rfl] at rank_pos
    omega
  | false =>
    rw [unsigned, if_neg Bool.false_ne_true] at rank_pos
    use rfl
    rw [units, ← unitsOfCode_zero]
    apply strictMono_unitsOfCode (Int.natCast_pos.mp rank_pos)

/-- What is not finite gives way to a zero without a sign. -/
theorem negative_finitePart (unsigned : x.negative = false) :
  x.finitePart.negative = false
  := by
  rw [finitePart]
  split
  case isTrue => exact unsigned
  case isFalse => apply negative_ofCode false (by decide)

/-- Zero divided by a finite number above zero is zero. -/
theorem isZero_div (isZero : x.isZero = true) (finite : y.isFinite = true) (pos : 0 < y.units) :
  (x / y).isZero = true
  := by
  have code_eq : x.code = 0 := of_decide_eq_true isZero
  apply decide_eq_true
  rw [code_div (isFinite_of_isZero isZero) finite pos, units, code_eq, unitsOfCode_zero,
    Nat.zero_mul, nearestCode_zero pos]

/-- Numbers without a sign have a quotient without a sign. -/
theorem negative_div (unsigned : x.negative = false) (unsigned' : y.negative = false) :
  (x / y).negative = false
  := by
  have coded {code : Nat} (lt : code < pow2 63) : (ofCode false code).negative = false :=
    negative_ofCode false lt
  have nan_unsigned : nan.negative = false := coded (by decide)
  have infinity_unsigned : (infinity false).negative = false := coded (by decide)
  have zero_unsigned : (zero false).negative = false := coded (by decide)
  have nearest_unsigned (q : ℚ) : (nearest false q).negative = false := coded (nearestCode_lt _ _)
  change (div x y).negative = false
  rw [div, unsigned, unsigned', bne_self_eq_false]
  grind

/-! ### Natural numbers of 53 bits -/

/-- Natural numbers of up to `2 ^ 53` become numbers of the same value. -/
theorem units_ofInt_of_le (le : n ≤ pow2 53) :
  (ofInt n).units = n * pow2 1074
  := by
  rcases Nat.eq_zero_or_pos n with rfl | pos
  · have code_eq : (ofInt (0 : Nat)).code = 0 := code_zero
    rw [units, code_eq, unitsOfCode_zero, Nat.zero_mul]
  · rcases Nat.lt_or_eq_of_le le with lt | rfl
    · apply units_ofInt pos lt
    · have power := unitsOfCode_nearestCode Nat.one_pos (by decide) (by decide : 53 ≤ 971)
      rw [Nat.one_mul] at power
      rw [units, code_ofInt, Int.natAbs_natCast, power]

/-- A natural number becomes a number that has a value. -/
theorem isNaN_ofInt (n : Nat) :
  (ofInt n).isNaN = false
  := by
  apply decide_eq_false
  rw [code_ofInt]
  apply Nat.not_lt.mpr (nearestCode_le _ _)

/-- Natural numbers are compared by the codes of the numbers that they become. -/
theorem ofInt_lt_ofInt_iff_code (m n : Nat) :
  ofInt m < ofInt n ↔ (ofInt m).code < (ofInt n).code
  := by
  change lt _ _ = true ↔ _
  simp [lt, rank, isNaN_ofInt, negative_ofInt]

/-- A natural number is below another of up to `2 ^ 53` if the numbers that they become are. -/
theorem ofInt_lt_ofInt_iff (le : n ≤ pow2 53) :
  ofInt m < ofInt n ↔ m < n
  := by
  rw [ofInt_lt_ofInt_iff_code]
  constructor
  · intro lt
    by_contra not_lt
    apply (code_ofInt_le (Nat.le_of_not_lt not_lt)).not_gt lt
  · intro lt
    apply strictMono_unitsOfCode.lt_iff_lt.mp
    change (ofInt m).units < (ofInt n).units
    rw [units_ofInt_of_le le, units_ofInt_of_le (lt.le.trans le)]
    apply Nat.mul_lt_mul_of_pos_right lt (pow2_pos 1074)

/-! ### Quotients of natural numbers -/

/-- The quotient of natural numbers is not negative. -/
theorem toRat_ofInt_div_nonneg (m k : Nat) :
  0 ≤ (ofInt m / ofInt k).toRat
  := by
  rw [toRat_eq_magnitude, negative_div (negative_ofInt m) (negative_ofInt k),
    if_neg Bool.false_ne_true]
  apply magnitude_nonneg

/-- A number of units that is off by less than one part in so many from a quotient with no larger
dividend is off by less than one part of the divisor. -/
theorem abs_div_sub_lt {u unit parts : Nat} (k_pos : 0 < k) (unit_pos : 0 < unit)
    (parts_pos : 0 < parts) (above : u * k * parts < m * unit * parts + m * unit)
    (below : m * unit * parts < u * k * parts + m * unit) (m_le : m ≤ parts) :
  |(u : ℚ) / unit - m / k| < 1 / k
  := by
  have k_rat : (0 : ℚ) < k := Nat.cast_pos.mpr k_pos
  have unit_rat : (0 : ℚ) < unit := Nat.cast_pos.mpr unit_pos
  have parts_rat : (0 : ℚ) < parts := Nat.cast_pos.mpr parts_pos
  have above_rat : (u : ℚ) * k * parts < m * unit * parts + m * unit := by
    exact_mod_cast above
  have below_rat : (m : ℚ) * unit * parts < u * k * parts + m * unit := by
    exact_mod_cast below
  have m_rat : (m : ℚ) * unit ≤ parts * unit := by
    exact_mod_cast Nat.mul_le_mul_right unit m_le
  have difference_eq : (u : ℚ) / unit - m / k = (u * k - m * unit) / (unit * k) := by
    field_simp
  rw [difference_eq, abs_div, abs_of_pos (mul_pos unit_rat k_rat),
    div_lt_div_iff₀ (mul_pos unit_rat k_rat) k_rat, one_mul, mul_lt_mul_iff_left₀ k_rat, abs_lt]
  constructor
  · apply lt_of_mul_lt_mul_right _ parts_rat.le
    linarith
  · apply lt_of_mul_lt_mul_right _ parts_rat.le
    linarith

variable (k_pos : 0 < k) (k_le : k ≤ pow2 53)

include k_pos k_le

/-- The quotient of natural numbers has the code nearest to that of the dividend by the divisor. -/
theorem ofInt_div_ofInt (m_le : m ≤ maxFinite) :
  ofInt m / ofInt k = ofCode false (nearestCode (ofInt m).units k)
  := by
  have k_units := units_ofInt_of_le k_le
  have k_finite : (ofInt k).isFinite = true :=
    isFinite_ofInt_of_le (k_le.trans (pow2_le_maxFinite (by decide)))
  have units_pos : 0 < (ofInt k).units := by
    rw [k_units]
    apply Nat.mul_pos k_pos (pow2_pos 1074)
  rw [div_eq (isFinite_ofInt_of_le m_le) k_finite units_pos, negative_ofInt, negative_ofInt,
    bne_self_eq_false, k_units]
  apply congrArg (ofCode false)
  apply nearestCode_congr (units_pos.trans_eq k_units) k_pos
  ring

/-- Numbers in the same proportion have the same quotient. -/
theorem ofInt_div_ofInt_congr {m' k' : Nat} (k_pos' : 0 < k') (k_le' : k' ≤ pow2 53)
    (m_le : m ≤ pow2 53) (m_le' : m' ≤ pow2 53) (eq : m * k' = m' * k) :
  ofInt m / ofInt k = ofInt m' / ofInt k'
  := by
  have finite_le : pow2 53 ≤ maxFinite := pow2_le_maxFinite (by decide)
  rw [ofInt_div_ofInt k_pos k_le (m_le.trans finite_le),
    ofInt_div_ofInt k_pos' k_le' (m_le'.trans finite_le), units_ofInt_of_le m_le,
    units_ofInt_of_le m_le']
  apply congrArg (ofCode false)
  apply nearestCode_congr k_pos k_pos'
  rw [Nat.mul_right_comm, eq, Nat.mul_right_comm]

/-- The quotient of natural numbers is finite. -/
theorem isFinite_ofInt_div (m_le : m ≤ maxFinite) :
  (ofInt m / ofInt k).isFinite = true
  := by
  have finite := isFinite_ofInt_of_le m_le
  apply decide_eq_true
  rw [ofInt_div_ofInt k_pos k_le m_le, code_ofCode false (nearestCode_lt _ _)]
  have code_le : nearestCode (ofInt m).units k ≤ (ofInt m).code :=
    nearestCode_le_code k_pos (of_decide_eq_true finite).le (Nat.le_mul_of_pos_right _ k_pos)
  apply Nat.lt_of_le_of_lt code_le (of_decide_eq_true finite)

/-- The value of the quotient of natural numbers. -/
theorem toRat_ofInt_div (m_le : m ≤ maxFinite) :
  (ofInt m / ofInt k).toRat = unitsOfCode (nearestCode (ofInt m).units k) / pow2 1074
  := by
  rw [toRat_eq_magnitude, negative_div (negative_ofInt m) (negative_ofInt k),
    if_neg Bool.false_ne_true, magnitude, units, ofInt_div_ofInt k_pos k_le m_le,
    code_ofCode false (nearestCode_lt _ _)]

/-- The quotient of natural numbers grows with the dividend. -/
theorem toRat_ofInt_div_mono (le : m ≤ n) (n_le : n ≤ maxFinite) :
  (ofInt m / ofInt k).toRat ≤ (ofInt n / ofInt k).toRat
  := by
  rw [toRat_ofInt_div k_pos k_le (le.trans n_le), toRat_ofInt_div k_pos k_le n_le]
  apply div_le_div_of_nonneg_right _ (pow2_pos_rat 1074).le
  apply Nat.cast_le.mpr
  apply strictMono_unitsOfCode.monotone
  apply nearestCode_mono k_pos k_pos
  apply Nat.mul_le_mul_right
  apply strictMono_unitsOfCode.monotone (code_ofInt_le le)

/-- The quotient of a multiple by the divisor is exact. -/
theorem toRat_ofInt_mul_div (le : n * k ≤ pow2 53) :
  (ofInt (n * k : Nat) / ofInt k).toRat = n
  := by
  have n_le : n ≤ pow2 53 := (Nat.le_mul_of_pos_right n k_pos).trans le
  have exact_eq := units_ofInt_of_le n_le
  rw [units, code_ofInt, Int.natAbs_natCast] at exact_eq
  have code_eq : nearestCode (n * k * pow2 1074) k = nearestCode (n * pow2 1074) 1 := by
    apply nearestCode_congr k_pos Nat.one_pos
    ring
  rw [toRat_ofInt_div k_pos k_le (le.trans (pow2_le_maxFinite (by decide))),
    units_ofInt_of_le le, code_eq, exact_eq, Nat.cast_mul, mul_div_cancel_right₀ _ (pow2_pos_rat 1074).ne']

omit k_le in
/-- A quotient of up to `2 ^ 53` parts differs by less than one part from the exact one. -/
theorem abs_toRat_ofInt_div_sub_lt (k_le_m : k ≤ m) (m_le : m ≤ pow2 53) :
  |(ofInt m / ofInt k).toRat - m / k| < 1 / k
  := by
  have finite_le : pow2 53 ≤ maxFinite := pow2_le_maxFinite (by decide)
  have normal : pow2 52 * k ≤ m * pow2 1074 := by
    rw [Nat.mul_comm]
    apply Nat.mul_le_mul k_le_m (pow2_le (by decide))
  have finite := isFinite_ofInt_div k_pos (k_le_m.trans m_le) (m_le.trans finite_le)
  rw [ofInt_div_ofInt k_pos (k_le_m.trans m_le) (m_le.trans finite_le), isFinite,
    code_ofCode false (nearestCode_lt _ _)] at finite
  rw [toRat_ofInt_div k_pos (k_le_m.trans m_le) (m_le.trans finite_le)]
  rw [units_ofInt_of_le m_le] at finite ⊢
  obtain ⟨above, below⟩ := unitsOfCode_nearestCode_near k_pos normal (of_decide_eq_true finite)
  generalize unitsOfCode (nearestCode (m * pow2 1074) k) = u at *
  apply abs_div_sub_lt k_pos (pow2_pos 1074) (pow2_pos 53) above below m_le

end Tariff.Binary64
