import Tariff.Binary64.Arithmetic
import Tariff.Proofs.Binary64.Nearest
import Tariff.Proofs.FixedText
import Tariff.Proofs.Rounding

/-!
# Rounded arithmetic

The result of an operation has the code that is nearest to the exact result in units, a quotient of
whole numbers.  Products grow with their factors, and quotients by one and more do not exceed what
is divided.
-/

namespace Tariff.Binary64

variable {x y : Binary64}

/-! ### Sign and code -/

/-- A number is made up of its sign and its code. -/
theorem ofCode_code (x : Binary64) :
  ofCode x.negative x.code = x
  := by
  obtain ⟨bits⟩ := x
  have lt := bits.toNat_lt
  have p63 : pow2 63 = 9223372036854775808 := rfl
  have all : (if (Binary64.mk bits).negative = true then pow2 63 + (Binary64.mk bits).code
      else (Binary64.mk bits).code) = bits.toNat := by
    simp only [negative, code, p63, decide_eq_true_eq]
    split <;> omega
  rw [ofCode, all, UInt64.ofNat_toNat]

/-- The codes that are nearest to something are those of numbers. -/
theorem nearestCode_lt (n d : Nat) :
  nearestCode n d < pow2 63
  := Nat.lt_of_le_of_lt (nearestCode_le n d) (by decide)

/-- The number nearest to a rational has the code that is nearest to its magnitude in units. -/
theorem nearest_eq {negative : Bool} {q : ℚ} {n d : Nat} (d_pos : 0 < d)
    (eq : |q| * pow2 1074 * d = n) :
  nearest negative q = ofCode negative (nearestCode n d)
  := by
  have den_ne : (q.den : ℚ) ≠ 0 := Nat.cast_ne_zero.mpr q.den_nz
  rw [abs_eq_div] at eq
  field_simp at eq
  rw [nearest]
  apply congrArg (ofCode negative)
  apply nearestCode_congr q.den_pos d_pos
  rw [Nat.mul_comm n]
  exact_mod_cast eq

/-- The code of the number nearest to a rational is nearest to its magnitude in units. -/
theorem code_nearest {negative : Bool} {q : ℚ} {n d : Nat} (d_pos : 0 < d)
    (eq : |q| * pow2 1074 * d = n) :
  (nearest negative q).code = nearestCode n d
  := by
  rw [nearest_eq d_pos eq, code_ofCode negative (nearestCode_lt n d)]

/-! ### Operations -/

/-- An integer becomes the number with the code nearest to it. -/
theorem code_ofInt (n : Int) :
  (ofInt n).code = nearestCode (n.natAbs * pow2 1074) 1
  := by
  apply code_nearest Nat.one_pos
  rw [Nat.cast_mul, Nat.cast_natAbs, Int.cast_abs, Nat.cast_one, mul_one]

/-- The product of finite numbers has the code nearest to the exact product. -/
theorem code_mul (finite : x.isFinite = true) (finite' : y.isFinite = true) :
  (x * y).code = nearestCode (x.units * y.units) (pow2 1074)
  := by
  have mul_eq : x * y = nearest (x.negative != y.negative) (x.toRat * y.toRat) := by
    change mul x y = _
    simp [mul, finite, finite']
  rw [mul_eq]
  apply code_nearest (pow2_pos 1074)
  have pos := pow2_pos_rat 1074
  rw [abs_mul, abs_toRat, abs_toRat, magnitude, magnitude]
  push_cast
  generalize (pow2 1074 : ℚ) = p at *
  field_simp

/-- The quotient of finite numbers is the number nearest to the exact quotient. -/
theorem div_eq (finite : x.isFinite = true) (finite' : y.isFinite = true) (pos : 0 < y.units) :
  x / y = ofCode (x.negative != y.negative) (nearestCode (x.units * pow2 1074) y.units)
  := by
  have y_ne : y.isZero = false := by
    rw [isZero, decide_eq_false_iff_not]
    intro zero
    rw [units, zero] at pos
    cases pos
  have not_nan {z : Binary64} (finite : z.isFinite = true) : z.isNaN = false := by
    simp only [isFinite, isNaN, decide_eq_true_eq, decide_eq_false_iff_not] at finite ⊢
    omega
  have exact_eq : x / y = nearest (x.negative != y.negative) (x.toRat / y.toRat) := by
    change div x y = _
    simp [div, finite, finite', y_ne, not_nan finite, not_nan finite']
  rw [exact_eq]
  apply nearest_eq pos
  have pow_pos := pow2_pos_rat 1074
  have units_pos : (0 : ℚ) < y.units := Nat.cast_pos.mpr pos
  rw [abs_div, abs_toRat, abs_toRat, magnitude, magnitude]
  push_cast
  generalize (pow2 1074 : ℚ) = p at *
  field_simp

/-- The quotient of finite numbers has the code nearest to the exact quotient. -/
theorem code_div (finite : x.isFinite = true) (finite' : y.isFinite = true) (pos : 0 < y.units) :
  (x / y).code = nearestCode (x.units * pow2 1074) y.units
  := by
  rw [div_eq finite finite' pos, code_ofCode _ (nearestCode_lt _ _)]

/-- A natural number becomes a number without a sign. -/
theorem negative_ofInt (n : Nat) :
  (ofInt n).negative = false
  := by
  have not_negative : ¬ (n : Int) < 0 := by omega
  rw [ofInt, decide_eq_false not_negative]
  apply negative_ofCode false (nearestCode_lt _ _)

/-- A natural number becomes the number without a sign that has the code nearest to it. -/
theorem ofInt_natCast (n : Nat) :
  ofInt n = ofCode false (nearestCode (n * pow2 1074) 1)
  := by
  have code_eq := code_ofInt n
  rw [Int.natAbs_natCast] at code_eq
  rw [← code_eq, ← negative_ofInt n, ofCode_code]

/-- A number divided by itself is one. -/
theorem div_self (finite : x.isFinite = true) (pos : 0 < x.units) :
  x / x = 1
  := by
  have one_eq : ofCode false (nearestCode (1 * pow2 1074) 1) = 1 := (ofInt_natCast 1).symm
  have same_sign : (x.negative != x.negative) = false := bne_self_eq_false _
  have same_value : nearestCode (x.units * pow2 1074) x.units = nearestCode (1 * pow2 1074) 1 := by
    apply nearestCode_congr pos Nat.one_pos
    ring
  rw [div_eq finite finite pos, same_sign, same_value, one_eq]

/-! ### Integers of 53 bits -/

/-- Numbers of 53 bits that are shifted to the left are the magnitudes of the codes nearest to
them. -/
theorem unitsOfCode_nearestCode {m k : Nat} (pos : 0 < m) (short : m < pow2 53) (k_le : k ≤ 971) :
  unitsOfCode (nearestCode (m * pow2 k * pow2 1074) 1) = m * pow2 k * pow2 1074
  := by
  have log_lt : Nat.log2 m < 53 := (Nat.log2_lt pos.ne').mpr short
  -- The leading bit is shifted to its place in the significand.
  have normal : pow2 52 ≤ m * pow2 (52 - Nat.log2 m) := by
    calc pow2 52 = pow2 (Nat.log2 m) * pow2 (52 - Nat.log2 m) := by
          rw [← pow2_add, Nat.add_sub_cancel' (Nat.le_of_lt_succ log_lt)]
      _ ≤ m * pow2 (52 - Nat.log2 m) := Nat.mul_le_mul_right _ (Nat.log2_self_le pos.ne')
  have r_le : m * pow2 (52 - Nat.log2 m) ≤ pow2 53 := by
    have exponents : Nat.log2 m + 1 + (52 - Nat.log2 m) = 53 := by omega
    calc m * pow2 (52 - Nat.log2 m) ≤ pow2 (Nat.log2 m + 1) * pow2 (52 - Nat.log2 m) :=
          Nat.mul_le_mul_right _ (Nat.lt_log2_self).le
      _ = pow2 53 := by rw [← pow2_add, exponents]
  have units_eq : unitsOfCode ((1022 + Nat.log2 m + k) * pow2 52 + m * pow2 (52 - Nat.log2 m)) =
      m * pow2 k * pow2 1074 := by
    have exponents : 52 - Nat.log2 m + (1022 + Nat.log2 m + k) = k + 1074 := by omega
    rw [unitsOfCode_block (.inl normal) r_le, Nat.mul_assoc, ← pow2_add, exponents, pow2_add,
      Nat.mul_assoc]
  have code_le : (1022 + Nat.log2 m + k) * pow2 52 + m * pow2 (52 - Nat.log2 m) ≤ infinityCode := by
    have exponent_le : (1022 + Nat.log2 m + k) * pow2 52 ≤ 2045 * pow2 52 :=
      Nat.mul_le_mul_right _ (by omega)
    exact (Nat.add_le_add exponent_le r_le).trans (by decide)
  rw [← units_eq, nearestCode_unitsOfCode code_le]

/-- Natural numbers of 53 bits become numbers of the same value. -/
theorem units_ofInt {n : Nat} (pos : 0 < n) (short : n < pow2 53) :
  (ofInt n).units = n * pow2 1074
  := by
  have exact_n := unitsOfCode_nearestCode pos short (Nat.zero_le 971)
  have one : pow2 0 = 1 := rfl
  rw [one, Nat.mul_one] at exact_n
  rw [units, code_ofInt, Int.natAbs_natCast, exact_n]

/-! ### Bounds -/

/-- A quotient by one or more has no larger code. -/
theorem code_div_le (finite : x.isFinite = true) (finite' : y.isFinite = true)
    (one_le : pow2 1074 ≤ y.units) :
  (x / y).code ≤ x.code
  := by
  have pos : 0 < y.units := Nat.lt_of_lt_of_le (pow2_pos 1074) one_le
  have code_le : x.code ≤ infinityCode := by
    simp only [isFinite, decide_eq_true_eq] at finite
    omega
  rw [code_div finite finite' pos]
  exact nearestCode_le_code pos code_le (Nat.mul_le_mul_left x.units one_le)

/-- Products grow with their factors. -/
theorem code_mul_le {x' y' : Binary64} (finite : x.isFinite = true) (finite' : y.isFinite = true)
    (finite_x' : x'.isFinite = true) (finite_y' : y'.isFinite = true) (le : x.units ≤ x'.units)
    (le' : y.units ≤ y'.units) :
  (x * y).code ≤ (x' * y').code
  := by
  rw [code_mul finite finite', code_mul finite_x' finite_y']
  apply nearestCode_mono (pow2_pos 1074) (pow2_pos 1074)
  exact Nat.mul_le_mul_right _ (Nat.mul_le_mul le le')

/-- Of two natural numbers the larger one becomes the larger number. -/
theorem code_ofInt_le {m n : Nat} (le : m ≤ n) :
  (ofInt m).code ≤ (ofInt n).code
  := by
  rw [code_ofInt, code_ofInt]
  apply nearestCode_mono Nat.one_pos Nat.one_pos
  rw [Int.natAbs_natCast, Int.natAbs_natCast, Nat.mul_one, Nat.mul_one]
  exact Nat.mul_le_mul_right _ le

/-- A natural number that does not exceed the largest finite number becomes a finite one. -/
theorem isFinite_ofInt_of_le {n : Nat} (le : n ≤ maxFinite) :
  (ofInt n).isFinite = true
  := by
  apply decide_eq_true
  rw [code_ofInt, Int.natAbs_natCast]
  apply nearestCode_lt_infinityCode Nat.one_pos
  rw [Nat.mul_one]
  exact Nat.mul_le_mul_right _ le

/-- A 64-bit integer has a magnitude of 63 bits, unless it is the least one. -/
theorem natAbs_toInt_le (n : Int64) :
  n.toInt.natAbs ≤ pow2 63
  := by
  have bits : pow2 63 = 2 ^ 63 := rfl
  have lower := n.le_toInt
  have upper := n.toInt_lt
  omega

/-- The magnitude of a 64-bit integer does not exceed the largest finite number. -/
theorem natAbs_toInt_le_maxFinite (n : Int64) :
  n.toInt.natAbs ≤ maxFinite
  := (natAbs_toInt_le n).trans (pow2_le_maxFinite (by decide))

/-- A product that does not exceed the largest finite number is finite. -/
theorem isFinite_mul (finite : x.isFinite = true) (finite' : y.isFinite = true)
    (le : x.units * y.units ≤ maxFinite * pow2 1074 * pow2 1074) :
  (x * y).isFinite = true
  := by
  apply decide_eq_true
  rw [code_mul finite finite']
  exact nearestCode_lt_infinityCode (pow2_pos 1074) le

/-- A natural number grows by no more than its `2 ^ 53`th part when it is converted. -/
theorem units_ofInt_le (n : Nat) :
  (ofInt n).units * pow2 53 ≤ n * pow2 1074 * (pow2 53 + 1)
  := by
  rw [units, code_ofInt, Int.natAbs_natCast]
  rcases Nat.eq_zero_or_pos n with rfl | pos
  · rw [Nat.zero_mul, nearestCode_zero Nat.one_pos, unitsOfCode_zero, Nat.zero_mul]
    apply Nat.zero_le
  · have normal : pow2 52 * 1 ≤ n * pow2 1074 := by
      calc pow2 52 * 1 ≤ pow2 1074 * n :=
            Nat.mul_le_mul (pow2_le (by decide)) pos
        _ = n * pow2 1074 := Nat.mul_comm _ _
    have le := unitsOfCode_nearestCode_le Nat.one_pos normal
    rwa [Nat.mul_one] at le

end Tariff.Binary64
