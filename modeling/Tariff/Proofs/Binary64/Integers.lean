import Tariff.Binary64.Integer
import Tariff.Proofs.Binary64.RoundedValues
import Tariff.Proofs.Binary64.Texts

/-!
# Integers

An integer has a number of its value exactly if it has 53 bits up to a power of two; any other one
becomes the number of an integer next to it.  A 64-bit integer therefore comes back from the number
nearest to it if it is such an integer, or the largest of all, to which the number of a larger one
is clamped.  The decimal text of an integer denotes the number nearest to the integer.
-/

namespace Tariff.Binary64

variable {n : Int}

/-- An integer of 53 bits, up to its sign and a power of two. -/
def IsShort (n : Int) : Prop :=
  ∃ significand shift : Nat, significand < pow2 53 ∧ n.natAbs = significand * pow2 shift

/-- Integers of 53 bits are short. -/
theorem isShort_of_lt (lt : n.natAbs < pow2 53) :
  IsShort n
  := ⟨n.natAbs, 0, lt, (Nat.mul_one _).symm⟩

/-- The opposite of a short integer is short. -/
theorem isShort_neg_iff :
  IsShort (-n) ↔ IsShort n
  := by
  rw [IsShort, IsShort, Int.natAbs_neg]

/-- Odd integers of more bits are not short. -/
theorem not_isShort_of_odd (odd : n.natAbs % 2 = 1) (ge : pow2 53 ≤ n.natAbs) :
  ¬ IsShort n
  := by
  rintro ⟨significand, shift, lt, natAbs_eq⟩
  cases shift with
  | zero =>
    have one : pow2 0 = 1 := rfl
    rw [one, Nat.mul_one] at natAbs_eq
    omega
  | succ shift =>
    rw [natAbs_eq, pow2_succ, Nat.mul_left_comm, Nat.mul_mod_right] at odd
    cases odd

/-! ### Values -/

/-- A short natural number is not changed. -/
theorem rounded_shifted {significand shift : Nat} (lt : significand < pow2 53)
    (shift_le : shift ≤ 971) :
  rounded (significand * pow2 shift : Nat) = (significand * pow2 shift : Nat)
  := by
  rcases Nat.eq_zero_or_pos significand with rfl | pos
  · rw [Nat.zero_mul, Nat.cast_zero, rounded_zero]
  · have units_eq : ((significand * pow2 shift : Nat) : ℚ) * pow2 1074 * (1 : Nat) =
        (significand * pow2 shift * pow2 1074 : Nat) := by
      rw [Nat.cast_one, mul_one, ← Nat.cast_mul]
    rw [rounded_of_nonneg (Nat.cast_nonneg _) Nat.one_pos units_eq,
      unitsOfCode_nearestCode pos lt shift_le, Nat.cast_mul (significand * pow2 shift),
      mul_div_cancel_right₀ _ (pow2_pos_rat 1074).ne']

/-- A natural number is rounded to a short integer. -/
theorem exists_rounded_natCast_eq (n : Nat) :
  ∃ m : Int, IsShort m ∧ rounded n = m
  := by
  rcases Nat.lt_or_ge n (pow2 53) with lt | ge
  · exact ⟨n, isShort_of_lt lt, rounded_natCast lt.le⟩
  · have units_eq : (n : ℚ) * pow2 1074 * (1 : Nat) = (n * pow2 1074 : Nat) := by
      rw [Nat.cast_one, mul_one, ← Nat.cast_mul]
    have unit_pos := pow2_pos_rat 1074
    have value_eq := rounded_of_nonneg (Nat.cast_nonneg n) Nat.one_pos units_eq
    have value_ge : (pow2 53 : ℚ) ≤ rounded n := by
      rw [← rounded_natCast le_rfl]
      exact rounded_mono (Nat.cast_le.mpr ge)
    generalize nearestCode (n * pow2 1074) 1 = code at *
    obtain ⟨-, -, significand_lt⟩ := eq_block code
    have units_ge : pow2 53 * pow2 1074 ≤ significandOfCode code * pow2 (shiftOfCode code) := by
      rw [value_eq, le_div_iff₀ unit_pos] at value_ge
      exact_mod_cast value_ge
    -- The significand alone does not reach that far.
    have unit_lt : pow2 1074 < pow2 (shiftOfCode code) := by
      apply Nat.lt_of_mul_lt_mul_left (a := pow2 53)
      exact units_ge.trans_lt (Nat.mul_lt_mul_of_pos_right significand_lt (pow2_pos _))
    obtain ⟨shift, shift_eq⟩ := Nat.exists_eq_add_of_le' (le_of_pow2_le unit_lt.le)
    refine ⟨(significandOfCode code * pow2 shift : Nat), ⟨_, shift, significand_lt, rfl⟩, ?_⟩
    rw [value_eq, unitsOfCode, shift_eq, pow2_add, ← Nat.mul_assoc, Nat.cast_mul _ (pow2 1074),
      mul_div_cancel_right₀ _ unit_pos.ne', Int.cast_natCast]

/-- An integer is rounded to a short one. -/
theorem exists_rounded_intCast_eq (n : Int) :
  ∃ m : Int, IsShort m ∧ rounded n = m
  := by
  obtain ⟨magnitude, rfl | rfl⟩ := n.eq_nat_or_neg
  · exact exists_rounded_natCast_eq magnitude
  · obtain ⟨m, isShort, rounded_eq⟩ := exists_rounded_natCast_eq magnitude
    refine ⟨-m, isShort_neg_iff.mpr isShort, ?_⟩
    rw [Int.cast_neg, Int.cast_natCast, rounded_neg, rounded_eq, Int.cast_neg]

/-- An integer keeps its value exactly if it is short. -/
theorem rounded_intCast_eq_iff (le : n.natAbs ≤ pow2 971) :
  rounded n = n ↔ IsShort n
  := by
  constructor
  · intro kept
    obtain ⟨m, isShort, rounded_eq⟩ := exists_rounded_intCast_eq n
    rw [rounded_eq, Int.cast_inj] at kept
    rwa [← kept]
  · rintro ⟨significand, shift, lt, natAbs_eq⟩
    have kept : rounded n.natAbs = n.natAbs := by
      rcases Nat.eq_zero_or_pos significand with rfl | pos
      · rw [natAbs_eq, Nat.zero_mul, Nat.cast_zero, rounded_zero]
      · have shift_le : shift ≤ 971 := by
          apply le_of_pow2_le
          rw [natAbs_eq] at le
          exact (Nat.le_mul_of_pos_left _ pos).trans le
        rw [natAbs_eq, rounded_shifted lt shift_le]
    rcases n.natAbs_eq with eq | eq
    · rw [eq, Int.cast_natCast, kept]
    · rw [eq, Int.cast_neg, Int.cast_natCast, rounded_neg, kept]

/-! ### There and back -/

/-- The number of an integer is an integer. -/
theorem cast_roundToInt_ofInt (n : Int) :
  ((ofInt n).roundToInt : ℚ) = rounded n
  := by
  obtain ⟨m, -, rounded_eq⟩ := exists_rounded_intCast_eq n
  rw [cast_roundToInt, (isNearest_ofInt n).toRat_eq, rounded_eq]
  apply roundAway_of_near
  norm_num

/-- The number of an integer is a short integer. -/
theorem isShort_roundToInt_ofInt (n : Int) :
  IsShort (ofInt n).roundToInt
  := by
  obtain ⟨m, isShort, rounded_eq⟩ := exists_rounded_intCast_eq n
  rw [← cast_roundToInt_ofInt, Int.cast_inj] at rounded_eq
  rwa [rounded_eq]

/-- An integer comes back from its number exactly if it is short. -/
theorem roundToInt_ofInt_eq_iff (le : n.natAbs ≤ pow2 971) :
  (ofInt n).roundToInt = n ↔ IsShort n
  := by
  rw [← rounded_intCast_eq_iff le, ← cast_roundToInt_ofInt, Int.cast_inj]

/-- Of two integers the larger one comes back as the larger one. -/
theorem roundToInt_ofInt_mono {m n : Int} (le : m ≤ n) :
  (ofInt m).roundToInt ≤ (ofInt n).roundToInt
  := by
  have le_rounded : rounded m ≤ rounded n := rounded_mono (Int.cast_le.mpr le)
  rwa [← cast_roundToInt_ofInt, ← cast_roundToInt_ofInt, Int.cast_le] at le_rounded

/-! ### 64-bit integers -/

/-- A 64-bit integer comes back from its number if it is short, and so does the largest one. -/
theorem toInt64_ofInt64_eq_iff (n : Int64) :
  (ofInt64 n).toInt64 = n ↔ n = Int64.maxValue ∨ IsShort n.toInt
  := by
  have short_iff := roundToInt_ofInt_eq_iff ((natAbs_toInt_le n).trans (pow2_le (by decide)))
  constructor
  · intro kept
    have clamped := congrArg Int64.toInt kept
    rw [toInt64, ofInt64, toInt_nearestInt64] at clamped
    have isShort := isShort_roundToInt_ofInt n.toInt
    rcases lt_or_ge Int64.maxValue.toInt (ofInt n.toInt).roundToInt with above | not_above
    · left
      apply Int64.toInt_inj.mp
      rw [← clamped, min_eq_right above.le]
      decide
    · right
      rw [min_eq_left not_above] at clamped
      rcases lt_or_ge (ofInt n.toInt).roundToInt Int64.minValue.toInt with below | not_below
      · rw [← clamped, max_eq_left below.le]
        exact ⟨1, 63, by decide, by decide⟩
      · rw [max_eq_right not_below] at clamped
        rwa [← clamped]
  · rintro (rfl | isShort)
    · decide +kernel
    · rw [toInt64, ofInt64, short_iff.mpr isShort, nearestInt64_toInt]

/-- Of two 64-bit integers the larger one comes back as the larger one. -/
theorem toInt64_ofInt64_mono {m n : Int64} (le : m ≤ n) :
  (ofInt64 m).toInt64 ≤ (ofInt64 n).toInt64
  := by
  rw [Int64.le_iff_toInt_le] at le ⊢
  rw [toInt64, toInt64, ofInt64, ofInt64, toInt_nearestInt64, toInt_nearestInt64]
  have le_round := roundToInt_ofInt_mono le
  omega

/-! ### Texts -/

/-- The decimal without places that is an integer denotes the number nearest to it. -/
theorem ofDecimal_natAbs (le : n.natAbs ≤ maxFinite) :
  ofDecimal (n < 0) n.natAbs 0 = ofInt n
  := by
  have units_eq : |(n : ℚ)| * pow2 1074 * (1 : Nat) = (n.natAbs * pow2 1074 : Nat) := by
    rw [Nat.cast_one, mul_one, Nat.cast_mul, Nat.cast_natAbs, Int.cast_abs]
  have units_eq' : |((n.natAbs * pow10 0 : Nat) : ℚ)| * pow2 1074 * (1 : Nat) =
      (n.natAbs * pow2 1074 : Nat) := by
    have one : pow10 0 = 1 := rfl
    rw [one, Nat.mul_one, Nat.abs_cast, Nat.cast_one, mul_one, Nat.cast_mul]
  rw [ofInt, nearest_eq Nat.one_pos units_eq]
  unfold ofDecimal
  dsimp only
  rcases Nat.eq_zero_or_pos n.natAbs with none | pos
  · rw [if_pos (by simp [none]), none, Nat.zero_mul, nearestCode_zero Nat.one_pos]
    rfl
  · have length_le : (Text.numeral n.natAbs).length + 0 ≤ 310 := by
      apply length_numeral_add_le pos
      apply (Nat.mul_one _).le.trans_lt (le.trans_lt _)
      decide +kernel
    rw [if_neg (by simp; omega), if_neg (by omega), if_neg (by decide)]
    exact nearest_eq Nat.one_pos units_eq'

/-- The decimal text of an integer denotes the number nearest to it. -/
theorem ofText_integer (le : n.natAbs ≤ maxFinite) :
  ofText (Json.Number.integer n).toText = ofInt n
  := by
  have finite : (ofInt n).isFinite = true := by
    apply (isNearest_ofInt n).isFinite
    rw [← Int.cast_abs, ← Int.natCast_natAbs, Int.cast_natCast]
    exact Nat.cast_le.mpr le
  have form_eq : (Json.WrittenNumeral.ofNat n.natAbs none (by simp)).form = ⟨n.natAbs, 0⟩ := by
    simp [Json.WrittenNumeral.form, Json.WrittenNumeral.ofNat]
  rw [Json.Number.toText, Json.Number.chars_integer, ofText_written, form_eq, ofDecimal_natAbs le,
    finitePart_of_isFinite finite]

/-- The decimal text of a 64-bit integer denotes the number nearest to it. -/
theorem ofText_int64 (n : Int64) :
  ofText (Json.Number.integer n.toInt).toText = ofInt64 n
  := ofText_integer (natAbs_toInt_le_maxFinite n)

end Tariff.Binary64
