import Tariff.Quota.Compact
import Tariff.Proofs.Binary64.Quotients
import Tariff.Proofs.Rounding

/-!
# Units of compact magnitudes

A magnitude is shown as a number of tenths of the unit that it reaches.  Where one unit gives way to
the next, both show the magnitude as it is, and within a unit the number shown grows with the
magnitude; therefore it grows altogether.  It is off by up to half a tenth of the unit: what the
quotient is off is less than one, and there is no integer between half a tenth and one more.
-/

namespace Tariff

/-- A unit of compact magnitudes, and one for magnitudes that are shown in full. -/
inductive CompactUnit where
  | ones
  | thousands
  | millions
  | billions
deriving DecidableEq, Repr

namespace CompactUnit

/-- What the unit stands for. -/
def size : CompactUnit → Nat
  | ones => 1
  | thousands => 1000
  | millions => 1000000
  | billions => 1000000000

/-- What is written behind a number of units. -/
def letter : CompactUnit → List Char
  | ones => []
  | thousands => ['k']
  | millions => ['M']
  | billions => ['B']

/-- The smallest magnitude in the unit. -/
def start : CompactUnit → Nat
  | ones => 0
  | thousands => 10000
  | millions => 1000000
  | billions => 1000000000

/-- The unit of a magnitude. -/
def reached (magnitude : Nat) : CompactUnit :=
  if magnitude < 10000 then ones
  else if magnitude < 1000000 then thousands
  else if magnitude < 1000000000 then millions
  else billions

/-- The unit among those of compact magnitudes. -/
def listed? : CompactUnit → Option (Binary64 × Binary64 × String)
  | ones => none
  | thousands => some (10000, 1000, "k")
  | millions => some (1000000, 1000000, "M")
  | billions => some (1000000000, 1000000000, "B")

variable {unit : CompactUnit} {m n : Nat}

/-! ### Sizes -/

/-- A unit is at least one. -/
theorem size_pos (unit : CompactUnit) :
  0 < unit.size
  := by
  cases unit <;> decide

/-- The size of a unit has 53 bits at most. -/
theorem size_le (unit : CompactUnit) :
  unit.size ≤ pow2 53
  := by
  cases unit <;> decide

/-- Units have different letters. -/
theorem letter_injective :
  Function.Injective letter
  := by
  intro u u' letter_eq
  cases u <;> cases u' <;> first | rfl | cases letter_eq

/-- The letter of a unit is neither a minus sign nor a digit. -/
theorem ne_minus_of_mem_letter (unit : CompactUnit) :
  ∀ c ∈ unit.letter, c ≠ '-' ∧ c.isDigit = false
  := by
  cases unit <;> simp [letter]

/-- The smallest magnitude in a unit has 53 bits at most. -/
theorem start_le (unit : CompactUnit) :
  unit.start ≤ pow2 53
  := by
  cases unit <;> decide

/-- A unit starts with a number of units. -/
theorem size_dvd_start (unit : CompactUnit) :
  unit.size ∣ unit.start
  := by
  cases unit <;> decide

/-- A magnitude is at least the smallest in its unit. -/
theorem start_reached_le (n : Nat) :
  (reached n).start ≤ n
  := by
  unfold reached
  split_ifs
  all_goals dsimp only [start]; omega

/-- A magnitude in another unit than a larger one is below the smallest in the unit of that. -/
theorem lt_start_reached (le : m ≤ n) (other : reached m ≠ reached n) :
  m < (reached n).start
  := by
  unfold reached at *
  split_ifs at *
  all_goals first | exact absurd rfl other | dsimp only [start]; omega

/-- A magnitude that is shown in full has up to four digits. -/
theorem lt_of_reached_eq_ones (full : reached n = ones) :
  n < 10000
  := by
  unfold reached at full
  split_ifs at full
  assumption

/-- The unit of a larger magnitude is a number of units of a smaller one. -/
theorem size_reached_dvd (le : m ≤ n) :
  (reached m).size ∣ (reached n).size
  := by
  unfold reached
  split_ifs
  all_goals first | omega | decide

/-! ### The unit that is found -/

/-- The first of three units that a number reaches. -/
theorem find?_reached (x a b c size size' size'' : Binary64) (s s' s'' : String) :
  [(a, size, s), (b, size', s'), (c, size'', s'')].find? (fun unit => !decide (x < unit.1)) =
    if x < a then
      if x < b then if x < c then none else some (c, size'', s'') else some (b, size', s')
    else some (a, size, s)
  := by
  simp only [List.find?_cons, List.find?_nil]
  grind

/-- The first unit that a natural number reaches. -/
theorem reachedUnit?_ofInt (magnitude : Nat) :
  Quota.reachedUnit? (Binary64.ofInt magnitude) = (reached magnitude).listed?
  := by
  have thousands : Binary64.ofInt magnitude < 10000 ↔ magnitude < 10000 :=
    Binary64.ofInt_lt_ofInt_iff (by decide)
  have millions : Binary64.ofInt magnitude < 1000000 ↔ magnitude < 1000000 :=
    Binary64.ofInt_lt_ofInt_iff (by decide)
  have billions : Binary64.ofInt magnitude < 1000000000 ↔ magnitude < 1000000000 :=
    Binary64.ofInt_lt_ofInt_iff (by decide)
  unfold Quota.reachedUnit? Quota.compactUnits reached
  rw [find?_reached]
  simp only [thousands, millions, billions]
  split_ifs
  all_goals first | omega | rfl

/-! ### Numbers of tenths -/

/-- The number that is shown for a magnitude in a unit. -/
def rounded (unit : CompactUnit) (magnitude : Nat) : ℚ :=
  roundAway 1 (Binary64.ofInt magnitude / Binary64.ofInt unit.size).toRat * unit.size

/-- The number shown in a unit grows with the magnitude. -/
theorem rounded_mono (le : m ≤ n) (n_le : n ≤ Binary64.maxFinite) :
  unit.rounded m ≤ unit.rounded n
  := by
  apply mul_le_mul_of_nonneg_right _ (Nat.cast_nonneg _)
  apply roundAway_mono
  · apply Binary64.toRat_ofInt_div_nonneg
  · apply Binary64.toRat_ofInt_div_mono unit.size_pos unit.size_le le n_le

/-- A number of units is shown as it is. -/
theorem rounded_of_dvd (whole : unit.size ∣ n) (le : n ≤ pow2 53) :
  unit.rounded n = n
  := by
  obtain ⟨count, rfl⟩ := whole
  rw [Nat.mul_comm] at le ⊢
  rw [rounded, Binary64.toRat_ofInt_mul_div unit.size_pos unit.size_le le, roundAway_natCast,
    Nat.cast_mul]

/-- The tenths of a unit are off by up to half a tenth, and the quotient by less than one of the
magnitude. -/
theorem abs_rounded_sub_lt (reaches : unit.size ≤ n) (le : n ≤ pow2 53) :
  |unit.rounded n - n| < unit.size / 20 + 1
  := by
  have size_rat : (0 : ℚ) < unit.size := Nat.cast_pos.mpr unit.size_pos
  have ten : (pow10 1 : ℚ) = 10 := by norm_num [pow10]
  have quotient_near := Binary64.abs_toRat_ofInt_div_sub_lt unit.size_pos reaches le
  have tenth_near := abs_roundAway_sub_le 1 (Binary64.toRat_ofInt_div_nonneg n unit.size)
  rw [rounded]
  generalize (Binary64.ofInt n / Binary64.ofInt unit.size).toRat = quotient at *
  generalize roundAway 1 quotient = tenths at *
  have difference_eq : tenths * unit.size - n =
      (tenths - quotient) * unit.size + (quotient - n / unit.size) * unit.size := by
    field_simp
    ring
  calc |tenths * unit.size - n|
      ≤ |(tenths - quotient) * unit.size| + |(quotient - n / unit.size) * unit.size| := by
        rw [difference_eq]
        apply abs_add_le
    _ = |tenths - quotient| * unit.size + |quotient - n / unit.size| * unit.size := by
        rw [abs_mul, abs_mul, abs_of_pos size_rat]
    _ < 1 / (2 * pow10 1) * unit.size + 1 / unit.size * unit.size := by
        apply add_lt_add_of_le_of_lt
        · apply mul_le_mul_of_nonneg_right tenth_near size_rat.le
        · apply mul_lt_mul_of_pos_right quotient_near size_rat
    _ = unit.size / 20 + 1 := by
        rw [one_div_mul_cancel size_rat.ne', ten]
        ring

/-- The number shown in a unit that has whole tenths is an integer. -/
theorem exists_rounded_eq (n : Nat) {half : Nat} (halves : unit.size = 20 * half) :
  ∃ number : ℤ, unit.rounded n = number
  := by
  obtain ⟨tenths, tenths_eq⟩ :=
    exists_roundAway_eq 1 (Binary64.toRat_ofInt_div_nonneg n unit.size)
  have ten : (pow10 1 : ℚ) = 10 := by norm_num [pow10]
  use tenths * (2 * half)
  rw [rounded, tenths_eq, halves, ten]
  push_cast
  ring

/-- The number shown in a unit is off by up to half a tenth of it. -/
theorem abs_rounded_sub_le (halves : 20 ∣ unit.size) (reaches : unit.size ≤ n)
    (le : n ≤ pow2 53) :
  |unit.rounded n - n| ≤ unit.size / 20
  := by
  obtain ⟨half, size_eq⟩ := halves
  have half_eq : (unit.size : ℚ) / 20 = half := by
    rw [size_eq, Nat.cast_mul, Nat.cast_ofNat, mul_div_cancel_left₀ _ (by norm_num)]
  have near := abs_rounded_sub_lt reaches le
  obtain ⟨number, number_eq⟩ := exists_rounded_eq n size_eq
  rw [number_eq, half_eq] at near ⊢
  -- No integer lies between half a tenth and one more.
  have integer_near : |number - n| < half + 1 := by
    exact_mod_cast near
  have integer_le := Int.lt_add_one_iff.mp integer_near
  exact_mod_cast integer_le

/-! ### The unit that is reached -/

/-- The number that is shown for a magnitude. -/
def shown (magnitude : Nat) : ℚ :=
  (reached magnitude).rounded magnitude

/-- The number that is shown is not negative. -/
theorem shown_nonneg (n : Nat) :
  0 ≤ shown n
  := by
  obtain ⟨tenths, tenths_eq⟩ :=
    exists_roundAway_eq 1 (Binary64.toRat_ofInt_div_nonneg n (reached n).size)
  rw [shown, rounded, tenths_eq]
  apply mul_nonneg (div_nonneg (Nat.cast_nonneg _) (Nat.cast_nonneg _)) (Nat.cast_nonneg _)

/-- The number that is shown grows with the magnitude. -/
theorem shown_mono (le : m ≤ n) (n_le : n ≤ Binary64.maxFinite) :
  shown m ≤ shown n
  := by
  by_cases same : reached m = reached n
  · rw [shown, shown, same]
    apply rounded_mono le n_le
  · -- The smallest magnitude in the larger unit lies in between, and either unit shows it as it is.
    have lt_start := lt_start_reached le same
    have start_le_n := start_reached_le n
    have short := start_le (reached n)
    have whole := size_dvd_start (reached n)
    generalize (reached n).start = start at *
    calc shown m ≤ (reached m).rounded start := rounded_mono lt_start.le (start_le_n.trans n_le)
      _ = start := rounded_of_dvd ((size_reached_dvd le).trans whole) short
      _ = (reached n).rounded start := (rounded_of_dvd whole short).symm
      _ ≤ shown n := rounded_mono start_le_n n_le

/-- A magnitude of up to four digits is shown as it is. -/
theorem shown_of_lt (short : n < 10000) :
  shown n = n
  := by
  have unit_eq : reached n = ones := if_pos short
  rw [shown, unit_eq]
  apply rounded_of_dvd (Nat.one_dvd n)
  apply short.le.trans (by decide)

/-- No magnitude but zero is shown as zero. -/
theorem shown_eq_zero_iff (n_le : n ≤ Binary64.maxFinite) :
  shown n = 0 ↔ n = 0
  := by
  rcases Nat.eq_zero_or_pos n with rfl | pos
  · simp [shown_of_lt]
  · have one_eq := shown_of_lt (by decide : 1 < 10000)
    have one_le := one_eq.ge.trans (shown_mono pos n_le)
    rw [Nat.cast_one] at one_le
    simp [(one_pos.trans_le one_le).ne', pos.ne']

/-- The number that is shown is off by up to half a tenth of the unit. -/
theorem abs_shown_sub_le (long : 10000 ≤ n) (le : n ≤ pow2 53) :
  |shown n - n| ≤ (reached n).size / 20
  := by
  apply abs_rounded_sub_le _ _ le
  · unfold reached
    split_ifs
    all_goals first | omega | decide
  · unfold reached
    split_ifs
    all_goals first | omega | dsimp only [size]; omega

end CompactUnit

end Tariff
