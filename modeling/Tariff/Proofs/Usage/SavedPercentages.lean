import Tariff.Proofs.Usage.Percentages
import Tariff.Proofs.Usage.StatementForms

/-!
# Saved percentages

A percentage is saved if quota has been charged at a group ratio below one.  The first main statement
compares it with the exact one: it is off by little before it is rounded, so that with quotas of 42
bits only exact halves of a percent can go to the wrong side, which some of them do.  The second one
says when it is a share of the full quota: it never exceeds one hundred, but it is negative if more than
the full quota has been charged and the difference is not rounded away.
-/

namespace Tariff

open Binary64 (percentLeft ofInt lostHalves)

/-! ### Exact percentages -/

/-- The exact percentage of the full quota that is saved by another quota. -/
def exactPercent (quota fullQuota : Quota) : ℚ :=
  100 * (fullQuota.units.toInt - quota.units.toInt) / fullQuota.units.toInt

/-- The number of units of a quota above zero, and the number that the quota becomes. -/
structure Quota.HasCount (q : Quota) (n : Nat) : Prop where
  pos : 0 < n
  lt : n < 2 ^ 63
  units_eq : q.units.toInt = n
  toReal_eq : q.toReal = ofInt n

/-- A quota above zero has a number of units. -/
theorem Quota.exists_hasCount {q : Quota} (pos : 0 < q.units) :
  ∃ n, q.HasCount n
  := by
  have pos_int : 0 < q.units.toInt := Int64.lt_iff_toInt_lt.mp pos
  have lt := q.units.toInt_lt
  obtain ⟨n, n_eq⟩ := Int.eq_ofNat_of_zero_le pos_int.le
  refine ⟨n, by omega, by omega, n_eq, ?_⟩
  rw [toReal, Binary64.ofInt64, n_eq]

variable {quota fullQuota : Quota} {groupRatio : Binary64} {percent : Int64} {m k : Nat}

/-- A percentage is saved if both quotas are above zero and the ratio is below one. -/
theorem isSome_percentSaved_iff :
  (percentSaved quota fullQuota groupRatio).isSome = true ↔
    0 < fullQuota.units ∧ 0 < quota.units ∧ groupRatio < 1
  := by
  rw [percentSaved]
  split
  case isTrue saves => simp [saves]
  case isFalse keeps => simp [keeps]

/-- The percentage that is saved is what is left of the full quota, as a whole number. -/
theorem percentSaved_eq_some (saved : percentSaved quota fullQuota groupRatio = some percent) :
  ∃ m k, quota.HasCount m ∧ fullQuota.HasCount k ∧
    percent = (percentLeft (ofInt m / ofInt k)).toInt64
  := by
  obtain ⟨full_pos, pos, -⟩ := isSome_percentSaved_iff.mp (Option.isSome_of_mem saved)
  obtain ⟨m, m_count⟩ := Quota.exists_hasCount pos
  obtain ⟨k, k_count⟩ := Quota.exists_hasCount full_pos
  rw [percentSaved] at saved
  split at saved
  case isTrue =>
    use m, k, m_count, k_count
    rw [← m_count.toReal_eq, ← k_count.toReal_eq]
    exact (Option.some.inj saved).symm
  case isFalse => cases saved

variable (m_count : quota.HasCount m) (k_count : fullQuota.HasCount k)

include m_count k_count

/-- The exact percentage is told from the numbers of units. -/
theorem exactPercent_eq :
  exactPercent quota fullQuota = 100 * (k - m) / k
  := by
  rw [exactPercent, m_count.units_eq, k_count.units_eq, Int.cast_natCast, Int.cast_natCast]

/-- The percentage is off by little before it is rounded. -/
theorem abs_percentLeft_sub_exactPercent_le :
  |(percentLeft (ofInt m / ofInt k)).toRat - exactPercent quota fullQuota| ≤
    max 1 (quota.units.toInt / fullQuota.units.toInt : ℚ) / 2 ^ 43
  := by
  rw [exactPercent_eq m_count k_count, m_count.units_eq, k_count.units_eq, Int.cast_natCast,
    Int.cast_natCast]
  apply Binary64.abs_percentLeft_sub_le m_count.pos k_count.pos m_count.lt k_count.lt

variable (m_lt : m < 2 ^ 42)

include m_lt

/-- With quotas of 42 bits the percentage is an integer of 64 bits. -/
theorem toInt_percentLeft :
  (percentLeft (ofInt m / ofInt k)).toInt64.toInt = (percentLeft (ofInt m / ofInt k)).roundToInt
  := by
  have near := Binary64.abs_percentLeft_sub_le m_count.pos k_count.pos m_count.lt k_count.lt
  have rounded_eq := (percentLeft (ofInt m / ofInt k)).cast_roundToInt
  have m_rat : (m : ℚ) < 2 ^ 42 := by exact_mod_cast m_lt
  have k_one : (1 : ℚ) ≤ k := Nat.one_le_cast.mpr k_count.pos
  have quotient_le : (m / k : ℚ) ≤ 2 ^ 42 := (div_le_self (Nat.cast_nonneg m) k_one).trans m_rat.le
  have quotient_nonneg : (0 : ℚ) ≤ m / k := div_nonneg (Nat.cast_nonneg m) (by linarith)
  have size_le : max 1 (m / k : ℚ) ≤ 2 ^ 42 := max_le (by norm_num) quotient_le
  have exact_eq : 100 * (k - m) / k = 100 * (1 - m / k : ℚ) := by
    field_simp
  rw [exact_eq] at near
  rw [Binary64.toInt64, toInt_nearestInt64, Int64.toInt_minValue, Int64.toInt_maxValue]
  generalize (percentLeft (ofInt m / ofInt k)).roundToInt = n at *
  generalize (percentLeft (ofInt m / ofInt k)).toRat = value at *
  obtain ⟨low, high⟩ := abs_le.mp near
  -- Rounding does not leave a range that ends in integers.
  have le : value ≤ (2 ^ 60 : Nat) := by
    push_cast
    linarith
  have ge : -((2 ^ 60 : Nat) : ℚ) ≤ value := by
    push_cast
    linarith
  have rounded_le := monotone_roundAway 0 le
  have rounded_ge := monotone_roundAway 0 ge
  rw [roundAway_natCast, ← rounded_eq] at rounded_le
  rw [roundAway_neg, roundAway_natCast, ← rounded_eq] at rounded_ge
  have n_le : n ≤ (2 ^ 60 : Nat) := by exact_mod_cast rounded_le
  have n_ge : -((2 ^ 60 : Nat) : ℤ) ≤ n := by exact_mod_cast rounded_ge
  omega

variable (k_lt : k < 2 ^ 42)

include k_lt

/-- With quotas of 42 bits a percentage that is not halfway between two whole ones is rounded to the
nearest of them. -/
theorem toInt_percentLeft_eq (no_half : ∀ j : ℤ, exactPercent quota fullQuota ≠ j + 1 / 2) :
  ((percentLeft (ofInt m / ofInt k)).toInt64.toInt : ℚ) = roundAway 0 (exactPercent quota fullQuota)
  := by
  rw [exactPercent_eq m_count k_count] at no_half ⊢
  rw [toInt_percentLeft m_count k_count m_lt, Binary64.cast_roundToInt]
  apply Binary64.roundAway_percentLeft m_count.pos k_count.pos m_lt k_lt no_half

omit m_lt k_lt

/-! ### Halves -/

/-- A percentage that is not negative is halfway between two whole ones exactly if an odd number of
two-hundredths is charged. -/
theorem exists_half_iff (le : m ≤ k) :
  (∃ j : ℤ, exactPercent quota fullQuota = j + 1 / 2) ↔
    ∃ i < 100, 200 * m = (2 * i + 1) * k
  := by
  have k_rat : (k : ℚ) ≠ 0 := Nat.cast_ne_zero.mpr k_count.pos.ne'
  rw [exactPercent_eq m_count k_count]
  constructor
  · rintro ⟨j, half⟩
    rw [div_eq_iff k_rat] at half
    have counted : (200 * m : ℤ) = (2 * (99 - j) + 1) * k := by
      have counted_rat : (200 * m : ℚ) = (2 * (99 - j) + 1) * k := by linarith
      exact_mod_cast counted_rat
    have m_pos := m_count.pos
    have k_pos : (0 : ℤ) < k := by exact_mod_cast k_count.pos
    have odd_pos : 0 < 2 * (99 - j) + 1 := by
      apply pos_of_mul_pos_left _ k_pos.le
      omega
    have odd_le : 2 * (99 - j) + 1 ≤ 200 := by
      apply le_of_mul_le_mul_right _ k_pos
      omega
    obtain ⟨i, i_eq⟩ := Int.eq_ofNat_of_zero_le (by omega : 0 ≤ 99 - j)
    refine ⟨i, by omega, ?_⟩
    rw [i_eq] at counted
    exact_mod_cast counted
  · rintro ⟨i, -, counted⟩
    use 99 - i
    have counted_rat : (200 * m : ℚ) = (2 * i + 1) * k := by exact_mod_cast counted
    rw [div_eq_iff k_rat]
    push_cast
    linarith

/-- A percentage halfway between two whole ones is rounded to the larger one unless its half is
lost. -/
theorem toInt_percentLeft_half {i : Nat} (m_lt : m < 2 ^ 42) (k_lt : k < 2 ^ 42) (lt : i < 100)
    (counted : 200 * m = (2 * i + 1) * k) :
  exactPercent quota fullQuota = (99 - i : Nat) + 1 / 2 ∧
    (percentLeft (ofInt m / ofInt k)).toInt64.toInt =
      (if 2 * i + 1 ∈ lostHalves then 99 - i else 100 - i : Nat)
  := by
  have small : pow2 53 = 2 ^ 53 := rfl
  constructor
  · have k_rat : (k : ℚ) ≠ 0 := Nat.cast_ne_zero.mpr k_count.pos.ne'
    have counted_rat : (200 * m : ℚ) = (2 * i + 1) * k := by exact_mod_cast counted
    rw [exactPercent_eq m_count k_count, div_eq_iff k_rat, Nat.cast_sub (Nat.le_of_lt_succ lt)]
    push_cast
    linarith
  · have share_eq : ofInt m / ofInt k = ofInt (2 * i + 1 : Nat) / ofInt (200 : Nat) := by
      apply Binary64.ofInt_div_ofInt_congr k_count.pos
      all_goals omega
    rw [toInt_percentLeft m_count k_count m_lt, share_eq]
    apply Binary64.roundToInt_of_percentLeft? (Nat.succ_pos _) (by omega)
    apply Binary64.percentLeft?_half i lt

/-- A percentage that is not negative is rounded to the right whole number unless half a percent is
lost. -/
theorem toInt_percentLeft_eq_iff (m_lt : m < 2 ^ 42) (k_lt : k < 2 ^ 42) (le : m ≤ k) :
  ((percentLeft (ofInt m / ofInt k)).toInt64.toInt : ℚ) = roundAway 0 (exactPercent quota fullQuota) ↔
    ∀ n ∈ lostHalves, 200 * m ≠ n * k
  := by
  by_cases half : ∃ j : ℤ, exactPercent quota fullQuota = j + 1 / 2
  · obtain ⟨i, lt, counted⟩ := (exists_half_iff m_count k_count le).mp half
    obtain ⟨exact_eq, percent_eq⟩ := toInt_percentLeft_half m_count k_count m_lt k_lt lt counted
    have lost_iff : (∀ n ∈ lostHalves, 200 * m ≠ n * k) ↔ 2 * i + 1 ∉ lostHalves := by
      constructor
      · intro kept lost
        exact kept _ lost counted
      · rintro kept n n_mem same
        rw [counted] at same
        rw [Nat.eq_of_mul_eq_mul_right k_count.pos same] at kept
        exact kept n_mem
    rw [lost_iff, percent_eq, exact_eq, roundAway_add_half, Int.cast_natCast, ← Nat.cast_succ,
      Nat.cast_inj]
    split
    case isTrue lost =>
      simp only [lost, not_true_eq_false, iff_false]
      omega
    case isFalse kept =>
      simp only [kept, not_false_eq_true, iff_true]
      omega
  · have right := toInt_percentLeft_eq m_count k_count m_lt k_lt (not_exists.mp half)
    simp only [right, true_iff]
    intro n n_mem counted
    have odd : ∀ n ∈ lostHalves, n / 2 < 100 ∧ 2 * (n / 2) + 1 = n := by decide
    obtain ⟨lt, n_eq⟩ := odd n n_mem
    apply half
    apply (exists_half_iff m_count k_count le).mpr ⟨n / 2, lt, _⟩
    rw [n_eq, counted]

omit m_count k_count

/-! ### Saved percentages -/

/-- A percentage is saved of quotas above zero at a ratio below one.  It is the exact one, off by
little, to the nearest integer of 64 bits.  With quotas of 42 bits it is the whole number nearest to
the exact one if that is not halfway between two of them; as long as no more than the full quota is
charged, it is so for halves as well, except for eighteen of the hundred proportions that leave one. -/
theorem percentSaved_accuracy (quota fullQuota : Quota) (groupRatio : Binary64) :
  ((percentSaved quota fullQuota groupRatio).isSome = true ↔
      0 < fullQuota.units ∧ 0 < quota.units ∧ groupRatio < 1) ∧
    ∀ percent, percentSaved quota fullQuota groupRatio = some percent →
      (∃ (value : ℚ) (n : ℤ), |value - exactPercent quota fullQuota| ≤
          max 1 (quota.units.toInt / fullQuota.units.toInt : ℚ) / 2 ^ 43 ∧
        n = roundAway 0 value ∧ percent = nearestInt64 n) ∧
      (quota.units.toInt < 2 ^ 42 → fullQuota.units.toInt < 2 ^ 42 →
        ((∀ j : ℤ, exactPercent quota fullQuota ≠ j + 1 / 2) →
          percent.toInt = roundAway 0 (exactPercent quota fullQuota)) ∧
        (quota.units ≤ fullQuota.units →
          (percent.toInt = roundAway 0 (exactPercent quota fullQuota) ↔
            ∀ n ∈ lostHalves, 200 * quota.units.toInt ≠ n * fullQuota.units.toInt)))
  := by
  constructor
  · exact isSome_percentSaved_iff
  · intro percent saved
    obtain ⟨m, k, m_count, k_count, rfl⟩ := percentSaved_eq_some saved
    constructor
    · exact ⟨_, _, abs_percentLeft_sub_exactPercent_le m_count k_count,
        Binary64.cast_roundToInt _, rfl⟩
    · rw [Int64.le_iff_toInt_le, m_count.units_eq, k_count.units_eq]
      intro m_lt k_lt
      have m_lt : m < 2 ^ 42 := by exact_mod_cast m_lt
      have k_lt : k < 2 ^ 42 := by exact_mod_cast k_lt
      constructor
      · exact toInt_percentLeft_eq m_count k_count m_lt k_lt
      · intro le
        rw [toInt_percentLeft_eq_iff m_count k_count m_lt k_lt (Int.ofNat_le.mp le)]
        apply forall₂_congr
        intro n _
        rw [← Nat.cast_mul, ← Int.natCast_inj.ne]
        push_cast
        rfl

/-- Of seventeen units out of forty the half of a percent is lost. -/
theorem not_forall_percentSaved :
  ¬ ∀ (quota fullQuota : Quota) (groupRatio : Binary64) (percent : Int64),
      percentSaved quota fullQuota groupRatio = some percent →
        (percent.toInt : ℚ) = roundAway 0 (exactPercent quota fullQuota)
  := by
  intro rounds
  have saved : percentSaved ⟨17⟩ ⟨40⟩ 0.5 = some 57 := by decide +kernel
  have not_nearest : ((57 : Int64).toInt : ℚ) ≠ roundAway 0 (exactPercent ⟨17⟩ ⟨40⟩) := by
    decide +kernel
  exact not_nearest (rounds _ _ _ _ saved)

/-! ### Shown savings -/

/-- A number becomes an integer that is not negative exactly if it is above minus one half. -/
theorem Binary64.toInt64_nonneg_iff (x : Binary64) :
  0 ≤ x.toInt64 ↔ -1 / 2 < x.toRat
  := by
  rw [← roundAway_nonneg_iff, ← x.cast_roundToInt, Int64.le_iff_toInt_le, Int64.toInt_zero, toInt64,
    toInt_nearestInt64, Int64.toInt_minValue, Int64.toInt_maxValue, Int.cast_nonneg_iff]
  omega

/-- A number of up to one hundred becomes an integer of up to one hundred. -/
theorem Binary64.toInt64_le_hundred {x : Binary64} (le : x.toRat ≤ 100) :
  x.toInt64 ≤ 100
  := by
  have rounded_le : roundAway 0 x.toRat ≤ roundAway 0 (100 : Nat) := monotone_roundAway 0 le
  rw [roundAway_natCast, ← x.cast_roundToInt] at rounded_le
  have whole_le : x.roundToInt ≤ (100 : Nat) := by exact_mod_cast rounded_le
  have hundred : (100 : Int64).toInt = 100 := rfl
  rw [Int64.le_iff_toInt_le, toInt64, toInt_nearestInt64, Int64.toInt_minValue,
    Int64.toInt_maxValue, hundred]
  omega

/-- The percentage that a statement shows does not exceed one hundred.  It is negative exactly if the
charge is more than the full quota by more than half a percent, as numbers of 53 bits divide. -/
theorem StatementStyle.saving_of_statement? {style : StatementStyle} {entry : UsageEntry}
    {statement : Statement} (shown : style.statement? entry = some statement)
    (saved : statement.percentSaved = some percent) :
  ∃ breakdown, statement = .detailed breakdown ∧ breakdown.quota = entry.charged ∧
    percent ≤ 100 ∧
    (0 ≤ percent ↔
      ¬ (1.005 : Binary64) < breakdown.quota.toReal / breakdown.fullQuota.toReal) ∧
    (breakdown.quota.units ≤ breakdown.fullQuota.units → 0 ≤ percent) ∧
    (breakdown.quota.units.toInt < 2 ^ 42 → breakdown.fullQuota.units.toInt < 2 ^ 42 →
      (0 ≤ percent ↔
        200 * breakdown.quota.units.toInt ≤ 201 * breakdown.fullQuota.units.toInt))
  := by
  rcases statement?_eq_some shown with
    ⟨terms, inputRatio, breakdown, -, -, made, rfl⟩ | ⟨-, ⟨-, rfl⟩ | ⟨-, text, rfl⟩⟩
  · obtain ⟨lines, total, -, -, rfl⟩ := breakdown?_eq_some made
    obtain ⟨m, k, m_count, k_count, rfl⟩ := percentSaved_eq_some saved
    obtain ⟨share, -⟩ :=
      Binary64.isShare_ofInt_div m_count.pos k_count.pos m_count.lt k_count.lt
    refine ⟨_, rfl, rfl, Binary64.toInt64_le_hundred (Binary64.toRat_percentLeft_le share), ?_⟩
    dsimp only
    rw [Binary64.toInt64_nonneg_iff, m_count.toReal_eq, k_count.toReal_eq, Int64.le_iff_toInt_le,
      m_count.units_eq, k_count.units_eq]
    refine ⟨Binary64.neg_half_lt_percentLeft_iff share, ?_, ?_⟩
    · intro le
      have nonneg :=
        Binary64.toRat_percentLeft_nonneg m_count.pos k_count.lt (Int.ofNat_le.mp le)
      linarith
    · intro m_lt k_lt
      have m_lt : m < 2 ^ 42 := by exact_mod_cast m_lt
      have k_lt : k < 2 ^ 42 := by exact_mod_cast k_lt
      rw [Binary64.neg_half_lt_percentLeft_ofInt_iff m_count.pos k_count.pos m_lt k_lt,
        ← Int.ofNat_le, Nat.cast_mul, Nat.cast_mul]
      rfl
  · cases saved
  · cases saved

namespace StatementStyle

/-- Consumption at a discount that was charged twice the full quota. -/
def doubleChargeEntry : UsageEntry where
  kind := .consume
  quota := some ⟨200⟩
  terms := some
    ({ inputRatio := some 1, groupRatio := some 0.5, fullQuota := some 100 } : UsageDetail).terms

/-- The saving that is shown for the entry. -/
theorem percentSaved_doubleChargeEntry :
  (usual.statement? doubleChargeEntry).bind Statement.percentSaved = some (-100)
  := by
  decide +kernel

/-- A charge of twice the full quota shows a saving of minus one hundred percent. -/
theorem saving_of_statement?_doubleCharge :
  ∃ statement breakdown, usual.statement? doubleChargeEntry = some statement ∧
    statement.percentSaved = some (-100) ∧ statement = .detailed breakdown ∧
    breakdown.quota = ⟨200⟩ ∧
    (1.005 : Binary64) < breakdown.quota.toReal / breakdown.fullQuota.toReal
  := by
  obtain ⟨statement, shown, saved⟩ := Option.bind_eq_some_iff.mp percentSaved_doubleChargeEntry
  obtain ⟨breakdown, detailed, quota_eq, -, nonneg_iff, -⟩ := saving_of_statement? shown saved
  refine ⟨statement, breakdown, shown, saved, detailed, quota_eq, ?_⟩
  apply not_not.mp
  rw [← nonneg_iff]
  decide

/-- Not every saving that is shown is a share. -/
theorem not_forall_saving :
  ¬ ∀ (style : StatementStyle) (entry : UsageEntry) (statement : Statement) (percent : Int64),
      style.statement? entry = some statement → statement.percentSaved = some percent →
        0 ≤ percent ∧ percent ≤ 100
  := by
  intro shares
  obtain ⟨statement, shown, saved⟩ := Option.bind_eq_some_iff.mp percentSaved_doubleChargeEntry
  have negative : ¬ (0 : Int64) ≤ -100 := by decide
  exact negative (shares _ _ _ _ shown saved).1

end StatementStyle

end Tariff
