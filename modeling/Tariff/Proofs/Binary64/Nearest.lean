import Mathlib.Order.Monotone.Basic
import Mathlib.Tactic.Linarith
import Mathlib.Tactic.Ring
import Tariff.Binary64.Basic

/-!
# The number nearest to a rational

The magnitudes grow with their codes, in steps that double from one block of codes to the next.  The
code that is nearest to a rational is the only one whose midpoints to its neighbours the rational
lies between; a midpoint belongs to the even code.
-/

namespace Tariff.Binary64

/-! ### Steps between codes -/

/-- The codes of a block are those of the multiples of a power of two, its end included. -/
theorem unitsOfCode_block {e r : Nat} (normal : pow2 52 ≤ r ∨ e = 0) (r_le : r ≤ pow2 53) :
  unitsOfCode (e * pow2 52 + r) = r * pow2 e
  := by
  have p52 : pow2 52 = 4503599627370496 := rfl
  have p53 : pow2 53 = 9007199254740992 := rfl
  rw [p52] at normal
  rw [p53] at r_le
  unfold unitsOfCode significandOfCode shiftOfCode
  rw [p52]
  rcases Nat.lt_or_ge r 4503599627370496 with small | large
  · obtain rfl : e = 0 := by omega
    have first_block : r / 4503599627370496 = 0 := by omega
    rw [Nat.zero_mul, Nat.zero_add, if_pos small, first_block]
  · have not_small : ¬ e * 4503599627370496 + r < 4503599627370496 := by omega
    rw [if_neg not_small]
    rcases Nat.lt_or_ge r 9007199254740992 with inside | last
    · have mod_eq : (e * 4503599627370496 + r) % 4503599627370496 = r - 4503599627370496 := by
        omega
      have div_eq : (e * 4503599627370496 + r) / 4503599627370496 - 1 = e := by omega
      have sum_eq : 4503599627370496 + (r - 4503599627370496) = r := by omega
      rw [mod_eq, div_eq, sum_eq]
    · obtain rfl : r = 9007199254740992 := by omega
      have mod_eq : (e * 4503599627370496 + 9007199254740992) % 4503599627370496 = 0 := by omega
      have div_eq : (e * 4503599627370496 + 9007199254740992) / 4503599627370496 - 1 = e + 1 := by
        omega
      rw [mod_eq, div_eq, pow2_succ]
      ring

/-- The codes of a block are as even as their places in it. -/
theorem block_mod_two (e r : Nat) :
  (e * pow2 52 + r) % 2 = r % 2
  := by
  have p52 : pow2 52 = 4503599627370496 := rfl
  rw [p52]
  omega

/-- The codes of a block, its end included, have no smaller shift than the block. -/
theorem le_shiftOfCode_block {e r : Nat} (normal : pow2 52 ≤ r ∨ e = 0) :
  e ≤ shiftOfCode (e * pow2 52 + r)
  := by
  have p52 : pow2 52 = 4503599627370496 := rfl
  unfold shiftOfCode
  rw [p52] at normal ⊢
  omega

/-- Each code is in a block. -/
theorem eq_block (code : Nat) :
  code = shiftOfCode code * pow2 52 + significandOfCode code ∧
    (pow2 52 ≤ significandOfCode code ∨ shiftOfCode code = 0) ∧ significandOfCode code < pow2 53
  := by
  have p52 : pow2 52 = 4503599627370496 := rfl
  have p53 : pow2 53 = 9007199254740992 := rfl
  unfold significandOfCode shiftOfCode
  rw [p52, p53]
  split <;> omega

/-- The magnitudes of a code and the next one are a power of two apart. -/
theorem unitsOfCode_succ (code : Nat) :
  unitsOfCode (code + 1) = unitsOfCode code + pow2 (shiftOfCode code)
  := by
  obtain ⟨code_eq, normal, lt⟩ := eq_block code
  generalize shiftOfCode code = e at *
  generalize significandOfCode code = r at *
  subst code_eq
  have normal' : pow2 52 ≤ r + 1 ∨ e = 0 := by omega
  rw [unitsOfCode_block normal (Nat.le_of_lt lt), Nat.add_assoc, unitsOfCode_block normal' lt]
  ring

/-- The code of zero has no units. -/
theorem unitsOfCode_zero :
  unitsOfCode 0 = 0
  := rfl

/-- The magnitudes grow with their codes. -/
theorem strictMono_unitsOfCode :
  StrictMono unitsOfCode
  := by
  apply strictMono_nat_of_lt_succ
  intro code
  rw [unitsOfCode_succ]
  apply Nat.lt_add_of_pos_right (pow2_pos _)

/-- A step is not small beside the magnitude that it ends at. -/
theorem unitsOfCode_succ_le (code : Nat) :
  unitsOfCode (code + 1) ≤ pow2 53 * (unitsOfCode (code + 1) - unitsOfCode code)
  := by
  obtain ⟨-, -, lt⟩ := eq_block code
  have step : unitsOfCode (code + 1) - unitsOfCode code = pow2 (shiftOfCode code) := by
    rw [unitsOfCode_succ]
    omega
  rw [step, unitsOfCode_succ, unitsOfCode]
  calc significandOfCode code * pow2 (shiftOfCode code) + pow2 (shiftOfCode code)
      = (significandOfCode code + 1) * pow2 (shiftOfCode code) := by ring
    _ ≤ pow2 53 * pow2 (shiftOfCode code) := Nat.mul_le_mul_right _ lt

/-! ### Between the midpoints -/

/-- The rational `n / d` lies between the midpoints of a code to its neighbours, and not at one of
them if the code is odd. -/
structure Rounds (n d code : Nat) : Prop where
  low : (unitsOfCode (code - 1) + unitsOfCode code) * d ≤ 2 * n
  high : 2 * n ≤ (unitsOfCode code + unitsOfCode (code + 1)) * d
  low_ne : code % 2 = 1 → (unitsOfCode (code - 1) + unitsOfCode code) * d ≠ 2 * n
  high_ne : code % 2 = 1 → 2 * n ≠ (unitsOfCode code + unitsOfCode (code + 1)) * d

/-- Of two rationals the larger one has the larger code. -/
theorem Rounds.le {n d code n' d' code' : Nat} (rounds : Rounds n d code)
    (rounds' : Rounds n' d' code') (d_pos : 0 < d) (d_pos' : 0 < d') (le : n * d' ≤ n' * d) :
  code ≤ code'
  := by
  by_contra not_le
  have lt : code' < code := Nat.lt_of_not_le not_le
  obtain ⟨previous, rfl⟩ : ∃ previous, code = previous + 1 := ⟨code - 1, by omega⟩
  -- The upper midpoint of the smaller code is no larger than the lower one of the other.
  have units_le : unitsOfCode code' ≤ unitsOfCode previous :=
    strictMono_unitsOfCode.monotone (Nat.le_of_lt_succ lt)
  have next_le : unitsOfCode (code' + 1) ≤ unitsOfCode (previous + 1) :=
    strictMono_unitsOfCode.monotone lt
  have low : (unitsOfCode previous + unitsOfCode (previous + 1)) * d ≤ 2 * n := rounds.low
  have chain : 2 * n * d' ≤ (unitsOfCode code' + unitsOfCode (code' + 1)) * d * d' := by
    calc 2 * n * d' = 2 * (n * d') := Nat.mul_assoc ..
      _ ≤ 2 * (n' * d) := Nat.mul_le_mul_left 2 le
      _ = 2 * n' * d := (Nat.mul_assoc ..).symm
      _ ≤ (unitsOfCode code' + unitsOfCode (code' + 1)) * d' * d :=
        Nat.mul_le_mul_right d rounds'.high
      _ = (unitsOfCode code' + unitsOfCode (code' + 1)) * d * d' := Nat.mul_right_comm ..
  have sums_le : unitsOfCode previous + unitsOfCode (previous + 1) ≤
      unitsOfCode code' + unitsOfCode (code' + 1) :=
    Nat.le_of_mul_le_mul_right
      (low.trans (Nat.le_of_mul_le_mul_right chain d_pos')) d_pos
  -- So the midpoints are one, the codes are neighbours, and one of them is odd.
  obtain rfl : code' = previous := strictMono_unitsOfCode.injective (by omega)
  rcases Nat.mod_two_eq_zero_or_one code' with even | odd
  · have next_odd : (code' + 1) % 2 = 1 := by omega
    apply rounds.low_ne next_odd
    apply Nat.le_antisymm low (Nat.le_of_mul_le_mul_right chain d_pos')
  · apply rounds'.high_ne odd
    apply Nat.le_antisymm rounds'.high
    apply Nat.le_of_mul_le_mul_right _ d_pos
    calc (unitsOfCode code' + unitsOfCode (code' + 1)) * d' * d
        = (unitsOfCode code' + unitsOfCode (code' + 1)) * d * d' := Nat.mul_right_comm ..
      _ ≤ 2 * n * d' := Nat.mul_le_mul_right d' low
      _ = 2 * (n * d') := Nat.mul_assoc ..
      _ ≤ 2 * (n' * d) := Nat.mul_le_mul_left 2 le
      _ = 2 * n' * d := (Nat.mul_assoc ..).symm

/-- A quotient that is rounded is halfway between two whole numbers only if it is rounded to the
even one of them. -/
theorem roundDiv_toEven_ne {n d : Nat} (d_pos : 0 < d) (odd : roundDiv .toEven n d % 2 = 1) :
  2 * (roundDiv .toEven n d * d) ≠ 2 * n + d ∧ 2 * n ≠ 2 * (roundDiv .toEven n d * d) + d
  := by
  have n_eq : n / d * d + n % d = n := Nat.div_add_mod' n d
  have lt : n % d < d := Nat.mod_lt n d_pos
  have next_eq : (n / d + 1) * d = n / d * d + d := Nat.succ_mul _ _
  revert odd
  simp only [roundDiv]
  split
  · omega
  split
  · rw [next_eq]
    omega
  split
  · omega
  · rw [next_eq]
    omega

/-- A whole number that a quotient reaches is reached by what it is rounded to. -/
theorem le_roundDiv {tie : Tie} {n d low : Nat} (d_pos : 0 < d) (le : low * d ≤ n) :
  low ≤ roundDiv tie n d
  := by
  obtain ⟨-, near⟩ := roundDiv_near tie d_pos n
  have lt : low * d < (roundDiv tie n d + 1) * d := by
    rw [Nat.succ_mul]
    omega
  exact Nat.le_of_lt_succ (Nat.lt_of_mul_lt_mul_right lt)

/-- A whole number that a quotient does not exceed is not exceeded by what it is rounded to. -/
theorem roundDiv_le_of_le {tie : Tie} {n d high : Nat} (d_pos : 0 < d) (le : n ≤ high * d) :
  roundDiv tie n d ≤ high
  := by
  obtain ⟨near, -⟩ := roundDiv_near tie d_pos n
  have lt : roundDiv tie n d * d < (high + 1) * d := by
    rw [Nat.succ_mul]
    omega
  exact Nat.le_of_lt_succ (Nat.lt_of_mul_lt_mul_right lt)

/-- The block in which `nearestCode` looks for a rational holds it. -/
theorem block_bounds {n d e : Nat} (d_pos : 0 < d) (block_eq : Nat.log2 (n / d) - 52 = e) :
  (e = 0 ∨ pow2 52 * (d * pow2 e) ≤ n) ∧ n ≤ pow2 53 * (d * pow2 e)
  := by
  constructor
  · rcases Nat.eq_zero_or_pos e with zero | pos
    · exact .inl zero
    · right
      have q_ne : n / d ≠ 0 := by
        intro zero
        rw [zero] at block_eq
        have none : Nat.log2 0 - 52 = 0 := by decide
        omega
      have log_eq : Nat.log2 (n / d) = 52 + e := by omega
      have le : pow2 52 * pow2 e ≤ n / d := by
        have le := Nat.log2_self_le q_ne
        rw [log_eq] at le
        rw [← pow2_add]
        exact le
      calc pow2 52 * (d * pow2 e) = d * (pow2 52 * pow2 e) := Nat.mul_left_comm ..
        _ ≤ d * (n / d) := Nat.mul_le_mul_left d le
        _ ≤ n := Nat.mul_div_le n d
  · have lt : n / d < pow2 53 * pow2 e := by
      have le : pow2 (Nat.log2 (n / d) + 1) ≤ pow2 (53 + e) :=
        pow2_le (by omega)
      rw [← pow2_add]
      exact Nat.lt_of_lt_of_le Nat.lt_log2_self le
    have lt' : n < pow2 53 * pow2 e * d := (Nat.div_lt_iff_lt_mul d_pos).mp lt
    rw [Nat.mul_comm d, ← Nat.mul_assoc]
    exact Nat.le_of_lt lt'

variable {n d e r : Nat}

/-- A rational that is rounded to a place in a block is not below the midpoint there. -/
theorem block_low (normal : pow2 52 ≤ r ∨ e = 0) (r_le : r ≤ pow2 53)
    (reached : e = 0 ∨ pow2 52 * (d * pow2 e) ≤ n) (d_pos : 0 < d)
    (near : 2 * (r * (d * pow2 e)) ≤ 2 * n + d * pow2 e) :
  (unitsOfCode (e * pow2 52 + r - 1) + unitsOfCode (e * pow2 52 + r)) * d ≤ 2 * n ∧
    ((unitsOfCode (e * pow2 52 + r - 1) + unitsOfCode (e * pow2 52 + r)) * d = 2 * n →
      r % 2 = 0 ∨ 2 * (r * (d * pow2 e)) = 2 * n + d * pow2 e)
  := by
  rw [unitsOfCode_block normal r_le]
  rcases Nat.eq_zero_or_pos r with rfl | r_pos
  · -- The code is zero and its own lower neighbour.
    obtain rfl : e = 0 := normal.resolve_left (by decide)
    have zero : unitsOfCode (0 * pow2 52 + 0 - 1) = 0 := rfl
    rw [zero]
    omega
  · obtain ⟨s, rfl⟩ : ∃ s, r = s + 1 := ⟨r - 1, by omega⟩
    rw [← Nat.add_assoc, Nat.add_sub_cancel]
    by_cases normal' : pow2 52 ≤ s ∨ e = 0
    · have twice : (s * pow2 e + (s + 1) * pow2 e) * d + d * pow2 e =
          2 * ((s + 1) * (d * pow2 e)) := by
        ring
      rw [unitsOfCode_block normal' (by omega)]
      omega
    · -- The lower neighbour is in the block before, where codes are closer together.
      have n_ge : pow2 52 * (d * pow2 e) ≤ n := reached.resolve_left (by omega)
      have s_eq : s + 1 = pow2 52 := by omega
      have units_lt : unitsOfCode (e * pow2 52 + s) < (s + 1) * pow2 e := by
        rw [← unitsOfCode_block normal r_le]
        apply strictMono_unitsOfCode (Nat.lt_succ_self _)
      have lt : (unitsOfCode (e * pow2 52 + s) + (s + 1) * pow2 e) * d < 2 * n := by
        calc (unitsOfCode (e * pow2 52 + s) + (s + 1) * pow2 e) * d
            < ((s + 1) * pow2 e + (s + 1) * pow2 e) * d :=
              Nat.mul_lt_mul_of_pos_right (Nat.add_lt_add_right units_lt _) d_pos
          _ = 2 * ((s + 1) * (d * pow2 e)) := by ring
          _ ≤ 2 * n := Nat.mul_le_mul_left 2 (s_eq ▸ n_ge)
      omega

/-- The code that is nearest to a rational, unless it exceeds that of infinity. -/
theorem exists_rounds (d_pos : 0 < d) :
  ∃ code, Rounds n d code ∧ nearestCode n d = min code infinityCode
  := by
  refine ⟨_, ?_, rfl⟩
  generalize block_eq : Nat.log2 (n / d) - 52 = e
  obtain ⟨reached, n_le⟩ := block_bounds d_pos block_eq
  have size_pos : 0 < d * pow2 e := Nat.mul_pos d_pos (pow2_pos e)
  have normal : pow2 52 ≤ roundDiv .toEven n (d * pow2 e) ∨ e = 0 :=
    reached.symm.imp_left (le_roundDiv size_pos)
  have r_le : roundDiv .toEven n (d * pow2 e) ≤ pow2 53 := roundDiv_le_of_le size_pos n_le
  obtain ⟨near, near'⟩ := roundDiv_near .toEven size_pos n
  have strict := roundDiv_toEven_ne (n := n) size_pos
  generalize roundDiv .toEven n (d * pow2 e) = r at *
  obtain ⟨low, low_eq⟩ := block_low normal r_le reached d_pos near
  -- The next code is at least a step of the block away.
  have upper : (2 * r + 1) * (d * pow2 e) ≤
      (unitsOfCode (e * pow2 52 + r) + unitsOfCode (e * pow2 52 + r + 1)) * d := by
    have step_le : pow2 e ≤ pow2 (shiftOfCode (e * pow2 52 + r)) :=
      pow2_le (le_shiftOfCode_block normal)
    rw [unitsOfCode_succ, unitsOfCode_block normal r_le]
    calc (2 * r + 1) * (d * pow2 e) = (r * pow2 e + (r * pow2 e + pow2 e)) * d := by ring
      _ ≤ _ := Nat.mul_le_mul_right d (by omega)
  have upper_eq : (2 * r + 1) * (d * pow2 e) = 2 * (r * (d * pow2 e)) + d * pow2 e := by ring
  constructor
  · exact low
  · omega
  · rw [block_mod_two]
    intro odd eq
    have := (strict odd).1
    have := low_eq eq
    omega
  · rw [block_mod_two]
    intro odd
    have := (strict odd).2
    omega

/-- A rational rounds to the code that is nearest to it, unless that is the code of infinity. -/
theorem rounds_nearestCode (d_pos : 0 < d) (finite : nearestCode n d < infinityCode) :
  Rounds n d (nearestCode n d)
  := by
  obtain ⟨code, rounds, nearest_eq⟩ := exists_rounds (n := n) d_pos
  have code_eq : nearestCode n d = code := by omega
  rw [code_eq]
  exact rounds

variable {n' d' code : Nat}

/-- The only code that a rational rounds to is nearest to it. -/
theorem Rounds.nearestCode_eq (rounds : Rounds n d code) (d_pos : 0 < d)
    (le : code ≤ infinityCode) :
  nearestCode n d = code
  := by
  obtain ⟨code', rounds', nearest_eq⟩ := exists_rounds (n := n) d_pos
  have eq : code' = code := Nat.le_antisymm
    (rounds'.le rounds d_pos d_pos (Nat.le_refl _)) (rounds.le rounds' d_pos d_pos (Nat.le_refl _))
  rw [nearest_eq, eq, Nat.min_eq_left le]

/-- Of two rationals the larger one has the larger nearest code. -/
theorem nearestCode_mono (d_pos : 0 < d) (d_pos' : 0 < d') (le : n * d' ≤ n' * d) :
  nearestCode n d ≤ nearestCode n' d'
  := by
  obtain ⟨code, rounds, eq⟩ := exists_rounds (n := n) d_pos
  obtain ⟨code', rounds', eq'⟩ := exists_rounds (n := n') d_pos'
  rw [eq, eq']
  apply min_le_min_right
  apply rounds.le rounds' d_pos d_pos' le

/-- Fractions of the same value have the same nearest code. -/
theorem nearestCode_congr (d_pos : 0 < d) (d_pos' : 0 < d') (eq : n * d' = n' * d) :
  nearestCode n d = nearestCode n' d'
  := Nat.le_antisymm (nearestCode_mono d_pos d_pos' eq.le) (nearestCode_mono d_pos' d_pos eq.ge)

/-- A magnitude is nearest to itself. -/
theorem nearestCode_unitsOfCode (le : code ≤ infinityCode) :
  nearestCode (unitsOfCode code) 1 = code
  := by
  have next_lt : unitsOfCode code < unitsOfCode (code + 1) :=
    strictMono_unitsOfCode (Nat.lt_succ_self code)
  have previous_le : unitsOfCode (code - 1) ≤ unitsOfCode code :=
    strictMono_unitsOfCode.monotone (Nat.sub_le code 1)
  have previous_lt (odd : code % 2 = 1) : unitsOfCode (code - 1) < unitsOfCode code :=
    strictMono_unitsOfCode (by omega)
  apply Rounds.nearestCode_eq _ Nat.one_pos le
  constructor
  · omega
  · omega
  · intro odd
    have := previous_lt odd
    omega
  · omega

/-- What is not below a magnitude has no smaller nearest code. -/
theorem le_nearestCode (d_pos : 0 < d) (le : code ≤ infinityCode)
    (reached : unitsOfCode code * d ≤ n) :
  code ≤ nearestCode n d
  := by
  calc code = nearestCode (unitsOfCode code) 1 := (nearestCode_unitsOfCode le).symm
    _ ≤ nearestCode n d := nearestCode_mono Nat.one_pos d_pos (by rwa [Nat.mul_one])

/-- What does not exceed a magnitude has no larger nearest code. -/
theorem nearestCode_le_code (d_pos : 0 < d) (le : code ≤ infinityCode)
    (below : n ≤ unitsOfCode code * d) :
  nearestCode n d ≤ code
  := by
  calc nearestCode n d ≤ nearestCode (unitsOfCode code) 1 :=
        nearestCode_mono d_pos Nat.one_pos (by rwa [Nat.mul_one])
    _ = code := nearestCode_unitsOfCode le

/-- The code of zero is nearest to zero. -/
theorem nearestCode_zero (d_pos : 0 < d) :
  nearestCode 0 d = 0
  := by
  apply Nat.eq_zero_of_le_zero
  apply nearestCode_le_code d_pos (Nat.zero_le _) (Nat.zero_le _)

/-! ### Finite magnitudes -/

/-- The largest finite magnitude, a whole number. -/
def maxFinite : Nat :=
  (pow2 53 - 1) * pow2 971

/-- Powers of two are finite up to a large one. -/
theorem pow2_le_maxFinite {n : Nat} (le : n ≤ 971) :
  pow2 n ≤ maxFinite
  := by
  apply (pow2_le le).trans
  apply Nat.le_mul_of_pos_left
  decide

/-- What does not exceed the largest finite magnitude is nearest to a finite one. -/
theorem nearestCode_lt_infinityCode (d_pos : 0 < d) (le : n ≤ maxFinite * pow2 1074 * d) :
  nearestCode n d < infinityCode
  := by
  have largest : unitsOfCode (infinityCode - 1) = maxFinite * pow2 1074 := by
    have block_eq : infinityCode - 1 = 2045 * pow2 52 + (pow2 53 - 1) := by decide
    rw [block_eq, unitsOfCode_block (.inl (by decide)) (Nat.sub_le _ _), maxFinite, Nat.mul_assoc,
      ← pow2_add]
  rw [← largest] at le
  have code_le := nearestCode_le_code d_pos (Nat.sub_le infinityCode 1) le
  exact Nat.lt_of_le_of_lt code_le (by decide)

/-- A rational that is not below the normal magnitudes is rounded to a multiple of a power of two that it
reaches at least `2 ^ 52` times. -/
theorem exists_multiple (d_pos : 0 < d) (normal : pow2 52 * d ≤ n) :
  ∃ e code, nearestCode n d = min code infinityCode ∧ pow2 52 * (d * pow2 e) ≤ n ∧
    unitsOfCode code = roundDiv .toEven n (d * pow2 e) * pow2 e
  := by
  unfold nearestCode
  dsimp only
  generalize block_eq : Nat.log2 (n / d) - 52 = e
  obtain ⟨reached, n_le⟩ := block_bounds d_pos block_eq
  have reached : pow2 52 * (d * pow2 e) ≤ n := by
    rcases reached with rfl | reached
    · have one : pow2 0 = 1 := rfl
      rwa [one, Nat.mul_one]
    · exact reached
  have size_pos : 0 < d * pow2 e := Nat.mul_pos d_pos (pow2_pos e)
  refine ⟨e, _, rfl, reached, ?_⟩
  apply unitsOfCode_block (.inl (le_roundDiv size_pos reached)) (roundDiv_le_of_le size_pos n_le)

/-- A magnitude that is not below the normal ones grows by no more than its `2 ^ 53`th part when it is
rounded. -/
theorem unitsOfCode_nearestCode_le (d_pos : 0 < d) (normal : pow2 52 * d ≤ n) :
  unitsOfCode (nearestCode n d) * d * pow2 53 ≤ n * (pow2 53 + 1)
  := by
  obtain ⟨e, code, code_eq, reached, units_eq⟩ := exists_multiple d_pos normal
  obtain ⟨near, -⟩ := roundDiv_near .toEven (Nat.mul_pos d_pos (pow2_pos e)) n
  generalize roundDiv .toEven n (d * pow2 e) = r at *
  have capped : unitsOfCode (nearestCode n d) ≤ r * pow2 e := by
    rw [← units_eq, code_eq]
    apply strictMono_unitsOfCode.monotone (Nat.min_le_left _ _)
  calc unitsOfCode (nearestCode n d) * d * pow2 53
      ≤ r * pow2 e * d * pow2 53 := Nat.mul_le_mul_right _ (Nat.mul_le_mul_right _ capped)
    _ = 2 * (r * (d * pow2 e)) * pow2 52 := by
      rw [pow2_succ 52]
      ring
    _ ≤ (2 * n + d * pow2 e) * pow2 52 := Nat.mul_le_mul_right _ near
    _ = n * pow2 53 + pow2 52 * (d * pow2 e) := by
      rw [pow2_succ 52]
      ring
    _ ≤ n * (pow2 53 + 1) := Nat.add_le_add_left reached _

/-- Where the quotient is `low` or more, rounding it changes the dividend by less than a part in
`2 * low`. -/
theorem roundDiv_toEven_near {low : Nat} (d_pos : 0 < d) (low_pos : 0 < low) (le : low * d ≤ n) :
  2 * low * (roundDiv .toEven n d * d) < 2 * low * n + n ∧
    2 * low * n < 2 * low * (roundDiv .toEven n d * d) + n
  := by
  rcases Nat.lt_or_eq_of_le le with lt | rfl
  · obtain ⟨near, near'⟩ := roundDiv_near .toEven d_pos n
    have scaled := Nat.mul_le_mul_left low near
    have scaled' := Nat.mul_le_mul_left low near'
    rw [Nat.mul_add] at scaled scaled'
    constructor <;> linarith
  · rw [roundDiv_mul .toEven d_pos low]
    have pos := Nat.mul_pos low_pos d_pos
    omega

/-- A finite magnitude that is not below the normal ones is less than its `2 ^ 53`th part away from what
is rounded to it. -/
theorem unitsOfCode_nearestCode_near (d_pos : 0 < d) (normal : pow2 52 * d ≤ n)
    (finite : nearestCode n d < infinityCode) :
  unitsOfCode (nearestCode n d) * d * pow2 53 < n * pow2 53 + n ∧
    n * pow2 53 < unitsOfCode (nearestCode n d) * d * pow2 53 + n
  := by
  obtain ⟨e, code, code_eq, reached, units_eq⟩ := exists_multiple d_pos normal
  have uncapped : nearestCode n d = code := by omega
  have near := roundDiv_toEven_near (Nat.mul_pos d_pos (pow2_pos e)) (pow2_pos 52) reached
  rw [← pow2_succ] at near
  have product_eq : unitsOfCode code * d * pow2 53 =
      pow2 53 * (roundDiv .toEven n (d * pow2 e) * (d * pow2 e)) := by
    rw [units_eq]
    ring
  rw [uncapped, product_eq, Nat.mul_comm n]
  exact near

end Tariff.Binary64
