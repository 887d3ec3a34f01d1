import Tariff.Proofs.Binary64.Shortest

/-!
# Short decimals

On a grid whose points have a coefficient below `2 ^ 52` the points are further apart than the numbers
are, so that no two of them read back as one number.  A decimal with such a coefficient has therefore
the value of the shortest decimal of the number that is nearest to it.
-/

namespace Tariff.Binary64

variable {code grid point n m d : Nat} {tie : Tie}

/-! ### Points of coarser grids -/

/-- A point of a coarser grid is a point of the grid. -/
theorem mul_gridStep_add (point grid k : Nat) :
  point * gridStep (grid + k) = point * pow10 k * gridStep grid
  := by
  rw [gridStep, gridStep, pow10_add]
  ring

/-- What lies between a rational and the number that it rounds to from above rounds to it. -/
theorem Rounds.of_le_units (rounds : Rounds n d code) (d_pos : 0 < d) (le : n ≤ m)
    (le_units : m ≤ unitsOfCode code * d) :
  Rounds m d code
  := by
  have lt : unitsOfCode code * d < unitsOfCode (code + 1) * d :=
    Nat.mul_lt_mul_of_pos_right (strictMono_unitsOfCode (Nat.lt_succ_self code)) d_pos
  have := rounds.low
  have := rounds.low_ne
  constructor
  · omega
  · rw [Nat.add_mul]
    omega
  · omega
  · rw [Nat.add_mul]
    omega

/-- What lies between a rational and the number that it rounds to from below rounds to it. -/
theorem Rounds.of_units_le (rounds : Rounds n d code) (d_pos : 0 < d) (le : m ≤ n)
    (units_le : unitsOfCode code * d ≤ m) :
  Rounds m d code
  := by
  have previous_le : unitsOfCode (code - 1) * d ≤ unitsOfCode code * d :=
    Nat.mul_le_mul_right d (strictMono_unitsOfCode.monotone (Nat.sub_le code 1))
  have previous_lt (odd : code % 2 = 1) : unitsOfCode (code - 1) * d < unitsOfCode code * d :=
    Nat.mul_lt_mul_of_pos_right (strictMono_unitsOfCode (by omega)) d_pos
  have := rounds.high
  have := rounds.high_ne
  constructor
  · rw [Nat.add_mul]
    omega
  · omega
  · rw [Nat.add_mul]
    intro odd
    have := previous_lt odd
    omega
  · omega

/-- A grid of which one point reads back is not passed over. -/
theorem isSome_gridPoint?_of_rounds (tie : Tie)
    (rounds : Rounds (point * gridStep grid) (pow10 finestGrid) code) :
  (gridPoint? tie code grid).isSome = true
  := by
  have step_pos : 0 < gridStep grid := Nat.mul_pos (pow10_pos _) (pow2_pos _)
  have quotient_le := Nat.div_mul_le_self (unitsOfCode code * pow10 finestGrid) (gridStep grid)
  have lt_next := Nat.lt_div_mul_add (a := unitsOfCode code * pow10 finestGrid) step_pos
  -- The points around the number are nearer to it than any other on their side.
  have reads : readsBack code grid (unitsOfCode code * pow10 finestGrid / gridStep grid) = true ∨
      readsBack code grid (unitsOfCode code * pow10 finestGrid / gridStep grid + 1) = true := by
    simp only [readsBack_iff]
    rcases Nat.lt_or_ge (unitsOfCode code * pow10 finestGrid / gridStep grid) point with above | below
    · right
      apply rounds.of_units_le (pow10_pos _) (Nat.mul_le_mul_right _ above)
      rw [Nat.succ_mul]
      exact lt_next.le
    · left
      apply rounds.of_le_units (pow10_pos _) (Nat.mul_le_mul_right _ below) quotient_le
  rcases roundDiv_eq_or tie (unitsOfCode code * pow10 finestGrid) (gridStep grid) with eq | eq
  · unfold gridPoint?
    dsimp only
    rw [eq, if_pos rfl]
    split
    case isTrue => rfl
    case isFalse not_reads =>
      rw [if_pos (reads.resolve_left not_reads)]
      rfl
  · unfold gridPoint?
    dsimp only
    rw [eq, if_neg (Nat.succ_ne_self _)]
    split
    case isTrue => rfl
    case isFalse not_reads =>
      rw [if_pos (reads.resolve_right not_reads)]
      rfl

/-- The search ends at no finer grid than one of which a point reads back. -/
theorem le_shortestFrom {start : Nat} (found : (gridPoint? tie code grid).isSome = true)
    (le : grid ≤ start) :
  (grid : Int) - finestGrid ≤ (shortestFrom tie code start).exponent
  := by
  induction start with
  | zero =>
    obtain rfl : grid = 0 := Nat.le_zero.mp le
    exact Int.le_of_eq (Int.zero_sub _)
  | succ start ih =>
    rw [shortestFrom]
    cases found_here : gridPoint? tie code (start + 1) with
    | some point =>
      dsimp only
      omega
    | none =>
      apply ih
      have grid_ne : grid ≠ start + 1 := by
        rintro rfl
        rw [found_here] at found
        cases found
      omega

/-! ### Points that no other one replaces -/

/-- Of two points that round to one normal number the smaller one is no short decimal. -/
theorem Rounds.le_of_lt_point {point' : Nat}
    (rounds : Rounds (point * gridStep grid) (pow10 finestGrid) code)
    (rounds' : Rounds (point' * gridStep grid) (pow10 finestGrid) code) (normal : pow2 52 ≤ code)
    (lt : point < point') :
  pow2 52 ≤ point
  := by
  have step_pos : 0 < gridStep grid := Nat.mul_pos (pow10_pos _) (pow2_pos _)
  have significand_ge : pow2 52 ≤ significandOfCode code := by
    rw [significandOfCode, if_neg (Nat.not_lt.mpr normal)]
    apply Nat.le_add_right
  have units_ge : pow2 52 * pow2 (shiftOfCode code) ≤ unitsOfCode code :=
    Nat.mul_le_mul_right _ significand_ge
  have next_eq := unitsOfCode_succ code
  have steps := unitsOfCode_steps code
  generalize pow2 (shiftOfCode code) = gap at *
  -- The points are no further apart than the midpoints are.
  have step_le : gridStep grid ≤ gap * pow10 finestGrid := by
    have next_point : point * gridStep grid + gridStep grid ≤ point' * gridStep grid := by
      rw [← Nat.succ_mul]
      apply Nat.mul_le_mul_right _ lt
    have width : (unitsOfCode code + unitsOfCode (code + 1)) * pow10 finestGrid ≤
        (unitsOfCode (code - 1) + unitsOfCode code) * pow10 finestGrid +
          2 * (gap * pow10 finestGrid) := by
      rw [← Nat.mul_assoc, ← Nat.add_mul]
      apply Nat.mul_le_mul_right
      omega
    have := rounds.low
    have := rounds'.high
    omega
  -- And the lower midpoint is many times as far from zero.
  have bits_le : 2 * pow2 52 - 1 ≤ 2 * point := by
    apply Nat.le_of_mul_le_mul_right _ step_pos
    calc (2 * pow2 52 - 1) * gridStep grid
        ≤ (2 * pow2 52 - 1) * (gap * pow10 finestGrid) := Nat.mul_le_mul_left _ step_le
      _ = (2 * (pow2 52 * gap) - gap) * pow10 finestGrid := by
        rw [← Nat.mul_assoc, Nat.sub_mul, Nat.one_mul, Nat.mul_assoc 2]
      _ ≤ (unitsOfCode (code - 1) + unitsOfCode code) * pow10 finestGrid :=
        Nat.mul_le_mul_right _ (by omega)
      _ ≤ 2 * (point * gridStep grid) := rounds.low
      _ = 2 * point * gridStep grid := (Nat.mul_assoc ..).symm
  omega

/-- A short decimal has the value of the shortest decimal of the normal number that it rounds
to. -/
theorem Rounds.shortest_eq {x : Binary64}
    (rounds : Rounds (point * gridStep grid) (pow10 finestGrid) x.code) (normal : pow2 52 ≤ x.code)
    (short : point < pow2 52) (grid_le : grid ≤ coarsestGrid) (tie : Tie) :
  ∃ k : Nat, (x.shortest tie).exponent = ((grid + k : Nat) : Int) - finestGrid ∧
    (x.shortest tie).coefficient * pow10 k = point
  := by
  have code_pos : 0 < x.code := (pow2_pos 52).trans_le normal
  have not_zero : x.isZero = false := decide_eq_false (by omega)
  rw [shortest, not_zero, if_neg Bool.false_ne_true]
  obtain ⟨grid', -, exponent_eq, found, -⟩ := shortestFrom_spec tie code_pos coarsestGrid
  have le := le_shortestFrom (isSome_gridPoint?_of_rounds tie rounds) grid_le
  obtain ⟨k, rfl⟩ : ∃ k, grid' = grid + k := ⟨grid' - grid, by omega⟩
  have rounds' := rounds_of_gridPoint? found
  rw [mul_gridStep_add] at rounds'
  refine ⟨k, exponent_eq, ?_⟩
  rcases Nat.lt_trichotomy ((shortestFrom tie x.code coarsestGrid).coefficient * pow10 k) point with
    below | eq | above
  · have := rounds'.le_of_lt_point rounds normal below
    omega
  · exact eq
  · have := rounds.le_of_lt_point rounds' normal above
    omega

end Tariff.Binary64
