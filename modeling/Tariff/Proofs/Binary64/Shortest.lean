import Tariff.Binary64.Shortest
import Tariff.Proofs.Binary64.Arithmetic

/-!
# The shortest decimal reads back

The search for the shortest decimal ends at a point of a grid that lies between the midpoints to the
neighbours of the number, so that the number is nearest to it.  A coarser grid has no such point only
if its steps are about as long as those between the numbers, which bounds the digits of what is found.
-/

namespace Tariff.Binary64

/-! ### Points that read back -/

/-- A point reads back as the code that it rounds to. -/
theorem readsBack_iff {code grid point : Nat} :
  readsBack code grid point = true ↔ Rounds (point * gridStep grid) (pow10 finestGrid) code
  := by
  unfold readsBack
  simp only [Nat.mul_assoc]
  constructor
  · intro reads
    split at reads
    case isTrue even =>
      simp only [Bool.and_eq_true, decide_eq_true_eq] at reads
      exact ⟨reads.1, reads.2, by omega, by omega⟩
    case isFalse odd =>
      simp only [Bool.and_eq_true, decide_eq_true_eq] at reads
      exact ⟨by omega, by omega, by omega, by omega⟩
  · rintro ⟨low, high, low_ne, high_ne⟩
    split
    case isTrue even =>
      simp only [Bool.and_eq_true, decide_eq_true_eq]
      exact ⟨low, high⟩
    case isFalse odd =>
      have odd : code % 2 = 1 := by omega
      have := low_ne odd
      have := high_ne odd
      simp only [Bool.and_eq_true, decide_eq_true_eq]
      omega

/-- The point that is found on a grid reads back. -/
theorem rounds_of_gridPoint? {tie : Tie} {code grid point : Nat}
    (found : gridPoint? tie code grid = some point) :
  Rounds (point * gridStep grid) (pow10 finestGrid) code
  := by
  apply readsBack_iff.mp
  unfold gridPoint? at found
  dsimp only at found
  generalize roundDiv tie (unitsOfCode code * pow10 finestGrid) (gridStep grid) = nearer at found
  generalize (if nearer = _ then _ else _) = other at found
  split at found
  case isTrue reads =>
    obtain rfl := Option.some.inj found
    exact reads
  case isFalse =>
    split at found
    case isTrue reads =>
      obtain rfl := Option.some.inj found
      exact reads
    case isFalse => cases found

/-- The lower neighbour of a code is the nearer one. -/
theorem unitsOfCode_steps (code : Nat) :
  unitsOfCode code - unitsOfCode (code - 1) ≤ unitsOfCode (code + 1) - unitsOfCode code
  := by
  cases code with
  | zero => simp
  | succ code =>
    rw [Nat.add_sub_cancel, unitsOfCode_succ (code + 1), unitsOfCode_succ code]
    have le : pow2 (shiftOfCode code) ≤ pow2 (shiftOfCode (code + 1)) := by
      apply pow2_le
      exact Nat.sub_le_sub_right (Nat.div_le_div_right (Nat.le_succ code)) 1
    omega

/-- A grid whose steps are shorter than those between numbers has a point that reads back. -/
theorem isSome_gridPoint? (tie : Tie) {code grid : Nat}
    (short : gridStep grid < (unitsOfCode code - unitsOfCode (code - 1)) * pow10 finestGrid) :
  (gridPoint? tie code grid).isSome = true
  := by
  have step_pos : 0 < gridStep grid := Nat.mul_pos (pow10_pos _) (pow2_pos _)
  obtain ⟨near, near'⟩ := roundDiv_near tie step_pos (unitsOfCode code * pow10 finestGrid)
  have previous_le : unitsOfCode (code - 1) ≤ unitsOfCode code :=
    strictMono_unitsOfCode.monotone (Nat.sub_le code 1)
  have next_le : unitsOfCode code ≤ unitsOfCode (code + 1) :=
    strictMono_unitsOfCode.monotone (Nat.le_succ code)
  have short' : gridStep grid < (unitsOfCode (code + 1) - unitsOfCode code) * pow10 finestGrid :=
    short.trans_le (Nat.mul_le_mul_right _ (unitsOfCode_steps code))
  rw [Nat.sub_mul] at short short'
  have reads : readsBack code grid
      (roundDiv tie (unitsOfCode code * pow10 finestGrid) (gridStep grid)) = true := by
    rw [readsBack_iff]
    constructor
    · rw [Nat.add_mul]
      omega
    · rw [Nat.add_mul]
      omega
    · rw [Nat.add_mul]
      omega
    · rw [Nat.add_mul]
      omega
  unfold gridPoint?
  dsimp only
  rw [if_pos reads]
  rfl

/-- The search ends at a point that reads back, and at none of the grid before. -/
theorem shortestFrom_spec (tie : Tie) {code : Nat} (code_pos : 0 < code) (grid : Nat) :
  ∃ g ≤ grid, (shortestFrom tie code grid).exponent = (g : Int) - finestGrid ∧
    gridPoint? tie code g = some (shortestFrom tie code grid).coefficient ∧
    (g < grid → gridPoint? tie code (g + 1) = none)
  := by
  induction grid with
  | zero =>
    have step_pos : 0 < unitsOfCode code - unitsOfCode (code - 1) := by
      have : unitsOfCode (code - 1) < unitsOfCode code := strictMono_unitsOfCode (by omega)
      omega
    have short : gridStep 0 < (unitsOfCode code - unitsOfCode (code - 1)) * pow10 finestGrid := by
      have finest : gridStep 0 < 1 * pow10 finestGrid := by decide +kernel
      exact finest.trans_le (Nat.mul_le_mul_right _ step_pos)
    obtain ⟨point, found⟩ := Option.isSome_iff_exists.mp (isSome_gridPoint? tie short)
    refine ⟨0, Nat.le_refl 0, ?_, ?_, ?_⟩
    · rw [shortestFrom]
      rfl
    · rw [shortestFrom, found]
      rfl
    · intro lt
      cases lt
  | succ grid ih =>
    rw [shortestFrom]
    cases found : gridPoint? tie code (grid + 1) with
    | some point => exact ⟨grid + 1, Nat.le_refl _, rfl, found, by omega⟩
    | none =>
      obtain ⟨g, g_le, exponent_eq, found_g, none_before⟩ := ih
      refine ⟨g, by omega, exponent_eq, found_g, ?_⟩
      intro lt
      rcases Nat.lt_or_ge g grid with below | at_end
      · exact none_before below
      · obtain rfl : g = grid := by omega
        exact found

/-! ### Bounds -/

/-- The magnitudes of finite numbers are below `2 ^ 1024`. -/
theorem unitsOfCode_infinityCode :
  unitsOfCode infinityCode = pow2 1024 * pow2 1074
  := by
  have block_eq : infinityCode = 2046 * pow2 52 + pow2 52 := by decide
  have exponents : 52 + 2046 = 1024 + 1074 := by decide
  rw [block_eq, unitsOfCode_block (.inl (Nat.le_refl _)) (by decide), ← pow2_add, exponents, pow2_add]

/-- What rounds to a finite number is below `10 ^ 309`. -/
theorem Rounds.point_lt {point grid code : Nat}
    (rounds : Rounds (point * gridStep grid) (pow10 finestGrid) code)
    (finite : code < infinityCode) :
  point * pow10 grid < pow10 coarsestGrid
  := by
  have units_le : unitsOfCode code ≤ unitsOfCode infinityCode :=
    strictMono_unitsOfCode.monotone finite.le
  have next_le : unitsOfCode (code + 1) ≤ unitsOfCode infinityCode :=
    strictMono_unitsOfCode.monotone finite
  have below : pow2 1024 * pow10 finestGrid < pow10 coarsestGrid := by decide +kernel
  apply Nat.lt_of_le_of_lt _ below
  apply Nat.le_of_mul_le_mul_right _ (pow2_pos 1074)
  apply Nat.le_of_mul_le_mul_left _ Nat.two_pos
  calc 2 * (point * pow10 grid * pow2 1074) = 2 * (point * gridStep grid) := by
        rw [gridStep, Nat.mul_assoc point]
    _ ≤ (unitsOfCode code + unitsOfCode (code + 1)) * pow10 finestGrid := rounds.high
    _ ≤ (2 * unitsOfCode infinityCode) * pow10 finestGrid := Nat.mul_le_mul_right _ (by omega)
    _ = 2 * (pow2 1024 * pow10 finestGrid * pow2 1074) := by
        rw [unitsOfCode_infinityCode]
        ring

/-- What rounds to a number that is not zero is not zero. -/
theorem Rounds.point_pos {point grid code : Nat}
    (rounds : Rounds (point * gridStep grid) (pow10 finestGrid) code) (code_pos : 0 < code) :
  0 < point
  := by
  rcases Nat.eq_zero_or_pos point with rfl | pos
  · have units_pos : unitsOfCode 0 < unitsOfCode code := strictMono_unitsOfCode code_pos
    have product_pos := Nat.mul_pos (Nat.zero_lt_of_lt units_pos) (pow10_pos finestGrid)
    have low := rounds.low
    rw [Nat.add_mul] at low
    omega
  · exact pos

/-- A magnitude that is not zero is at least the step to the next one. -/
theorem unitsOfCode_succ_le_two_mul {code : Nat} (code_pos : 0 < code) :
  unitsOfCode (code + 1) ≤ 2 * unitsOfCode code
  := by
  have units_pos : unitsOfCode 0 < unitsOfCode code := strictMono_unitsOfCode code_pos
  have significand_pos : 0 < significandOfCode code := by
    apply Nat.pos_of_ne_zero
    intro zero
    rw [unitsOfCode, unitsOfCode, zero] at units_pos
    omega
  have le : 1 * pow2 (shiftOfCode code) ≤ unitsOfCode code :=
    Nat.mul_le_mul_right _ significand_pos
  rw [unitsOfCode_succ]
  omega

/-- A point that reads back is small if there is none on the next coarser grid. -/
theorem Rounds.point_lt_of_none {tie : Tie} {point grid code : Nat}
    (rounds : Rounds (point * gridStep grid) (pow10 finestGrid) code) (code_pos : 0 < code)
    (none_before : gridPoint? tie code (grid + 1) = none) :
  point < pow2 57
  := by
  have long : (unitsOfCode code - unitsOfCode (code - 1)) * pow10 finestGrid ≤
      gridStep (grid + 1) := by
    apply Nat.le_of_not_lt
    intro short
    have found := isSome_gridPoint? tie short
    rw [none_before] at found
    cases found
  have units_le : unitsOfCode code ≤
      pow2 53 * (unitsOfCode code - unitsOfCode (code - 1)) := by
    obtain ⟨previous, rfl⟩ : ∃ previous, code = previous + 1 := ⟨code - 1, by omega⟩
    exact unitsOfCode_succ_le previous
  have next_le := unitsOfCode_succ_le_two_mul code_pos
  have step_pos : 0 < gridStep grid := Nat.mul_pos (pow10_pos _) (pow2_pos _)
  have step_eq : gridStep (grid + 1) = 10 * gridStep grid := by
    rw [gridStep, gridStep, pow10_succ, Nat.mul_assoc]
  have bound : 2 * point ≤ 30 * pow2 53 := by
    apply Nat.le_of_mul_le_mul_right _ step_pos
    calc 2 * point * gridStep grid = 2 * (point * gridStep grid) := Nat.mul_assoc ..
      _ ≤ (unitsOfCode code + unitsOfCode (code + 1)) * pow10 finestGrid := rounds.high
      _ ≤ 3 * (pow2 53 * (unitsOfCode code - unitsOfCode (code - 1))) * pow10 finestGrid :=
        Nat.mul_le_mul_right _ (by omega)
      _ = 3 * pow2 53 * ((unitsOfCode code - unitsOfCode (code - 1)) * pow10 finestGrid) := by
        ring
      _ ≤ 3 * pow2 53 * gridStep (grid + 1) := Nat.mul_le_mul_left _ long
      _ = 30 * pow2 53 * gridStep grid := by
        rw [step_eq]
        ring
  have p53 : pow2 53 = 9007199254740992 := rfl
  have p57 : pow2 57 = 144115188075855872 := rfl
  omega

/-- The shortest decimal of a finite number that is not zero rounds to it, is not zero, and has a
coefficient below `2 ^ 57`. -/
theorem shortest_spec (tie : Tie) {x : Binary64} (finite : x.isFinite = true)
    (nonzero : 0 < x.code) :
  ∃ grid : Nat, (x.shortest tie).exponent = (grid : Int) - finestGrid ∧
    Rounds ((x.shortest tie).coefficient * gridStep grid) (pow10 finestGrid) x.code ∧
    0 < (x.shortest tie).coefficient ∧ (x.shortest tie).coefficient < pow2 57
  := by
  have finite : x.code < infinityCode := of_decide_eq_true finite
  have not_zero : x.isZero = false := decide_eq_false (by omega)
  rw [shortest, not_zero, if_neg Bool.false_ne_true]
  obtain ⟨grid, grid_le, exponent_eq, found, none_before⟩ :=
    shortestFrom_spec tie nonzero coarsestGrid
  have rounds := rounds_of_gridPoint? found
  have pos := rounds.point_pos nonzero
  refine ⟨grid, exponent_eq, rounds, pos, ?_⟩
  rcases Nat.lt_or_ge grid coarsestGrid with below | coarsest
  · exact rounds.point_lt_of_none nonzero (none_before below)
  · -- No multiple of the coarsest step is so small.
    obtain rfl : grid = coarsestGrid := by omega
    have lt := rounds.point_lt finite
    have := Nat.mul_le_mul_right (pow10 coarsestGrid) pos
    omega

/-- The shortest decimal of a finite number has a coefficient below `2 ^ 57`. -/
theorem shortest_coefficient_lt (tie : Tie) {x : Binary64} (finite : x.isFinite = true) :
  (x.shortest tie).coefficient < pow2 57
  := by
  rcases Nat.eq_zero_or_pos x.code with zero | nonzero
  · have is_zero : x.isZero = true := decide_eq_true zero
    rw [shortest, if_pos is_zero]
    exact pow2_pos 57
  · obtain ⟨-, -, -, -, lt⟩ := shortest_spec tie finite nonzero
    exact lt

/-- The shortest decimals of finite numbers do not exceed that of the largest one. -/
theorem shortest_le {x : Binary64} (finite : x.isFinite = true) (nonzero : 0 < x.code) {e : Nat}
    (exponent_eq : (x.shortest .toEven).exponent = e) :
  (x.shortest .toEven).coefficient * pow10 e ≤ 17976931348623157 * pow10 292
  := by
  have code_lt : x.code < infinityCode := of_decide_eq_true finite
  by_cases largest : x.code = infinityCode - 1
  · have not_zero : x.isZero = false := decide_eq_false (by omega)
    have found : shortestFrom .toEven (infinityCode - 1) coarsestGrid =
        ⟨17976931348623157, 292⟩ := by
      decide +kernel
    rw [shortest, not_zero, if_neg Bool.false_ne_true, largest, found] at exponent_eq ⊢
    obtain rfl : 292 = e := Int.ofNat_inj.mp exponent_eq
    dsimp only
    exact Nat.le_refl _
  · obtain ⟨grid, grid_eq, rounds, -, -⟩ := shortest_spec .toEven finite nonzero
    obtain rfl : grid = e + finestGrid := by
      rw [grid_eq] at exponent_eq
      omega
    have units_le : unitsOfCode x.code ≤ unitsOfCode (infinityCode - 2) :=
      strictMono_unitsOfCode.monotone (by omega)
    have next_le : unitsOfCode (x.code + 1) ≤ unitsOfCode (infinityCode - 1) :=
      strictMono_unitsOfCode.monotone (by omega)
    have below : (unitsOfCode (infinityCode - 2) + unitsOfCode (infinityCode - 1)) *
        pow10 finestGrid ≤ 2 * (17976931348623157 * pow10 292 * (pow10 finestGrid * pow2 1074)) := by
      decide +kernel
    apply Nat.le_of_mul_le_mul_right _ (Nat.mul_pos (pow10_pos finestGrid) (pow2_pos 1074))
    apply Nat.le_of_mul_le_mul_left _ Nat.two_pos
    calc 2 * ((x.shortest .toEven).coefficient * pow10 e * (pow10 finestGrid * pow2 1074))
        = 2 * ((x.shortest .toEven).coefficient * gridStep (e + finestGrid)) := by
          rw [gridStep, pow10_add]
          ring
      _ ≤ (unitsOfCode x.code + unitsOfCode (x.code + 1)) * pow10 finestGrid := rounds.high
      _ ≤ (unitsOfCode (infinityCode - 2) + unitsOfCode (infinityCode - 1)) * pow10 finestGrid :=
        Nat.mul_le_mul_right _ (Nat.add_le_add units_le next_le)
      _ ≤ _ := below

/-! ### Reading back -/

/-- A number below a power of ten has no more digits than its exponent says. -/
theorem length_numeral_add_le {n grid bound : Nat} (pos : 0 < n)
    (lt : n * pow10 grid < pow10 bound) :
  (Text.numeral n).length + grid ≤ bound
  := by
  have grid_lt : grid < bound := by
    apply lt_of_pow10_lt
    calc pow10 grid = 1 * pow10 grid := (Nat.one_mul _).symm
      _ ≤ n * pow10 grid := Nat.mul_le_mul_right _ pos
      _ < pow10 bound := lt
  have split_eq : pow10 bound = pow10 (bound - grid) * pow10 grid := by
    rw [← pow10_add, Nat.sub_add_cancel grid_lt.le]
  rw [split_eq] at lt
  have n_lt : n < pow10 (bound - grid) := Nat.lt_of_mul_lt_mul_right lt
  have length_le : (Text.numeral n).length ≤ bound - grid :=
    (Nat.length_toDigits_le_iff (by decide) (by omega)).mpr n_lt
  omega

/-- A decimal that rounds to a finite number is read as that number. -/
theorem Rounds.ofDecimal_eq {point grid code : Nat}
    (rounds : Rounds (point * gridStep grid) (pow10 finestGrid) code) (negative : Bool)
    (code_pos : 0 < code) (finite : code < infinityCode) :
  ofDecimal negative point ((grid : Int) - finestGrid) = ofCode negative code
  := by
  have pos := rounds.point_pos code_pos
  have length_le := length_numeral_add_le pos (rounds.point_lt finite)
  have length_pos : 0 < (Text.numeral point).length :=
    List.length_pos_iff.mpr Nat.toDigits_ne_nil
  have limits : finestGrid = 324 ∧ coarsestGrid = 633 := ⟨rfl, rfl⟩
  have read_code : nearestCode (point * gridStep grid) (pow10 finestGrid) = code :=
    rounds.nearestCode_eq (pow10_pos _) finite.le
  unfold ofDecimal
  dsimp only
  rw [if_neg (by simp; omega), if_neg (by omega)]
  rw [← read_code]
  split
  case isTrue below =>
    apply nearest_eq (pow10_pos _)
    have exponents : finestGrid = grid + ((grid : Int) - finestGrid).natAbs := by omega
    have split_eq : pow10 finestGrid =
        pow10 grid * pow10 ((grid : Int) - finestGrid).natAbs := by
      rw [← pow10_add, ← exponents]
    have places_ne : (pow10 ((grid : Int) - finestGrid).natAbs : ℚ) ≠ 0 := (pow10_pos_rat _).ne'
    rw [Rat.mkRat_eq_div, gridStep, split_eq, abs_div, Nat.abs_cast, Int.cast_natCast,
      Nat.abs_cast]
    push_cast
    -- The numbers are too large to be computed.
    generalize pow10 ((grid : Int) - finestGrid).natAbs = places at places_ne ⊢
    generalize pow2 1074 = size
    field_simp
  case isFalse above =>
    apply nearest_eq (pow10_pos _)
    have exponents : grid = finestGrid + ((grid : Int) - finestGrid).natAbs := by omega
    have split_eq : pow10 grid =
        pow10 finestGrid * pow10 ((grid : Int) - finestGrid).natAbs := by
      rw [← pow10_add, ← exponents]
    rw [Nat.abs_cast, gridStep, split_eq]
    generalize pow2 1074 = size
    push_cast
    ring

end Tariff.Binary64
