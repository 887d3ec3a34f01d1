/-!
# Division rounded to a whole number

The quotient of two natural numbers, rounded to the nearest whole number, with a rule for the
quotients that lie halfway between two of them.
-/

namespace Tariff

/-- Where a quotient halfway between two whole numbers goes. -/
inductive Tie where
  /-- To the even one of the two. -/
  | toEven
  /-- To the larger of the two. -/
  | up
deriving DecidableEq, Repr

/-- The whole number nearest to `n / d`. -/
def roundDiv (tie : Tie) (n d : Nat) : Nat :=
  let q := n / d
  let r := n % d
  if 2 * r < d then q
  else if d < 2 * r then q + 1
  else
    match tie with
    | .toEven => if q % 2 = 0 then q else q + 1
    | .up => q + 1

/-- The rounded quotient is the quotient or one more. -/
theorem roundDiv_eq_or (tie : Tie) (n d : Nat) :
  roundDiv tie n d = n / d ∨ roundDiv tie n d = n / d + 1
  := by
  simp only [roundDiv]
  split
  · exact Or.inl rfl
  split
  · exact Or.inr rfl
  cases tie
  · simp only
    split
    · exact Or.inl rfl
    · exact Or.inr rfl
  · exact Or.inr rfl

/-- A multiple of the divisor is divided without rounding. -/
theorem roundDiv_mul (tie : Tie) {d : Nat} (hd : 0 < d) (q : Nat) :
  roundDiv tie (q * d) d = q
  := by
  have hr : q * d % d = 0 := Nat.mul_mod_left q d
  simp [roundDiv, hr, hd]

/-- Rounding a quotient by two or more does not exceed the dividend. -/
theorem roundDiv_le (tie : Tie) {n d : Nat} (hd : 2 ≤ d) :
  roundDiv tie n d ≤ n
  := by
  have hn : n / d * d + n % d = n := Nat.div_add_mod' n d
  have hq : n / d * 2 ≤ n / d * d := Nat.mul_le_mul_left _ hd
  by_cases hr : 2 * (n % d) < d
  · simp only [roundDiv, hr, if_true]
    omega
  · rcases roundDiv_eq_or tie n d with h | h <;> omega

/-- The rounded quotient is within half a unit of the quotient. -/
theorem roundDiv_near (tie : Tie) {d : Nat} (hd : 0 < d) (n : Nat) :
  2 * (roundDiv tie n d * d) ≤ 2 * n + d ∧ 2 * n ≤ 2 * (roundDiv tie n d * d) + d
  := by
  have hn : n / d * d + n % d = n := Nat.div_add_mod' n d
  have hlt : n % d < d := Nat.mod_lt n hd
  have hs : (n / d + 1) * d = n / d * d + d := Nat.succ_mul _ _
  simp only [roundDiv]
  split
  · omega
  split
  · rw [hs]; omega
  cases tie
  · simp only
    split
    · omega
    · rw [hs]; omega
  · simp only [hs]; omega

end Tariff
