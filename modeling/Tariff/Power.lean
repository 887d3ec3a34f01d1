/-!
# Powers of two and of ten

The powers that numbers are scaled by, with the rules by which they are computed.
-/

namespace Tariff

/-- The power `2 ^ n`. -/
def pow2 (n : Nat) : Nat :=
  Nat.pow 2 n

/-- The power `10 ^ n`. -/
def pow10 (n : Nat) : Nat :=
  Nat.pow 10 n

/-- The next power of two is twice as large. -/
theorem pow2_succ (n : Nat) :
  pow2 (n + 1) = 2 * pow2 n
  := Nat.mul_comm _ _

/-- Powers of two multiply by adding their exponents. -/
theorem pow2_add (m n : Nat) :
  pow2 (m + n) = pow2 m * pow2 n
  := Nat.pow_add 2 m n

/-- Powers of two are positive. -/
theorem pow2_pos (n : Nat) :
  0 < pow2 n
  := Nat.pow_pos (by decide)

/-- Of two exponents the larger one has the larger power of two. -/
theorem pow2_le {m n : Nat} (h : m ≤ n) :
  pow2 m ≤ pow2 n
  := Nat.pow_le_pow_right (by decide) h

/-- Of two powers of two the larger one has the larger exponent. -/
theorem le_of_pow2_le {m n : Nat} (h : pow2 m ≤ pow2 n) :
  m ≤ n
  := (Nat.pow_le_pow_iff_right (by decide)).mp h

/-- The next power of ten is ten times as large. -/
theorem pow10_succ (n : Nat) :
  pow10 (n + 1) = 10 * pow10 n
  := Nat.mul_comm _ _

/-- Powers of ten multiply by adding their exponents. -/
theorem pow10_add (m n : Nat) :
  pow10 (m + n) = pow10 m * pow10 n
  := Nat.pow_add 10 m n

/-- Powers of ten are positive. -/
theorem pow10_pos (n : Nat) :
  0 < pow10 n
  := Nat.pow_pos (by decide)

/-- Of two exponents the larger one has the larger power of ten. -/
theorem pow10_le {m n : Nat} (h : m ≤ n) :
  pow10 m ≤ pow10 n
  := Nat.pow_le_pow_right (by decide) h

/-- A power of ten that is not the first is at least two. -/
theorem two_le_pow10 {n : Nat} (h : 0 < n) :
  2 ≤ pow10 n
  := by
  cases n with
  | zero => contradiction
  | succ n =>
    have hn := pow10_pos n
    rw [pow10_succ]
    omega

/-- Of two powers of ten the larger one has the larger exponent. -/
theorem lt_of_pow10_lt {m n : Nat} (h : pow10 m < pow10 n) :
  m < n
  := (Nat.pow_lt_pow_iff_right (by decide)).mp h

end Tariff
