import Tariff.Power

/-!
# Decimal numerals

Natural numbers and fixed-point numbers in ASCII digits.
-/

namespace Tariff.Text

/-- The digits of a natural number, without leading zeros. -/
def numeral (n : Nat) : List Char :=
  Nat.toDigits 10 n

/-- The number that a list of digits denotes. -/
def numeralValue (digits : List Char) : Nat :=
  Nat.ofDigitChars 10 digits 0

/-- `cs` with zeros in front up to the given length. -/
def padLeft (length : Nat) (cs : List Char) : List Char :=
  List.replicate (length - cs.length) '0' ++ cs

/-- The number `coefficient / 10 ^ places` with exactly `places` digits after the point, and no
point for none. -/
def fixedPoint (coefficient places : Nat) : List Char :=
  numeral (coefficient / pow10 places) ++
    if places = 0 then []
    else '.' :: padLeft places (numeral (coefficient % pow10 places))

/-- The characters behind a minus sign if `negative`. -/
def signed (negative : Bool) (cs : List Char) : List Char :=
  if negative then '-' :: cs else cs

/-- An integer in decimal digits. -/
def integer (n : Int) : List Char :=
  signed (n < 0) (numeral n.natAbs)

/-- The digits of a number denote it. -/
@[simp] theorem numeralValue_numeral (n : Nat) :
  numeralValue (numeral n) = n
  := Nat.ofDigitChars_ten_toDigits

/-- Zeros in front do not change what digits denote. -/
theorem numeralValue_padLeft (length : Nat) (cs : List Char) :
  numeralValue (padLeft length cs) = numeralValue cs
  := by
  simp [numeralValue, padLeft, Nat.ofDigitChars_append, Nat.ofDigitChars_replicate_zero]

/-- Digits behind others count less than those by a power of ten. -/
theorem numeralValue_append (cs ds : List Char) :
  numeralValue (cs ++ ds) = numeralValue cs * pow10 ds.length + numeralValue ds
  := by
  rw [numeralValue, Nat.ofDigitChars_append, Nat.ofDigitChars_eq_ofDigitChars_zero,
    Nat.mul_comm]
  rfl

/-- Padding reaches the given length and never cuts. -/
theorem length_padLeft (length : Nat) (cs : List Char) :
  (padLeft length cs).length = max length cs.length
  := by
  simp only [padLeft, List.length_append, List.length_replicate]
  omega

/-- The places of a number are as many digits. -/
theorem length_padLeft_numeral (coefficient : Nat) {places : Nat} (pos : 0 < places) :
  (padLeft places (numeral (coefficient % pow10 places))).length = places
  := by
  rw [length_padLeft]
  apply Nat.max_eq_left
  exact (Nat.length_toDigits_le_iff (by decide) pos).mpr (Nat.mod_lt _ (pow10_pos places))

/-- Every character of a numeral is a digit. -/
theorem isDigit_of_mem_numeral {n : Nat} {c : Char} (h : c ∈ numeral n) :
  c.isDigit = true
  := Nat.isDigit_of_mem_toDigits (by decide) (by decide) h

example : String.ofList (fixedPoint 1250 3) = "1.250" := by decide
example : String.ofList (fixedPoint 7 3) = "0.007" := by decide
example : String.ofList (fixedPoint 42 0) = "42" := by decide
example : String.ofList (integer (-42)) = "-42" := by decide

end Tariff.Text
