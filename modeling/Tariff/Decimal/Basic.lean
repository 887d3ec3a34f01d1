import Tariff.Rounding
import Tariff.Text.Numeral

/-!
# Decimals

A decimal is a sign, a coefficient of 96 bits and a scale of at most 28 places.  Decimals of
different scales may be equal in value.  A zero keeps its scale and, where an operation says so, a
sign.
-/

namespace Tariff

/-- The number `coefficient / 10 ^ scale` with a sign. -/
structure Decimal where
  negative : Bool
  coefficient : Nat
  scale : Nat
  coefficient_lt : coefficient < pow2 96
  scale_le : scale ≤ 28
deriving DecidableEq

namespace Decimal

/-- A decimal may have no places. -/
theorem no_places_le : 0 ≤ 28 := by decide

/-- The decimal zero without places. -/
def zero : Decimal := ⟨false, 0, 0, by decide, no_places_le⟩

/-- The decimal one without places. -/
def one : Decimal := ⟨false, 1, 0, by decide, no_places_le⟩

/-- The largest decimal. -/
def max : Decimal := ⟨false, pow2 96 - 1, 0, by decide, no_places_le⟩

/-- The value is zero. -/
def isZero (d : Decimal) : Bool :=
  d.coefficient = 0

/-- The coefficient with its sign. -/
def signedCoefficient (d : Decimal) : Int :=
  if d.negative then -(d.coefficient : Int) else d.coefficient

/-- The exact value. -/
def toRat (d : Decimal) : Rat :=
  mkRat d.signedCoefficient (pow10 d.scale)

/-- The integer of an absolute value below `2 ^ 96` as a decimal without places. -/
def ofInt? (n : Int) : Option Decimal :=
  if h : n.natAbs < pow2 96 then some ⟨n < 0, n.natAbs, 0, h, no_places_le⟩ else none

/-- The coefficient and scale without the zeros at the end of the places. -/
def stripZeros (coefficient : Nat) : Nat → Nat × Nat
  | 0 => (coefficient, 0)
  | scale + 1 =>
    if coefficient % 10 = 0 then stripZeros (coefficient / 10) scale else (coefficient, scale + 1)

/-- Stripping zeros raises neither the coefficient nor the scale. -/
theorem stripZeros_le (coefficient scale : Nat) :
  (stripZeros coefficient scale).1 ≤ coefficient ∧ (stripZeros coefficient scale).2 ≤ scale
  := by
  induction scale generalizing coefficient with
  | zero => simp [stripZeros]
  | succ scale ih =>
    simp only [stripZeros]
    split
    · have h := ih (coefficient / 10)
      have hd : coefficient / 10 ≤ coefficient := Nat.div_le_self _ _
      omega
    · simp

/-- Stripping zeros keeps the value. -/
theorem stripZeros_value (coefficient scale : Nat) :
  (stripZeros coefficient scale).1 * pow10 scale
    = coefficient * pow10 (stripZeros coefficient scale).2
  := by
  induction scale generalizing coefficient with
  | zero => simp [stripZeros]
  | succ scale ih =>
    simp only [stripZeros]
    split
    · rename_i hmod
      have h := ih (coefficient / 10)
      have hc : coefficient = coefficient / 10 * 10 := by omega
      generalize stripZeros (coefficient / 10) scale = p at h ⊢
      calc p.1 * pow10 (scale + 1) = p.1 * pow10 scale * 10 := by
            rw [pow10_succ, Nat.mul_comm 10, Nat.mul_assoc]
        _ = coefficient / 10 * pow10 p.2 * 10 := by rw [h]
        _ = coefficient / 10 * 10 * pow10 p.2 := by
          rw [Nat.mul_assoc, Nat.mul_comm (pow10 p.2), Nat.mul_assoc]
        _ = coefficient * pow10 p.2 := by rw [← hc]
    · rfl

/-- The decimal of the same value with the fewest places; zero loses its sign. -/
def normalize (d : Decimal) : Decimal :=
  let stripped := stripZeros d.coefficient d.scale
  { negative := d.negative && !d.isZero
    coefficient := stripped.1
    scale := stripped.2
    coefficient_lt := Nat.lt_of_le_of_lt (stripZeros_le _ _).1 d.coefficient_lt
    scale_le := Nat.le_trans (stripZeros_le _ _).2 d.scale_le }

/-- The digits without the sign, all places shown. -/
def unsignedChars (d : Decimal) : List Char :=
  Text.fixedPoint d.coefficient d.scale

/-- The decimal in digits, all places shown. -/
def toText (d : Decimal) : String :=
  String.ofList (Text.signed d.negative d.unsignedChars)

example : (normalize ⟨true, 1200, 3, by decide, by decide⟩).toText = "-1.2" := by decide
example : (normalize ⟨true, 0, 3, by decide, by decide⟩).toText = "0" := by decide

end Decimal

end Tariff
