import Tariff.Binary64.Basic
import Tariff.Decimal.Arithmetic

/-!
# Decimals of binary64 numbers

A whole number of halvings is divided by two each time it is even and multiplied by five
otherwise, so that it turns into as many places.  Where the product needs more than 96 bits a
half is dropped instead.  Places beyond the 28th are then dropped one at a time, each with a half
rounded up.

A whole number of doublings is carried out.  A number whose integer needs more than 96 bits has no
decimal.  The least of these is `2 ^ 96`, whose text with two places is
`79228162514264337593543950336.00`; the largest decimal is less by one.
-/

namespace Tariff.Decimal

/-- The coefficient and places of `coefficient / 2 ^ halvings` below `2 ^ 96`, where `places` have
been gained. -/
def halve (coefficient places : Nat) : Nat → Nat × Nat
  | 0 => (coefficient, places)
  | halvings + 1 =>
    if coefficient % 2 ≠ 0 ∧ 5 * coefficient < pow2 96 then
      halve (5 * coefficient) (places + 1) halvings
    else halve (coefficient / 2) places halvings

/-- The coefficient with `excess` places dropped one by one, and whether it has vanished. -/
def dropPlaces (coefficient : Nat) : Nat → Nat × Bool
  | 0 => (coefficient, false)
  | excess + 1 =>
    if coefficient / 10 = 0 then (0, true)
    else dropPlaces (if 5 ≤ coefficient % 10 then coefficient / 10 + 1 else coefficient / 10) excess

/-- The decimal of a coefficient and its places, at most 28 of which are kept; none of a
coefficient that vanishes. -/
def ofPlaces? (negative : Bool) (coefficient places : Nat) : Option Decimal :=
  let dropped := dropPlaces coefficient (places - 28)
  if h : dropped.1 < pow2 96 then
    if dropped.2 then some { zero with negative }
    else some ⟨negative, dropped.1, Nat.min places 28, h, Nat.min_le_right _ _⟩
  else none

/-- The decimal of a finite number, if its integer fits 96 bits; a zero keeps its sign. -/
def ofBinary64? (x : Binary64) : Option Decimal :=
  let significand := Binary64.significandOfCode x.code
  let shift := Binary64.shiftOfCode x.code
  if significand = 0 then some { zero with negative := x.negative }
  else if shift < 1074 then
    let halved := halve significand 0 (1074 - shift)
    ofPlaces? x.negative halved.1 halved.2
  else
    let integer := significand * pow2 (shift - 1074)
    if h : integer < pow2 96 then some ⟨x.negative, integer, 0, h, no_places_le⟩ else none

end Tariff.Decimal
