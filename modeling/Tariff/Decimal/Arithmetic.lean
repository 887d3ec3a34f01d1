import Tariff.Decimal.Order

/-!
# Arithmetic of decimals

A result that a decimal can hold is exact.  Any other keeps as many places as fit 96 bits and 28
places, rounded with ties to even, and there is none when its integer part needs more than 96
bits.  Rounding to a number of places sends ties away from zero.
-/

namespace Tariff.Decimal

/-- The decimal with the value `n / 10 ^ scale`, rounded to as many places as fit, at most
`places`. -/
def fitFrom? (negative : Bool) (n scale : Nat) : Nat → Option Decimal
  | 0 =>
    let coefficient := roundDiv .toEven n (pow10 scale)
    if h : coefficient < pow2 96 then
      some ⟨negative, coefficient, 0, h, no_places_le⟩
    else none
  | places + 1 =>
    let coefficient := roundDiv .toEven n (pow10 (scale - (places + 1)))
    if h : coefficient < pow2 96 ∧ places + 1 ≤ 28 then
      some ⟨negative, coefficient, places + 1, h.1, h.2⟩
    else fitFrom? negative n scale places

/-- The decimal with the value `n / 10 ^ scale`, rounded to as many places as fit. -/
def fit? (negative : Bool) (n scale : Nat) : Option Decimal :=
  fitFrom? negative n scale scale

/-- The coefficient has at most 32 bits. -/
def isNarrow (d : Decimal) : Bool :=
  d.coefficient < pow2 32

/-- The decimal, without a sign if it is zero. -/
def unsignZero (d : Decimal) : Decimal :=
  { d with negative := d.negative && !d.isZero }

/-- The product of two narrow decimals, if its integer part fits.  It is zero without places when
it has more than 47 of them, and a zero has no sign. -/
def mulNarrow? (a b : Decimal) : Option Decimal :=
  if 47 < a.scale + b.scale then some zero
  else
    (fit? (a.negative != b.negative) (a.coefficient * b.coefficient) (a.scale + b.scale)).map
      unsignZero

/-- The product, if its integer part fits; zero without places if a factor is zero.  What is
rounded to zero keeps its sign unless both factors are narrow. -/
def mul? (a b : Decimal) : Option Decimal :=
  if a.isZero || b.isZero then some zero
  else if a.isNarrow && b.isNarrow then mulNarrow? a b
  else fit? (a.negative != b.negative) (a.coefficient * b.coefficient) (a.scale + b.scale)

/-- The decimal with the opposite sign. -/
def neg (d : Decimal) : Decimal :=
  { d with negative := !d.negative }

/-- The sum, if its integer part fits; the other term itself if one is zero. -/
def add? (a b : Decimal) : Option Decimal :=
  if a.isZero then some b
  else if b.isZero then some a
  else
    let scale := Nat.max a.scale b.scale
    let sum := a.widened (scale - a.scale) + b.widened (scale - b.scale)
    fit? (sum < 0) sum.natAbs scale

/-- The difference, if its integer part fits; a zero subtrahend changes nothing. -/
def sub? (a b : Decimal) : Option Decimal :=
  if b.isZero then if a.isZero then some b else some a
  else add? a b.neg

/-- The decimal rounded to at most `places` places, ties away from zero.  What has no more places
is unchanged, and a zero keeps its sign; what rounds to zero has none. -/
def roundPlaces (d : Decimal) (places : Nat) : Decimal :=
  if h : places < d.scale then
    let coefficient := roundDiv .up d.coefficient (pow10 (d.scale - places))
    { negative := d.negative && (d.isZero || coefficient ≠ 0)
      coefficient
      scale := places
      coefficient_lt :=
        Nat.lt_of_le_of_lt
          (roundDiv_le _ (two_le_pow10 (Nat.sub_pos_of_lt h))) d.coefficient_lt
      scale_le := by have := d.scale_le; omega }
  else d

end Tariff.Decimal
