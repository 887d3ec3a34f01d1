import Tariff.Binary64.Basic
import Tariff.Text.Numeral

/-!
# Arithmetic of binary64 numbers

Each operation on finite numbers is the exact rational operation, rounded once to the nearest
number.  Numbers are ordered by sign and code, so that the two zeros are equal, and a number
without a value is neither below nor above another.
-/

namespace Tariff.Binary64

/-- The number with the opposite sign. -/
def neg (x : Binary64) : Binary64 :=
  ofCode (!x.negative) x.code

/-- The number without its sign. -/
def abs (x : Binary64) : Binary64 :=
  ofCode false x.code

/-- The product, rounded once. -/
def mul (x y : Binary64) : Binary64 :=
  let negative := x.negative != y.negative
  if x.isFinite && y.isFinite then nearest negative (x.toRat * y.toRat)
  else if x.isNaN || y.isNaN || x.isZero || y.isZero then nan
  else infinity negative

/-- The quotient, rounded once. -/
def div (x y : Binary64) : Binary64 :=
  let negative := x.negative != y.negative
  if x.isNaN || y.isNaN then nan
  else if !x.isFinite then
    if y.isFinite then infinity negative else nan
  else if !y.isFinite then zero negative
  else if y.isZero then
    if x.isZero then nan else infinity negative
  else nearest negative (x.toRat / y.toRat)

/-- The sum, rounded once; a sum of zero is negative only if both numbers are. -/
def add (x y : Binary64) : Binary64 :=
  if x.isFinite && y.isFinite then
    let sum := x.toRat + y.toRat
    if sum = 0 then zero (x.negative && y.negative) else nearest (sum < 0) sum
  else if x.isNaN || y.isNaN then nan
  else if x.isFinite then y
  else if y.isFinite then x
  else if x.negative = y.negative then x
  else nan

/-- The difference, rounded once. -/
def sub (x y : Binary64) : Binary64 :=
  add x y.neg

instance : Neg Binary64 := ⟨neg⟩
instance : Add Binary64 := ⟨add⟩
instance : Sub Binary64 := ⟨sub⟩
instance : Mul Binary64 := ⟨mul⟩
instance : Div Binary64 := ⟨div⟩

/-- The place of a number in the order. -/
def rank (x : Binary64) : Int :=
  if x.negative then -(x.code : Int) else x.code

/-- `x` is below `y`, both having a value. -/
def lt (x y : Binary64) : Bool :=
  !x.isNaN && !y.isNaN && x.rank < y.rank

instance : LT Binary64 := ⟨fun x y => lt x y = true⟩

instance (x y : Binary64) : Decidable (x < y) :=
  inferInstanceAs (Decidable (lt x y = true))

/-- The number nearest to `coefficient * 10 ^ exponent`, with the given sign.  Magnitudes that
are surely infinite or zero are not computed. -/
def ofDecimal (negative : Bool) (coefficient : Nat) (exponent : Int) : Binary64 :=
  let size := (Text.numeral coefficient).length + exponent
  if coefficient = 0 || size < -330 then zero negative
  else if 310 < size then infinity negative
  else if exponent < 0 then nearest negative (mkRat coefficient (pow10 exponent.natAbs))
  else nearest negative ((coefficient * pow10 exponent.natAbs : Nat) : Rat)

instance {n : Nat} : OfNat Binary64 n := ⟨ofInt n⟩

instance : OfScientific Binary64 where
  ofScientific coefficient below places :=
    ofDecimal false coefficient (if below then -(places : Int) else places)

/-- The nearest integer to a finite number, halves away from zero. -/
def roundToInt (x : Binary64) : Int :=
  let magnitude := roundDiv .up x.units (pow2 1074)
  if x.negative then -(magnitude : Int) else magnitude

example : (0.1 : Binary64) + 0.2 = ⟨0x3fd3333333333334⟩ := by decide +kernel
example : (1 : Binary64) / 3 = ⟨0x3fd5555555555555⟩ := by decide +kernel
example : (-(2.5 : Binary64)).roundToInt = -3 := by decide +kernel

end Tariff.Binary64
