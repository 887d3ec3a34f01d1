import Tariff.Binary64.Basic
import Tariff.Text.Numeral

/-!
# The shortest decimal of a binary64 number

Among the decimals that read back as a number, those with the fewest digits, and among these the
nearest to the number.  The decimals that read back lie between the midpoints to the two
neighbours, the midpoints included when the code is even.  Grids of the powers of ten are tried
from the coarsest on; on each, only the two points around the number need to be tried.
-/

namespace Tariff

/-- The decimal `coefficient * 10 ^ exponent`. -/
structure DecimalForm where
  coefficient : Nat
  exponent : Int
deriving DecidableEq, Repr

namespace Binary64

/-- The finest grid is that of `10 ^ -324`. -/
def finestGrid : Nat := 324

/-- The coarsest grid is that of `10 ^ 309`, in steps of the finest one. -/
def coarsestGrid : Nat := 633

/-- The length of a grid's step in units of `2 ^ -1074 * 10 ^ -324`. -/
def gridStep (grid : Nat) : Nat :=
  pow10 grid * pow2 1074

/-- The decimal `point * 10 ^ (grid - 324)` reads back as the number with the given code. -/
def readsBack (code grid point : Nat) : Bool :=
  let twice := 2 * point * gridStep grid
  let low := (unitsOfCode (code - 1) + unitsOfCode code) * pow10 finestGrid
  let high := (unitsOfCode code + unitsOfCode (code + 1)) * pow10 finestGrid
  if code % 2 = 0 then low ≤ twice && twice ≤ high
  else low < twice && twice < high

/-- The point of a grid that reads back, the nearer of two, by `tie` if both are as near. -/
def gridPoint? (tie : Tie) (code grid : Nat) : Option Nat :=
  let n := unitsOfCode code * pow10 finestGrid
  let d := gridStep grid
  let nearer := roundDiv tie n d
  let other := if nearer = n / d then n / d + 1 else n / d
  if readsBack code grid nearer then some nearer
  else if readsBack code grid other then some other
  else none

/-- The first grid, from the given one to the finest, that has a point that reads back. -/
def shortestFrom (tie : Tie) (code : Nat) : Nat → DecimalForm
  | 0 => ⟨(gridPoint? tie code 0).getD 0, -(finestGrid : Int)⟩
  | grid + 1 =>
    match gridPoint? tie code (grid + 1) with
    | some point => ⟨point, (grid + 1 : Int) - finestGrid⟩
    | none => shortestFrom tie code grid

/-- The shortest decimal that reads back as the magnitude of a finite number. -/
def shortest (tie : Tie) (x : Binary64) : DecimalForm :=
  if x.isZero then ⟨0, 0⟩ else shortestFrom tie x.code coarsestGrid

example : shortest .toEven ⟨0x3fb999999999999a⟩ = ⟨1, -1⟩ := by decide +kernel
example : shortest .toEven ⟨1⟩ = ⟨5, -324⟩ := by decide +kernel
example : shortest .toEven ⟨0x7fefffffffffffff⟩ = ⟨17976931348623157, 292⟩ := by decide +kernel

end Binary64

end Tariff
