import Tariff.Binary64.Shortest

/-!
# Printing binary64 numbers

Two positional texts of a finite number: with a given number of places, the exact value rounded
with ties to even; and with the digits of the shortest decimal and no exponent.
-/

namespace Tariff.Binary64

/-- The exact value rounded to `places` places, ties to the even digit. -/
def fixedChars (places : Nat) (x : Binary64) : List Char :=
  Text.signed x.negative
    (Text.fixedPoint (roundDiv .toEven (x.units * pow10 places) (pow2 1074)) places)

/-- The digits of a decimal in positional notation. -/
def positional (form : DecimalForm) : List Char :=
  if form.exponent < 0 then Text.fixedPoint form.coefficient form.exponent.natAbs
  else Text.numeral (form.coefficient * pow10 form.exponent.natAbs)

/-- The shortest decimal of a finite number in positional notation; of two as near, the larger. -/
def plainChars (x : Binary64) : List Char :=
  Text.signed x.negative (positional (x.shortest .up))

end Tariff.Binary64
