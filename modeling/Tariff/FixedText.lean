import Tariff.Binary64.Arithmetic
import Tariff.Binary64.Printing
import Tariff.Decimal.OfBinary64
import Tariff.Text.Digit

/-!
# Fixed-point texts

The text of a number with a given number of places.  A number that a decimal can hold is rounded
as one, ties away from zero; for any other number and for more than 28 places the exact binary
value is rounded, ties to the even digit.  The text of a decimal is limited to 32 characters
beside its sign, and there is none beyond that.  Nor is there one of more than 65535 places.

A fixed-point text can lose the zeros at its end, and can be filled up to two places again.
-/

namespace Tariff

/-- The text of a decimal without its sign has at most this many characters. -/
def textLimit : Nat := 32

/-- The text of a decimal of at most `places` places, filled with zeros up to `places`, if it
keeps to the limit. -/
def Decimal.filled? (d : Decimal) (places : Nat) : Option String :=
  let body := Text.fixedPoint (d.coefficient * pow10 (places - d.scale)) places
  if body.length ≤ textLimit then some (String.ofList (Text.signed d.negative body)) else none

/-- No text has more places than this. -/
def placesLimit : Nat := 65535

/-- The text of a number, zero if it is not finite, with exactly `places` places. -/
def fixedText? (x : Binary64) (places : Nat) : Option String :=
  let x := x.finitePart
  match if places ≤ 28 then Decimal.ofBinary64? x else none with
  | some d => (d.roundPlaces places).filled? places
  | none => if places ≤ placesLimit then some (String.ofList (x.fixedChars places)) else none

/-- The characters without the zeros at their end. -/
def dropFinalZeros (cs : List Char) : List Char :=
  (cs.reverse.dropWhile (· = '0')).reverse

/-- The parts of a text in fixed-point form: what stands before the point, sign included, and
what follows it. -/
def fixedParts? (cs : List Char) : Option (List Char × List Char) :=
  let sign := cs.takeWhile (· = '-')
  let body := cs.drop sign.length
  let whole := body.takeWhile Text.isDecimalDigit
  if whole.isEmpty || 1 < sign.length then none
  else
    match body.dropWhile Text.isDecimalDigit with
    | [] => some (sign ++ whole, [])
    | '.' :: fraction =>
      if fraction.all Text.isDecimalDigit then some (sign ++ whole, fraction) else none
    | _ => none

/-- A text in fixed-point form without the zeros at the end of its places, and without the point
if no place is left; an integer part of minus zero loses its sign.  Any other text is
unchanged. -/
def trimZeros (s : String) : String :=
  match fixedParts? s.toList with
  | none => s
  | some (whole, fraction) =>
    let whole := if whole = ['-', '0'] then ['0'] else whole
    let fraction := dropFinalZeros fraction
    String.ofList (if fraction.isEmpty then whole else whole ++ '.' :: fraction)

/-- The text filled up with zeros to two bytes behind its first point, which is added if there is
none. -/
def fillCents (s : String) : String :=
  match s.toList.dropWhile (· ≠ '.') with
  | [] => s ++ ".00"
  | _ :: fraction =>
    s ++ String.ofList (List.replicate (2 - (String.ofList fraction).utf8ByteSize) '0')

example : fixedText? 0.125 2 = some "0.13" := by decide +kernel
example : fixedText? (-0.001) 2 = some "0.00" := by decide +kernel
-- The least number without a decimal is written as it is.
example : fixedText? (Binary64.ofInt (pow2 96)) 2 = some "79228162514264337593543950336.00" := by
  decide +kernel
example : fixedText? (Binary64.zero true) 2 = some "-0.00" := by decide +kernel
example : trimZeros "0.000150" = "0.00015" := by decide +kernel
example : trimZeros "-0.000000" = "0" := by decide +kernel
example : trimZeros "1.5e-7" = "1.5e-7" := by decide +kernel
example : fillCents "0.5" = "0.50" := by decide +kernel

end Tariff
