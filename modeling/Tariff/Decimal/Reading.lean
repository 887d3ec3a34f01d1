import Tariff.Decimal.Arithmetic
import Tariff.Text.Blank

/-!
# Reading decimals

A plain numeral is a sign or none and digits with at most one point; underscores may stand
anywhere after the first digit.  Digits that no longer fit behind the point are rounded, a half
away from zero, and too many digits before it are refused.  Underscores change no value, but for
one place: behind the 28th place of a short coefficient one stands for a zero.  A text that is no
plain numeral may be one with an exponent of at most 28.
-/

namespace Tariff.Decimal

/-- Nothing but digits and underscores. -/
def isDigitRun (cs : List Char) : Bool :=
  cs.all fun c => c.isDigit || c = '_'

/-- A coefficient below this bound is short: with one more digit it has 64 bits and some room. -/
def shortLimit : Nat := (pow2 64 - 1) / 10 - 255

/-- The decimal one unit of the last place above `coefficient`; where that needs more than 96
bits, one place is given up. -/
def roundUp? (negative : Bool) (coefficient scale : Nat) (hs : scale ≤ 28) : Option Decimal :=
  if h : coefficient + 1 < pow2 96 then some ⟨negative, coefficient + 1, scale, h, hs⟩
  else
    match scale with
    | 0 => none
    | places + 1 =>
      if h : (coefficient + 5) / 10 < pow2 96 then
        some ⟨negative, (coefficient + 5) / 10, places, h, by omega⟩
      else none

/-- Digits behind the point are taken in while they fit; the first that does not rounds.
Underscores are skipped, except behind the 28th place of a coefficient that was `short` before
its last digit: there one stands for a digit zero, which rounds down. -/
def takePlaces? (negative short : Bool) (coefficient scale : Nat)
    (hc : coefficient < pow2 96) (hs : scale ≤ 28) : List Char → Option Decimal
  | [] => some ⟨negative && coefficient ≠ 0, coefficient, scale, hc, hs⟩
  | c :: cs =>
    if c = '_' && !(short && scale = 28) then takePlaces? negative short coefficient scale hc hs cs
    else if h : c ≠ '_' ∧ 10 * coefficient + (c.toNat - '0'.toNat) < pow2 96 ∧ scale + 1 ≤ 28 then
      takePlaces? negative (coefficient < shortLimit) _ (scale + 1) h.2.1 h.2.2 cs
    else if c = '_' || c < '5' then
      some ⟨negative && coefficient ≠ 0, coefficient, scale, hc, hs⟩
    else roundUp? negative coefficient scale hs

/-- The value of a numeral in characters, without its sign. -/
def unsignedPlain? (negative : Bool) (cs : List Char) : Option Decimal :=
  let whole := cs.takeWhile (· ≠ '.')
  let fraction := (cs.dropWhile (· ≠ '.')).drop 1
  let startsWithDigit := ((whole ++ fraction).head?.map Char.isDigit).getD false
  let coefficient := Text.numeralValue (whole.filter Char.isDigit)
  if startsWithDigit && isDigitRun whole && isDigitRun fraction then
    if h : coefficient < pow2 96 then
      takePlaces? negative true coefficient 0 h no_places_le fraction
    else none
  else none

/-- The decimal that a plain numeral denotes. -/
def ofPlain? : List Char → Option Decimal
  | '-' :: cs => unsignedPlain? true cs
  | '+' :: cs => unsignedPlain? false cs
  | cs => unsignedPlain? false cs

/-- A number of ten-folds: digits behind a plus sign or none, of 32 bits. -/
def exponentSize? (cs : List Char) : Option Nat :=
  let digits :=
    match cs with
    | '+' :: rest => rest
    | _ => cs
  if !digits.isEmpty && digits.all Char.isDigit && Text.numeralValue digits < pow2 32 then
    some (Text.numeralValue digits)
  else none

/-- The decimal divided by `10 ^ size`: the scale grows, and places beyond 28 are rounded.  The
sign is kept, also by what is rounded to zero. -/
def scaleDown (d : Decimal) (size : Nat) : Decimal :=
  if h : d.scale + size ≤ 28 then { d with scale := d.scale + size, scale_le := h }
  else if hs : 0 < d.scale + size - 28 then
    let coefficient := roundDiv .up d.coefficient (pow10 (d.scale + size - 28))
    { negative := d.negative
      coefficient
      scale := 28
      coefficient_lt :=
        Nat.lt_of_le_of_lt
          (roundDiv_le _ (two_le_pow10 hs)) d.coefficient_lt
      scale_le := Nat.le_refl _ }
  else d

/-- The decimal multiplied by `10 ^ size`: the scale shrinks while it can, and what remains is
multiplied and stripped of zeros. -/
def scaleUp? (d : Decimal) (size : Nat) : Option Decimal :=
  if size ≤ d.scale then
    some { d with scale := d.scale - size, scale_le := Nat.le_trans (Nat.sub_le _ _) d.scale_le }
  else do
    let power ← ofInt? (pow10 size)
    let product ← mul? d power
    normalize product

/-- The decimal that a numeral with an exponent denotes. -/
def ofScientific? (cs : List Char) : Option Decimal := do
  let isMark (c : Char) : Bool := c = 'e' || c = 'E'
  let base ← ofPlain? (cs.takeWhile fun c => !isMark c)
  match cs.dropWhile fun c => !isMark c with
  | [] => none
  | _ :: '-' :: tail =>
    let size ← exponentSize? tail
    if size ≤ 28 then some (scaleDown base size) else none
  | _ :: tail =>
    let size ← exponentSize? tail
    if size ≤ 28 then scaleUp? base size else none

/-- The decimal that characters denote, as a plain numeral or with an exponent. -/
def ofChars? (cs : List Char) : Option Decimal :=
  (ofPlain? cs).or (ofScientific? cs)

/-- The decimal that a text denotes, blanks around it not allowed. -/
def ofText? (s : String) : Option Decimal :=
  ofChars? s.toList

/-- The decimal that a text denotes, blanks around it ignored. -/
def ofTrimmed? (s : String) : Option Decimal :=
  ofChars? (Text.trimChars s.toList)

example : (ofText? "1_000.50").map toText = some "1000.50" := by decide +kernel
example : (ofText? "2.5e-28").map toText = some "0.0000000000000000000000000003" := by
  decide +kernel
example : (ofText? "-0.4e-28").map toText = some "-0.0000000000000000000000000000" := by
  decide +kernel
example : (ofText? "0.0000000000000000000000000001_9").map toText
    = some "0.0000000000000000000000000001" := by
  decide +kernel
example : (ofText? "1.0000000000000000000000000000_9").map toText
    = some "1.0000000000000000000000000001" := by
  decide +kernel
example : ofText? "79228162514264337593543950336" = none := by decide +kernel

end Tariff.Decimal
