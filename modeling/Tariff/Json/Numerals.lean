import Tariff.Binary64.Arithmetic
import Tariff.Json.Reader

/-!
# JSON numerals

A numeral is an integer part without extra leading zeros, an optional fraction and an optional
exponent.  Its digits are gathered into a significand of 64 bits; integer digits that no longer
fit raise the exponent, and fraction digits that no longer fit are dropped.  A numeral without
fraction and exponent whose value has 64 bits is an integer; any other is the significand,
converted and then multiplied or divided by a power of ten, each step rounded.  A magnitude that
becomes infinite is out of range.
-/

namespace Tariff.Json

/-- The parts of a numeral behind its sign. -/
structure Numeral where
  whole : List Char
  fraction : Option (List Char)
  exponent : Option Int

/-- The value of one digit. -/
def digitValue (c : Char) : Nat :=
  c.toNat - '0'.toNat

/-- The significand with the integer digits taken in while they fit 64 bits, and the number of
those that do not. -/
def takeWhole (significand : Nat) : List Char → Nat × Nat
  | [] => (significand, 0)
  | c :: cs =>
    if 10 * significand + digitValue c < pow2 64 then
      takeWhole (10 * significand + digitValue c) cs
    else (significand, cs.length + 1)

/-- The significand with the fraction digits taken in while they fit 64 bits, and their
number. -/
def takeFraction (significand : Nat) : List Char → Nat × Nat
  | [] => (significand, 0)
  | c :: cs =>
    if 10 * significand + digitValue c < pow2 64 then
      let (taken, count) := takeFraction (10 * significand + digitValue c) cs
      (taken, count + 1)
    else (significand, 0)

/-- The number nearest to a power of ten. -/
def powerOfTen (n : Nat) : Binary64 :=
  Binary64.ofDecimal false 1 n

/-- The number divided by `10 ^ n`, in steps of at most 308 places until it is zero. -/
def divideByPower (x : Binary64) (n : Nat) : Binary64 :=
  if n ≤ 308 then x / powerOfTen n
  else if x.isZero then x
  else divideByPower (x / powerOfTen 308) (n - 308)
termination_by n
decreasing_by omega

/-- The number multiplied by `10 ^ exponent`, unless it becomes infinite. -/
def scaled? (x : Binary64) (exponent : Int) : Option Binary64 :=
  if exponent < 0 then some (divideByPower x exponent.natAbs)
  else if 308 < exponent then
    if x.isZero then some x else none
  else
    let product := x * powerOfTen exponent.natAbs
    if product.isFinite then some product else none

/-- The number with a sign put before it. -/
def withSign (negative : Bool) (x : Binary64) : Binary64 :=
  if negative then -x else x

/-- The integer that a significand without exponent is, or the nearest number if that has more
than 64 bits or is minus zero. -/
def wholeNumber (negative : Bool) (significand : Nat) : Number :=
  if !negative then .integer significand
  else if significand = 0 ∨ pow2 63 < significand then .real (-(Binary64.ofInt significand))
  else .integer (-(significand : Int))

/-- The number that a numeral denotes, unless it is out of range. -/
def Numeral.value? (negative : Bool) (numeral : Numeral) : Option Number :=
  let (significand, dropped) := takeWhole 0 numeral.whole
  if numeral.fraction.isNone ∧ numeral.exponent.isNone ∧ dropped = 0 then
    some (wholeNumber negative significand)
  else
    let (significand, places) := takeFraction significand (numeral.fraction.getD [])
    let exponent := (dropped : Int) - places + numeral.exponent.getD 0
    (scaled? (Binary64.ofInt significand) exponent).map fun x => .real (withSign negative x)

namespace Reader

/-- Reads the digits in front, of which there has to be at least one; `early` is the fault of a
text that ends before it. -/
def digits (early : Fault) : Reader (List Char) := fun cs =>
  match cs with
  | [] => .error early
  | c :: _ =>
    if c.isDigit then .ok (cs.takeWhile Char.isDigit, cs.dropWhile Char.isDigit)
    else .error .malformed

/-- Reads the integer part, a zero or digits that do not start with one. -/
def wholeDigits (early : Fault) : Reader (List Char) := do
  match ← digits early with
  | '0' :: _ :: _ => fail .malformed
  | ds => pure ds

/-- Reads a point and digits if there is a point. -/
def fraction (early : Fault) : Reader (Option (List Char)) := fun cs =>
  match cs with
  | '.' :: rest => (some <$> digits early) rest
  | _ => .ok (none, cs)

/-- Reads the sign of an exponent, minus or not. -/
def exponentSign : Reader Bool := fun cs =>
  match cs with
  | '-' :: rest => .ok (true, rest)
  | '+' :: rest => .ok (false, rest)
  | _ => .ok (false, cs)

/-- Reads an exponent if there is its mark. -/
def exponent (early : Fault) : Reader (Option Int) := fun cs =>
  match cs with
  | [] => .ok (none, cs)
  | c :: rest =>
    if c = 'e' ∨ c = 'E' then
      (do
        let negative ← exponentSign
        let size := (Text.numeralValue (← digits early) : Int)
        return some (if negative then -size else size) : Reader (Option Int)) rest
    else .ok (none, cs)

/-- Reads a numeral behind its sign. -/
def numeral (early : Fault) : Reader Numeral := do
  let whole ← wholeDigits early
  let fraction ← fraction early
  let exponent ← exponent early
  return ⟨whole, fraction, exponent⟩

/-- Reads a number behind its sign. -/
def number (negative : Bool) : Reader Number := do
  match (← numeral .truncated).value? negative with
  | some n => pure n
  | none => fail .malformed

end Reader

end Tariff.Json
