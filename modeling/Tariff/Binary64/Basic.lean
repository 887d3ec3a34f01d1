import Tariff.Power
import Tariff.Rounding

/-!
# Binary64 numbers

A binary64 number is its 64 bits: a sign and a code.  The codes are in the order of the
magnitudes; those below `infinityCode` stand for whole numbers of units of `2 ^ -1074`, that code
for infinity, and those above it for no number.  `nearest` is the number nearest to a rational,
ties to the even code.
-/

namespace Tariff

/-- A binary64 number. -/
structure Binary64 where
  bits : UInt64
deriving DecidableEq, Repr

namespace Binary64

/-- The sign bit is set. -/
def negative (x : Binary64) : Bool :=
  pow2 63 ≤ x.bits.toNat

/-- The bits without the sign. -/
def code (x : Binary64) : Nat :=
  x.bits.toNat % pow2 63

/-- The number with a given sign and code. -/
def ofCode (negative : Bool) (code : Nat) : Binary64 :=
  ⟨UInt64.ofNat (if negative then pow2 63 + code else code)⟩

/-- The code of infinity, the first without a finite magnitude. -/
def infinityCode : Nat := 2047 * pow2 52

/-- Neither infinite nor without a value. -/
def isFinite (x : Binary64) : Bool :=
  x.code < infinityCode

/-- Without a value. -/
def isNaN (x : Binary64) : Bool :=
  infinityCode < x.code

/-- One of the two zeros. -/
def isZero (x : Binary64) : Bool :=
  x.code = 0

/-- The zero of a given sign. -/
def zero (negative : Bool) : Binary64 :=
  ofCode negative 0

/-- The infinity of a given sign. -/
def infinity (negative : Bool) : Binary64 :=
  ofCode negative infinityCode

/-- The number without a value that arithmetic gives. -/
def nan : Binary64 :=
  ofCode false (infinityCode + pow2 51)

/-- The significand of a code, with its leading bit unless the code has none. -/
def significandOfCode (code : Nat) : Nat :=
  if code < pow2 52 then code else pow2 52 + code % pow2 52

/-- The power of two by which the significand of a code is shifted. -/
def shiftOfCode (code : Nat) : Nat :=
  code / pow2 52 - 1

/-- The magnitude of a code in units of `2 ^ -1074`. -/
def unitsOfCode (code : Nat) : Nat :=
  significandOfCode code * pow2 (shiftOfCode code)

/-- The magnitude in units of `2 ^ -1074`. -/
def units (x : Binary64) : Nat :=
  unitsOfCode x.code

/-- The number of units with its sign. -/
def signedUnits (x : Binary64) : Int :=
  if x.negative then -(x.units : Int) else x.units

/-- The exact value of a finite number. -/
def toRat (x : Binary64) : Rat :=
  mkRat x.signedUnits (pow2 1074)

/-- The code of the magnitude nearest to `n / d` units, ties to the even code; infinity for what
rounds to `2 ^ 1024` and more. -/
def nearestCode (n d : Nat) : Nat :=
  let exponent := Nat.log2 (n / d) - 52
  min (exponent * pow2 52 + roundDiv .toEven n (d * pow2 exponent)) infinityCode

/-- The number of the given sign nearest in magnitude to a rational. -/
def nearest (negative : Bool) (q : Rat) : Binary64 :=
  ofCode negative (nearestCode (q.num.natAbs * pow2 1074) q.den)

/-- The number nearest to an integer. -/
def ofInt (n : Int) : Binary64 :=
  nearest (n < 0) n

/-- The number itself if it is finite, else zero. -/
def finitePart (x : Binary64) : Binary64 :=
  if x.isFinite then x else zero false

/-- What `finitePart` gives is finite. -/
theorem isFinite_finitePart (x : Binary64) :
  x.finitePart.isFinite = true
  := by
  unfold finitePart
  split
  · assumption
  · decide

/-- A finite number is kept. -/
theorem finitePart_of_isFinite {x : Binary64} (h : x.isFinite = true) :
  x.finitePart = x
  := by
  simp [finitePart, h]

/-- The code of a number built from a code below `2 ^ 63` is that code. -/
theorem code_ofCode {c : Nat} (negative : Bool) (h : c < pow2 63) :
  (ofCode negative c).code = c
  := by
  have hp : pow2 63 = 9223372036854775808 := rfl
  cases negative <;> simp [code, ofCode, hp] at h ⊢ <;> omega

/-- The sign of a number built from a code below `2 ^ 63` is the given one. -/
theorem negative_ofCode {c : Nat} (negative : Bool) (h : c < pow2 63) :
  (ofCode negative c).negative = negative
  := by
  have hp : pow2 63 = 9223372036854775808 := rfl
  cases negative <;> simp [Binary64.negative, ofCode, hp] at h ⊢ <;> omega

/-- A code never exceeds that of infinity when it is the nearest to something. -/
theorem nearestCode_le (n d : Nat) :
  nearestCode n d ≤ infinityCode
  := Nat.min_le_right _ _

example : ofInt 1 = ⟨0x3ff0000000000000⟩ := by decide +kernel
example : nearest false (mkRat 1 10) = ⟨0x3fb999999999999a⟩ := by decide +kernel

end Binary64

end Tariff
