import Tariff.Binary64.Integer
import Tariff.Binary64.Reading
import Tariff.Json.Reading

/-!
# Lenient numbers

Usage data holds numbers as JSON numbers or as texts.  An integer of 64 bits is taken exactly and
every other number as a binary64 number, zero if it is not finite.  A text that denotes no number
is zero; a blank text, null and every other value are no number.
-/

namespace Tariff

/-- A number found in usage data. -/
inductive LenientNumber where
  | integer (n : Int64)
  | real (x : Binary64)
deriving DecidableEq

namespace LenientNumber

/-- The integer itself if it has 64 bits, else the nearest binary64 number. -/
def ofInt (n : Int) : LenientNumber :=
  if Int64.minValue.toInt ≤ n ∧ n ≤ Int64.maxValue.toInt then .integer (Int64.ofInt n)
  else .real (Binary64.ofInt n)

/-- The number that a JSON value gives. -/
def ofJson? : Json → Option LenientNumber
  | .number (.integer n) => some (ofInt n)
  | .number (.real x) => some (.real x.finitePart)
  | .string s => if Text.isAllBlank s then none else some (.real (Binary64.ofText s))
  | _ => none

/-- The number as a binary64 number. -/
def toReal : LenientNumber → Binary64
  | .integer n => Binary64.ofInt64 n
  | .real x => x

/-- The number as a 64-bit integer, halves away from zero. -/
def toInt64 : LenientNumber → Int64
  | .integer n => n
  | .real x => x.toInt64

/-- The binary64 number that a JSON value gives. -/
def real? (value : Json) : Option Binary64 :=
  (ofJson? value).map toReal

/-- The integer that a JSON value gives. -/
def int64? (value : Json) : Option Int64 :=
  (ofJson? value).map toInt64

/-- The number of tokens that a JSON value gives; none for no number and for a negative one. -/
def tokenCount (value : Json) : UInt64 :=
  UInt64.ofNat ((int64? value).getD 0).toInt.toNat

end LenientNumber

end Tariff
