import Tariff.Binary64.Integer
import Tariff.Binary64.Reading
import Tariff.Json.Reading

/-!
# Quota

Quota is the integer unit that usage is billed in.  Numbers become quota by rounding, halves away
from zero, and texts by way of the number that they denote.
-/

namespace Tariff

/-- An amount of quota. -/
structure Quota where
  units : Int64
deriving DecidableEq

namespace Quota

/-- No quota. -/
def zero : Quota := ⟨0⟩

/-- The quota nearest to a number; none for a number that is not finite. -/
def ofReal (x : Binary64) : Quota :=
  ⟨x.finitePart.toInt64⟩

/-- The quota that a text denotes; none for a text that denotes no finite number. -/
def ofText (s : String) : Quota :=
  ofReal (Binary64.ofText s)

/-- The number nearest to the quota. -/
def toReal (q : Quota) : Binary64 :=
  Binary64.ofInt64 q.units

/-- The quota is zero. -/
def isZero (q : Quota) : Bool :=
  q.units = 0

/-- The quota is below zero. -/
def isNegative (q : Quota) : Bool :=
  q.units < 0

/-- The magnitude of the quota, the largest quota for the lowest. -/
def magnitude (q : Quota) : Quota :=
  ⟨nearestInt64 q.units.toInt.natAbs⟩

/-- The quota in decimal digits. -/
def toText (q : Quota) : String :=
  String.ofList (Text.integer q.units.toInt)

/-- The quota as a JSON integer. -/
def toJson (q : Quota) : Json :=
  .number (.integer q.units.toInt)

end Quota

/-- Reads a 64-bit signed integer. -/
def Json.Reader.int64 : Json.Reader Int64 :=
  Int64.ofInt <$> integer Int64.minValue.toInt Int64.maxValue.toInt

/-- Reads a quota from a JSON integer. -/
def Json.Reader.quota : Json.Reader Quota :=
  Quota.mk <$> int64

end Tariff
