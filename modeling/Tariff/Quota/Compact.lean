import Tariff.FixedText
import Tariff.Quota.Basic

/-!
# Compact magnitudes

A quota below ten thousand is shown in full; beyond that it is shown with one place in thousands,
millions or thousand millions, the largest of these units that it reaches.
-/

namespace Tariff.Quota

/-- The units of compact magnitudes, the largest first: from where on a unit is used, its size
and its letter. -/
def compactUnits : List (Binary64 × Binary64 × String) :=
  [(1000000000, 1000000000, "B"), (1000000, 1000000, "M"), (10000, 1000, "k")]

/-- The first unit that a number reaches. -/
def reachedUnit? (x : Binary64) : Option (Binary64 × Binary64 × String) :=
  compactUnits.find? fun unit => !(x < unit.1)

/-- The text of a magnitude in a unit, and in full if there is none. -/
def inUnit? (magnitude : Nat) : Option (Binary64 × Binary64 × String) → Option String
  | some (_, size, letter) => (fixedText? (Binary64.ofInt magnitude / size) 1).map (· ++ letter)
  | none => some (String.ofList (Text.numeral magnitude))

/-- The text of a magnitude in the first unit that it reaches, and in full if it reaches none. -/
def compactMagnitude? (magnitude : Nat) : Option String :=
  inUnit? magnitude (reachedUnit? (Binary64.ofInt magnitude))

/-- The quota as a compact magnitude behind its sign. -/
def compact? (q : Quota) : Option String :=
  (compactMagnitude? q.units.toInt.natAbs).map fun body =>
    if q.isNegative then "-" ++ body else body

example : compact? ⟨12345⟩ = some "12.3k" := by decide +kernel
example : compact? ⟨-2500000⟩ = some "-2.5M" := by decide +kernel
example : compact? ⟨9999⟩ = some "9999" := by decide +kernel

end Tariff.Quota
