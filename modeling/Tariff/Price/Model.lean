import Tariff.FixedText
import Tariff.Price.Basis

/-!
# Model prices

The price of a model is a ratio to the base unit price, scaled by the ratio of the user's group
and by a multiplier for tokens served from or written to a cache.  Every part that is not finite
counts as zero.  Prices are shown with up to six places.
-/

namespace Tariff

/-- The parts of a price. -/
structure ModelPrice where
  ratio : Binary64
  groupRatio : Binary64
  basis : PricingBasis
  basePrice : Binary64
  multiplier : Option Binary64

namespace ModelPrice

/-- The price of a thousand tokens at ratio one. -/
def defaultBasePrice : Binary64 := 0.002

/-- A displayed price of tokens is for a thousand times the tokens of the base price. -/
def tokenFactor : Binary64 := 1000

/-- Prices are rounded to this many places. -/
def places : Nat := 6

/-- The price of tokens at a ratio for a group, at the default base price. -/
def ofRatios (ratio groupRatio : Binary64) : ModelPrice where
  ratio
  groupRatio
  basis := .tokens
  basePrice := defaultBasePrice
  multiplier := none

/-- The price as a number. -/
def value (price : ModelPrice) : Binary64 :=
  let scaled := price.ratio.finitePart * price.groupRatio.finitePart
  let scaled :=
    match price.basis with
    | .tokens => scaled * tokenFactor
    | .requests => scaled
  let total := scaled * price.basePrice.finitePart
  let total :=
    match price.multiplier with
    | some multiplier => total * multiplier.finitePart
    | none => total
  total.finitePart

/-- The price in digits, without zeros at the end of its places. -/
def digits? (price : ModelPrice) : Option String :=
  (fixedText? price.value places).map trimZeros

/-- Digits of a price with at least two places, in dollars for a unit of the basis. -/
def badge (basis : PricingBasis) (digits : String) : String :=
  "$" ++ fillCents digits ++ basis.suffix

/-- The price in dollars for a unit of its basis. -/
def badge? (price : ModelPrice) : Option String :=
  price.digits?.map (badge price.basis)

example : (ofRatios 2 0.5).badge? = some "$2.00/M" := by decide +kernel

end ModelPrice

end Tariff
