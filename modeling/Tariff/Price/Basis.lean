import Tariff.Json.Reading
import Tariff.Text.Blank

/-!
# Pricing bases

A model is priced by the tokens it handles, with prices shown for a million of them, or by the
request.
-/

namespace Tariff

/-- What a price is charged for. -/
inductive PricingBasis where
  | tokens
  | requests
deriving DecidableEq, Repr

namespace PricingBasis

/-- The basis that a price type names: requests for "times", in any case and with blanks around
it, and tokens for all else. -/
def ofPriceType : Option String → PricingBasis
  | none => .tokens
  | some s =>
    if (Text.trimChars s.toList).map Char.toLower = "times".toList then .requests else .tokens

/-- The name of a basis in JSON. -/
def name : PricingBasis → String
  | .tokens => "tokens"
  | .requests => "times"

/-- The basis with a name. -/
def ofName? (s : String) : Option PricingBasis :=
  [.tokens, .requests].find? fun basis => basis.name = s

/-- The unit behind a displayed price. -/
def suffix : PricingBasis → String
  | .tokens => "/M"
  | .requests => "/Request"

/-- The basis is found by its name. -/
theorem ofName?_name (basis : PricingBasis) :
  ofName? basis.name = some basis
  := by
  cases basis <;> decide

end PricingBasis

/-- Reads a basis by its name. -/
def Json.Reader.pricingBasis : Json.Reader PricingBasis :=
  constant PricingBasis.ofName?

end Tariff
