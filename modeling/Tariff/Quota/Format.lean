import Tariff.Quota.Compact

/-!
# Display of quota

Quota is shown as an amount of currency, a number of units of quota making up one unit of
currency, or as a compact magnitude.  A charge that rounds to zero is shown as the smallest amount
with the same number of places.
-/

namespace Tariff

/-- How quota is shown. -/
inductive AmountStyle where
  /-- As an amount of currency. -/
  | currency
  /-- As a compact magnitude. -/
  | magnitude
deriving DecidableEq, Repr

namespace AmountStyle

/-- The style that a stored preference names: currency if there is none, or for "true". -/
def ofPreference : Option String → AmountStyle
  | none => .currency
  | some s => if s = "true" then .currency else .magnitude

/-- The name of a style in JSON. -/
def name : AmountStyle → String
  | .currency => "currency"
  | .magnitude => "raw_number"

/-- The style with a name. -/
def ofName? (s : String) : Option AmountStyle :=
  [.currency, .magnitude].find? fun style => style.name = s

/-- A style is shown in currency. -/
def isCurrency (style : AmountStyle) : Bool :=
  style = .currency

/-- The style is found by its name. -/
theorem ofName?_name (style : AmountStyle) :
  ofName? style.name = some style
  := by
  cases style <;> decide

end AmountStyle

/-- A number of quota that can make up a unit of currency: finite and above zero. -/
def usablePerUnit (x : Binary64) : Bool :=
  x.isFinite && (0 : Binary64) < x

/-- A style and the quota that makes up one unit of currency. -/
structure QuotaFormat where
  style : AmountStyle
  perUnit : Binary64
  perUnit_usable : usablePerUnit perUnit = true
deriving DecidableEq

namespace QuotaFormat

/-- The quota that makes up a unit of currency unless another usable number is given. -/
def defaultPerUnit : Binary64 := 500000

/-- The format with a style and quota for a unit of currency; an unusable number gives way to the
default. -/
def ofPerUnit (style : AmountStyle) (perUnit : Binary64) : QuotaFormat :=
  if h : usablePerUnit perUnit = true then ⟨style, perUnit, h⟩
  else ⟨style, defaultPerUnit, by decide +kernel⟩

/-- A style with the default quota for a unit of currency. -/
def ofStyle (style : AmountStyle) : QuotaFormat :=
  ofPerUnit style defaultPerUnit

/-- The format in force when nothing is said. -/
def default : QuotaFormat :=
  ofStyle .currency

/-- The format with another style. -/
def withStyle (format : QuotaFormat) (style : AmountStyle) : QuotaFormat :=
  { format with style }

/-- The format with other quota for a unit of currency; an unusable number gives way to the
default. -/
def withPerUnit (format : QuotaFormat) (perUnit : Binary64) : QuotaFormat :=
  ofPerUnit format.style perUnit

/-- The amount of currency that quota is worth. -/
def amount (format : QuotaFormat) (q : Quota) : Binary64 :=
  q.toReal / format.perUnit

/-- The quota that an amount of currency is worth. -/
def quotaOf (format : QuotaFormat) (amount : Binary64) : Quota :=
  Quota.ofReal (amount.finitePart * format.perUnit)

/-- The amount of currency that quota is worth, with `places` places. -/
def amountText? (format : QuotaFormat) (q : Quota) (places : Nat) : Option String :=
  fixedText? (format.amount q) places

/-- All digits of a text are zeros. -/
def showsZero (s : String) : Bool :=
  s.toList.all fun c => c = '0' || c = '.'

/-- The smallest amount above zero with `places` places. -/
def smallestAmount (places : Nat) : String :=
  String.ofList (Text.fixedPoint 1 places)

/-- A dollar sign before a text, and a minus sign before that. -/
def dollars (negative : Bool) (body : String) : String :=
  if negative then "-$" ++ body else "$" ++ body

/-- The quota as the format shows it.  In currency, quota that is not zero never shows zero. -/
def show? (format : QuotaFormat) (q : Quota) (places : Nat) : Option String :=
  match format.style with
  | .magnitude => q.compact?
  | .currency =>
    (format.amountText? q.magnitude places).map fun body =>
      dollars q.isNegative
        (if !q.magnitude.isZero && showsZero body then smallestAmount places else body)

/-- An amount of currency as the format shows it, zero if it is not finite. -/
def showAmount? (format : QuotaFormat) (amount : Binary64) (places : Nat) : Option String :=
  match format.style with
  | .magnitude => (format.quotaOf amount).compact?
  | .currency =>
    let amount := amount.finitePart
    (fixedText? amount.abs places).map (dollars (amount < 0))

example : default.show? ⟨500000⟩ 2 = some "$1.00" := by decide +kernel
example : default.show? ⟨-1⟩ 2 = some "-$0.01" := by decide +kernel

end QuotaFormat

/-- Reads a style by its name. -/
def Json.Reader.amountStyle : Json.Reader AmountStyle :=
  constant AmountStyle.ofName?

end Tariff
