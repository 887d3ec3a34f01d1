import Tariff.Settings.Access
import Tariff.TopUp.Channel
import Tariff.Usage.Statement

/-!
# Billing rules

The format of quota, the schedule of discounts and the exchange rate, as a store holds them under
four keys.  A key that is missing or whose text is unusable gives its default; only errors of the
store are errors.
-/

namespace Tariff

/-- What billing depends on. -/
structure BillingRules where
  format : QuotaFormat := .default
  discounts : DiscountSchedule := .empty
  exchangeRate : Decimal := .one

namespace BillingRules

/-- The key of the style of amounts. -/
def styleKey : String := "display_in_currency"

/-- The key of the quota for a unit of currency. -/
def perUnitKey : String := "quota_per_unit"

/-- The key of the discounts. -/
def discountsKey : String := "topup_discount"

/-- The key of the exchange rate. -/
def exchangeRateKey : String := "usd_exchange_rate"

/-- The format that the texts of its two keys give. -/
def formatOf (style perUnit : Option String) : QuotaFormat :=
  .ofPerUnit (.ofPreference style)
    (match perUnit with
      | some text => Binary64.ofText text
      | none => QuotaFormat.defaultPerUnit)

/-- The schedule that the text of its key gives, without discounts if it gives none. -/
def discountsOf (text : Option String) : DiscountSchedule :=
  match text.map DiscountSchedule.ofText with
  | some (.ok discounts) => discounts
  | _ => .empty

/-- The exchange rate that the text of its key gives, one if it gives no positive rate. -/
def exchangeRateOf (text : Option String) : Decimal :=
  match text.bind Decimal.ofTrimmed? with
  | some rate => if .zero < rate then rate else .one
  | none => .one

/-- Loads the format. -/
def loadFormat : Access QuotaFormat := do
  let style ← Access.get styleKey
  let perUnit ← Access.get perUnitKey
  return formatOf style perUnit

/-- Loads the discounts. -/
def loadDiscounts : Access DiscountSchedule :=
  discountsOf <$> Access.get discountsKey

/-- Loads the exchange rate. -/
def loadExchangeRate : Access Decimal :=
  exchangeRateOf <$> Access.get exchangeRateKey

/-- Loads all rules. -/
def load : Access BillingRules := do
  let format ← loadFormat
  let discounts ← loadDiscounts
  let exchangeRate ← loadExchangeRate
  return { format, discounts, exchangeRate }

/-- Saves a format. -/
def saveFormat (format : QuotaFormat) : Access Unit := do
  Access.setAs styleKey (.bool format.style.isCurrency)
  Access.setAs perUnitKey (.number (.real format.perUnit))

/-- Saves discounts. -/
def saveDiscounts (discounts : DiscountSchedule) : Access Unit :=
  Access.setAs discountsKey discounts.toJson

/-- The charge for topping up an amount under these rules. -/
def charge (rules : BillingRules) (channel : PaymentChannel) (amount : Decimal) : Charge :=
  channel.charge amount rules.discounts rules.exchangeRate

/-- The statement style of these rules. -/
def statementStyle (rules : BillingRules) : StatementStyle :=
  { format := rules.format }

/-- Two sets of rules agree in format, discounts and exchange rate, decimals compared by value. -/
def agrees (s t : BillingRules) : Bool :=
  s.format = t.format && s.discounts.agrees t.discounts
    && compare s.exchangeRate t.exchangeRate = .eq

/-- The name of the store that rules are loaded from, in words. -/
def describeLoader (store : Store) : String :=
  "SettingsLoader \x7b store: " ++ Text.quote store.name ++ " \x7d"

end BillingRules

end Tariff
