import Tariff.Binary64.Printing
import Tariff.Json.Record
import Tariff.TopUp.Discount

/-!
# Payment channels and charges

A top-up is paid through a channel, in a currency and for a fixed fee or a rate or neither.  The
charge for an amount is the discounted amount with the fee, and for a foreign currency that in the
currency, rounded to two places.  A result that no decimal can hold is replaced by the largest
decimal.
-/

namespace Tariff

/-- The currency in which top-ups are priced. -/
def homeCurrency : String := "USD"

/-- A way of paying for top-ups. -/
structure PaymentChannel where
  name : String
  currency : String := homeCurrency
  fixedFee : Option Decimal := none
  feeRate : Option Decimal := none
deriving DecidableEq

/-- The parts of the charge for a top-up. -/
structure Charge where
  amount : Decimal
  multiplier : Decimal
  discounted : Decimal
  fee : Decimal
  total : Decimal
  currency : String
deriving DecidableEq

/-- The decimal, or the largest one if there is none. -/
def Decimal.orMax (d? : Option Decimal) : Decimal :=
  d?.getD .max

namespace PaymentChannel

/-- The currency is not the home currency, letter case aside. -/
def isForeign (channel : PaymentChannel) : Bool :=
  channel.currency.toList.map Char.toLower ≠ homeCurrency.toList.map Char.toLower

/-- The fee for a discounted amount: the fixed fee if there is one, else the rate's share. -/
def fee (channel : PaymentChannel) (discounted : Decimal) : Decimal :=
  match channel.fixedFee, channel.feeRate with
  | some fixed, _ => fixed
  | none, some rate => .orMax (discounted.mul? rate)
  | none, none => .zero

/-- An exchange rate that is not positive counts as one. -/
def rateInForce (exchangeRate : Decimal) : Decimal :=
  if .zero < exchangeRate then exchangeRate else .one

/-- Charges in a foreign currency have this many places. -/
def chargePlaces : Nat := 2

/-- The charge for topping up `amount`; a negative amount counts as zero. -/
def charge (channel : PaymentChannel) (amount : Decimal) (discounts : DiscountSchedule)
    (exchangeRate : Decimal) : Charge :=
  let amount := if amount < .zero then .zero else amount
  let multiplier := discounts.multiplier amount
  let discounted := Decimal.orMax (amount.mul? multiplier)
  let fee := channel.fee discounted
  let sum := Decimal.orMax (discounted.add? fee)
  let total :=
    if channel.isForeign then
      (Decimal.orMax (sum.mul? (rateInForce exchangeRate))).roundPlaces chargePlaces
    else sum
  { amount, multiplier, discounted, fee, total, currency := channel.currency }

end PaymentChannel

namespace Charge

/-- What the discount takes off the amount, if a decimal can hold it. -/
def savings? (charge : Charge) : Option Decimal :=
  charge.amount.sub? charge.discounted

/-- The multiplier is below one. -/
def isDiscounted (charge : Charge) : Bool :=
  charge.multiplier < .one

/-- The charge as an object with decimals as strings. -/
def toJson (charge : Charge) : Json :=
  .object
    [("amount", .string charge.amount.toText), ("discount", .string charge.multiplier.toText),
      ("discounted", .string charge.discounted.toText), ("fee", .string charge.fee.toText),
      ("total", .string charge.total.toText), ("currency", .string charge.currency)]

end Charge

/-! ### Payment channels in JSON -/

namespace PaymentChannel

/-- The fields of a channel in JSON. -/
inductive Field where
  | name
  | currency
  | fixedFee
  | feeRate
deriving DecidableEq

/-- All fields in order. -/
def Field.all : List Field := [.name, .currency, .fixedFee, .feeRate]

/-- The name of a field. -/
def Field.label : Field → String
  | .name => "name"
  | .currency => "currency"
  | .fixedFee => "fixed_fee"
  | .feeRate => "fee_rate"

/-- The decimal of a JSON value: an integer itself, any other number by its shortest digits, a
string by its text; null is none. -/
def feeOf? : Json → Option (Option Decimal)
  | .null => some none
  | .number (.integer n) => some <$> Decimal.ofInt? n
  | .number (.real x) => some <$> Decimal.ofChars? x.plainChars
  | .string s => some <$> Decimal.ofText? s
  | _ => none

/-- How a channel is read; its name is required. -/
def shape : Json.Shape Field PaymentChannel where
  order := Field.all
  named? s := Field.all.find? fun f => f.label = s
  required f := f = .name
  field
    | .name, channel => do return { channel with name := ← Json.Reader.string }
    | .currency, channel => do return { channel with currency := ← Json.Reader.string }
    | .fixedFee, channel => do return { channel with fixedFee := ← Json.Reader.scalar feeOf? }
    | .feeRate, channel => do return { channel with feeRate := ← Json.Reader.scalar feeOf? }

/-- Reads a channel. -/
def reader : Json.Reader PaymentChannel :=
  Json.Reader.record shape ⟨"", homeCurrency, none, none⟩

/-- A fee in JSON, a string or null. -/
def feeJson : Option Decimal → Json
  | some d => .string d.toText
  | none => .null

/-- The channel as an object. -/
def toJson (channel : PaymentChannel) : Json :=
  .object
    [("name", .string channel.name), ("currency", .string channel.currency),
      ("fixed_fee", feeJson channel.fixedFee), ("fee_rate", feeJson channel.feeRate)]

end PaymentChannel

end Tariff
