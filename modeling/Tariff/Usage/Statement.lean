import Tariff.Price.Model
import Tariff.Quota.Format
import Tariff.Usage.Entry

/-!
# Billing statements

What a usage log shows for the charge of an entry: nothing to pay, the quota alone, or the price
of each category of tokens with the group's discount, the total, and the share that was saved.
-/

namespace Tariff

/-- What a line of a statement is charged for. -/
inductive ChargeCategory where
  | input
  | output
  | cacheWrite
  | cacheRead
  | reasoning
  | request
deriving DecidableEq, Repr

/-- The label of a category. -/
def ChargeCategory.label : ChargeCategory → String
  | .input => "Input"
  | .output => "Output"
  | .cacheWrite => "Cache write"
  | .cacheRead => "Cache read"
  | .reasoning => "Reasoning"
  | .request => "Request"

/-- The prices of one category, without and with the group's ratio. -/
structure StatementLine where
  category : ChargeCategory
  full : String
  actual : String
  basis : PricingBasis
  discounted : Bool
deriving DecidableEq

namespace StatementLine

/-- The price without the group's ratio, in dollars. -/
def fullBadge (line : StatementLine) : String :=
  ModelPrice.badge line.basis line.full

/-- The price with the group's ratio, in dollars. -/
def actualBadge (line : StatementLine) : String :=
  ModelPrice.badge line.basis line.actual

/-- The line as text, a discounted price behind the full one struck out. -/
def toText (line : StatementLine) : String :=
  if line.discounted then
    line.category.label ++ ": ~~" ++ line.fullBadge ++ "~~ " ++ line.actualBadge
  else line.category.label ++ ": " ++ line.actualBadge

end StatementLine

/-- A charge in detail. -/
structure Breakdown where
  basis : PricingBasis
  groupRatio : Binary64
  lines : List StatementLine
  quota : Quota
  fullQuota : Quota
  percentSaved : Option Int64
  total : String
deriving DecidableEq

/-- What is shown for the charge of an entry. -/
inductive Statement where
  | free
  | plain (quota : Quota) (text : String)
  | detailed (breakdown : Breakdown)
deriving DecidableEq

namespace Statement

/-- Nothing was charged. -/
def isFree : Statement → Bool
  | .free => true
  | _ => false

/-- The percentage saved, where one is shown. -/
def percentSaved : Statement → Option Int64
  | .detailed breakdown => breakdown.percentSaved
  | _ => none

/-- The statement as text, one line for each price. -/
def toText : Statement → String
  | .free => "Free"
  | .plain _ text => text
  | .detailed breakdown =>
    String.join (breakdown.lines.map fun line => line.toText ++ "\n") ++
      "Total: " ++ breakdown.total ++
      match breakdown.percentSaved with
      | some percent => "\n" ++ String.ofList (Text.integer percent.toInt) ++ "% saved"
      | none => ""

end Statement

/-- The percentage of the full quota that a group with a ratio below one saved, where both
quotas are positive. -/
def percentSaved (quota fullQuota : Quota) (groupRatio : Binary64) : Option Int64 :=
  if 0 < fullQuota.units ∧ 0 < quota.units ∧ groupRatio < 1 then
    some ((1 - quota.toReal / fullQuota.toReal) * 100).toInt64
  else none

/-- How statements are made: the format of quota, the base price, which is finite, and the places
of totals. -/
structure StatementStyle where
  format : QuotaFormat := .default
  basePrice : Binary64 := ModelPrice.defaultBasePrice
  places : Nat := 2
  basePrice_finite : basePrice.isFinite = true := by decide +kernel

namespace StatementStyle

/-- The base price, zero if it is not finite. -/
def withBasePrice (style : StatementStyle) (price : Binary64) : StatementStyle :=
  { style with
    basePrice := price.finitePart
    basePrice_finite := Binary64.isFinite_finitePart price }

/-- The base price is for this many tokens. -/
def tokensPerBasePrice : Binary64 := 1000

/-- The line of a category, at a ratio and a multiplier. -/
def line? (style : StatementStyle) (terms : UsageTerms) (category : ChargeCategory)
    (ratio : Binary64) (multiplier : Option Binary64) : Option StatementLine := do
  let price (groupRatio : Binary64) : ModelPrice :=
    { ratio, groupRatio, basis := terms.basis, basePrice := style.basePrice, multiplier }
  let full ← (price 1).digits?
  let actual ← (price terms.groupRatio).digits?
  return { category, full, actual, basis := terms.basis,
           discounted := terms.groupRatio < 1 }

/-- The categories of a charge with their ratios and multipliers: the request, or input and
output, then each category of special tokens that occur. -/
def categories (terms : UsageTerms) (inputRatio : Binary64) :
    List (ChargeCategory × Binary64 × Option Binary64) :=
  (match terms.basis with
    | .requests => [(.request, inputRatio, none)]
    | .tokens => [(.input, inputRatio, none), (.output, terms.outputRatio, none)])
  ++ (if 0 < terms.cacheWriteTokens then
      [(.cacheWrite, inputRatio, some terms.cacheWriteRatio)] else [])
  ++ (if 0 < terms.cacheReadTokens then
      [(.cacheRead, inputRatio, some terms.cacheReadRatio)] else [])
  ++ (if 0 < terms.reasoningTokens then
      [(.reasoning, terms.outputRatio, some terms.reasoningRatio)] else [])

/-- The lines of a charge. -/
def lines? (style : StatementStyle) (terms : UsageTerms) (inputRatio : Binary64) :
    Option (List StatementLine) :=
  (categories terms inputRatio).mapM fun (category, ratio, multiplier) =>
    style.line? terms category ratio multiplier

/-- The number of tokens as a binary64 number. -/
def tokens (count : UInt64) : Binary64 :=
  Binary64.ofInt count.toNat

/-- The amount that a charge comes to without the group's ratio. -/
def fullAmount (style : StatementStyle) (entry : UsageEntry) (terms : UsageTerms)
    (inputRatio : Binary64) : Binary64 :=
  match terms.basis with
  | .requests => inputRatio * style.basePrice
  | .tokens =>
    (tokens entry.promptTokens * inputRatio
      + tokens entry.completionTokens * terms.outputRatio
      + tokens terms.cacheWriteTokens * inputRatio * terms.cacheWriteRatio
      + tokens terms.cacheReadTokens * inputRatio * terms.cacheReadRatio
      + tokens terms.reasoningTokens * terms.outputRatio * terms.reasoningRatio)
      * style.basePrice / tokensPerBasePrice

/-- The quota without the group's ratio: the recorded one, else the worth of the full
amount. -/
def fullQuota (style : StatementStyle) (entry : UsageEntry) (terms : UsageTerms)
    (inputRatio : Binary64) : Quota :=
  terms.fullQuota.getD
    (style.format.quotaOf (style.fullAmount entry terms inputRatio))

/-- The charge of an entry in detail. -/
def breakdown? (style : StatementStyle) (entry : UsageEntry) (terms : UsageTerms)
    (inputRatio : Binary64) : Option Breakdown := do
  let fullQuota := style.fullQuota entry terms inputRatio
  let lines ← style.lines? terms inputRatio
  let total ← style.format.show? entry.charged style.places
  return { basis := terms.basis, groupRatio := terms.groupRatio, lines, quota := entry.charged,
           fullQuota, total,
           percentSaved := Tariff.percentSaved entry.charged fullQuota terms.groupRatio }

/-- The statement of an entry: free if nothing was consumed and no price is known, in detail if
an input ratio is known, and the quota alone otherwise. -/
def statement? (style : StatementStyle) (entry : UsageEntry) : Option Statement :=
  match entry.terms.bind fun terms => terms.inputRatio.map (terms, ·) with
  | some (terms, inputRatio) => .detailed <$> style.breakdown? entry terms inputRatio
  | none =>
    if entry.charged.isZero && entry.kind = .consume then some .free
    else .plain entry.charged <$> style.format.show? entry.charged style.places

end StatementStyle

end Tariff
