import Tariff.Json.Record
import Tariff.Price.Basis
import Tariff.Quota.Basic
import Tariff.Usage.Lenient

/-!
# Price details of usage

A usage entry may carry the ratios and token counts that its charge came from.  Recorded details
have fields that may be missing; terms are the details with the defaults in force.  Details are
read from a JSON value that an entry holds, or from a text in it.
-/

namespace Tariff

/-- Price details as recorded. -/
structure UsageDetail where
  inputRatio : Option Binary64 := none
  outputRatio : Option Binary64 := none
  groupRatio : Option Binary64 := none
  basis : PricingBasis := .tokens
  cacheWriteTokens : UInt64 := 0
  cacheWriteRatio : Option Binary64 := none
  cacheReadTokens : UInt64 := 0
  cacheReadRatio : Option Binary64 := none
  reasoningTokens : UInt64 := 0
  reasoningRatio : Option Binary64 := none
  fullQuota : Option Int64 := none
deriving DecidableEq

/-- Price details with the defaults in force; only the input ratio and the quota before discounts
may be missing. -/
structure UsageTerms where
  inputRatio : Option Binary64
  outputRatio : Binary64
  groupRatio : Binary64
  basis : PricingBasis
  cacheWriteTokens : UInt64
  cacheWriteRatio : Binary64
  cacheReadTokens : UInt64
  cacheReadRatio : Binary64
  reasoningTokens : UInt64
  reasoningRatio : Binary64
  fullQuota : Option Quota
deriving DecidableEq

namespace UsageDetail

/-- Without any detail. -/
def empty : UsageDetail := {}

/-- The terms that recorded details amount to: output costs what input costs, a cache write a
quarter more than input and a cache read a tenth of it, unless ratios say otherwise. -/
def terms (detail : UsageDetail) : UsageTerms where
  inputRatio := detail.inputRatio
  outputRatio := detail.outputRatio.getD (detail.inputRatio.getD 0)
  groupRatio := detail.groupRatio.getD 1
  basis := detail.basis
  cacheWriteTokens := detail.cacheWriteTokens
  cacheWriteRatio := detail.cacheWriteRatio.getD 1.25
  cacheReadTokens := detail.cacheReadTokens
  cacheReadRatio := detail.cacheReadRatio.getD 0.1
  reasoningTokens := detail.reasoningTokens
  reasoningRatio := detail.reasoningRatio.getD 1
  fullQuota := detail.fullQuota.map Quota.mk

/-! ### Details in JSON -/

/-- The fields of details in JSON. -/
inductive Field where
  | inputRatio
  | outputRatio
  | groupRatio
  | basis
  | cacheWriteTokens
  | cacheWriteRatio
  | cacheReadTokens
  | cacheReadRatio
  | reasoningTokens
  | reasoningRatio
  | fullQuota
deriving DecidableEq

/-- All fields in order. -/
def Field.all : List Field :=
  [.inputRatio, .outputRatio, .groupRatio, .basis, .cacheWriteTokens, .cacheWriteRatio,
    .cacheReadTokens, .cacheReadRatio, .reasoningTokens, .reasoningRatio, .fullQuota]

/-- The names of a field, the second of those that have two being an older one. -/
def Field.labels : Field → List String
  | .inputRatio => ["input_ratio", "model_ratio"]
  | .outputRatio => ["output_ratio"]
  | .groupRatio => ["group_ratio"]
  | .basis => ["price_type"]
  | .cacheWriteTokens => ["cached_write_tokens", "cache_creation_tokens"]
  | .cacheWriteRatio => ["cached_write_ratio", "cache_creation_ratio"]
  | .cacheReadTokens => ["cached_read_tokens", "cache_tokens"]
  | .cacheReadRatio => ["cached_read_ratio", "cache_ratio"]
  | .reasoningTokens => ["reasoning_tokens"]
  | .reasoningRatio => ["reasoning_ratio"]
  | .fullQuota => ["original_quota"]

/-- The field with a name. -/
def Field.ofLabel? (s : String) : Option Field :=
  all.find? fun f => s ∈ f.labels

/-- The details with a field taken from a JSON value. -/
def set (detail : UsageDetail) (field : Field) (value : Json) : UsageDetail :=
  match field with
  | .inputRatio => { detail with inputRatio := LenientNumber.real? value }
  | .outputRatio => { detail with outputRatio := LenientNumber.real? value }
  | .groupRatio => { detail with groupRatio := LenientNumber.real? value }
  | .basis => { detail with basis := PricingBasis.ofPriceType value.string? }
  | .cacheWriteTokens => { detail with cacheWriteTokens := LenientNumber.tokenCount value }
  | .cacheWriteRatio => { detail with cacheWriteRatio := LenientNumber.real? value }
  | .cacheReadTokens => { detail with cacheReadTokens := LenientNumber.tokenCount value }
  | .cacheReadRatio => { detail with cacheReadRatio := LenientNumber.real? value }
  | .reasoningTokens => { detail with reasoningTokens := LenientNumber.tokenCount value }
  | .reasoningRatio => { detail with reasoningRatio := LenientNumber.real? value }
  | .fullQuota => { detail with fullQuota := LenientNumber.int64? value }

/-- How details are read. -/
def shape : Json.Shape Field UsageDetail where
  order := Field.all
  named? := Field.ofLabel?
  required _ := false
  field f detail := detail.set f <$> Json.Reader.value (Json.nestingLimit - 1)

/-- Reads details. -/
def reader : Json.Reader UsageDetail :=
  Json.Reader.record shape empty

/-- The details with the members of an object taken in, unless a field occurs twice; `seen` are
the fields before. -/
def ofMembersFrom? (detail : UsageDetail) (seen : List Field) :
    List (String × Json) → Option UsageDetail
  | [] => some detail
  | (name, value) :: members =>
    match Field.ofLabel? name with
    | none => ofMembersFrom? detail seen members
    | some f =>
      if f ∈ seen then none else ofMembersFrom? (detail.set f value) (f :: seen) members

/-- The details that an object gives, unless a field occurs twice. -/
def ofMembers? (members : List (String × Json)) : Option UsageDetail :=
  ofMembersFrom? empty [] members

/-- The details that a JSON value gives: an object, or a text that holds a record of them. -/
def ofJson? : Json → Option UsageDetail
  | .object members => ofMembers? members
  | .string s => if Text.isAllBlank s then none else (reader.run s).toOption
  | _ => none

end UsageDetail

end Tariff
