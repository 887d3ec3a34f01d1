import Tariff.Usage.Detail

/-!
# Usage entries

An entry of a usage log has a kind, the quota that was charged, token counts and the price
details of the charge.  It is read leniently: only a model name that is neither a string nor null
is refused.
-/

namespace Tariff

/-- The kind of a usage entry. -/
inductive EntryKind where
  | unknown
  | topUp
  | consume
  | manage
  | system
  | error
deriving DecidableEq, Repr

namespace EntryKind

/-- The number of a kind. -/
def number : EntryKind → Int64
  | .unknown => 0
  | .topUp => 1
  | .consume => 2
  | .manage => 3
  | .system => 4
  | .error => 5

/-- The kind with a number; every other number is unknown. -/
def ofNumber (n : Int64) : EntryKind :=
  ([.topUp, .consume, .manage, .system, .error].find? fun kind => kind.number = n).getD .unknown

/-- A kind is found by its number. -/
theorem ofNumber_number (kind : EntryKind) :
  ofNumber kind.number = kind
  := by
  cases kind <;> decide

end EntryKind

/-- An entry of a usage log. -/
structure UsageEntry where
  id : Option Int64 := none
  kind : EntryKind := .unknown
  quota : Option Quota := none
  promptTokens : UInt64 := 0
  completionTokens : UInt64 := 0
  modelName : Option String := none
  terms : Option UsageTerms := none
deriving DecidableEq

namespace UsageEntry

/-- An entry of a kind and nothing else. -/
def ofKind (kind : EntryKind) : UsageEntry := { kind }

/-- The quota charged, none if it is not recorded. -/
def charged (entry : UsageEntry) : Quota :=
  entry.quota.getD .zero

/-! ### Entries in JSON -/

/-- The fields of an entry in JSON. -/
inductive Field where
  | id
  | kind
  | quota
  | promptTokens
  | completionTokens
  | modelName
  | terms
deriving DecidableEq

/-- All fields in order. -/
def Field.all : List Field :=
  [.id, .kind, .quota, .promptTokens, .completionTokens, .modelName, .terms]

/-- The names of a field. -/
def Field.labels : Field → List String
  | .id => ["id"]
  | .kind => ["type"]
  | .quota => ["quota"]
  | .promptTokens => ["prompt_tokens"]
  | .completionTokens => ["completion_tokens"]
  | .modelName => ["model_name"]
  | .terms => ["metadata", "other"]

/-- The field with a name. -/
def Field.ofLabel? (s : String) : Option Field :=
  all.find? fun f => s ∈ f.labels

/-- The model name that a JSON value gives, or that it gives none. -/
def modelNameOf? : Json → Option (Option String)
  | .null => some none
  | .string s => some (some s)
  | _ => none

/-- Reads the value of a field into an entry. -/
def readField (field : Field) (entry : UsageEntry) : Json.Reader UsageEntry :=
  let value := Json.Reader.value (Json.nestingLimit - 1)
  match field with
  | .id => do return { entry with id := LenientNumber.int64? (← value) }
  | .kind => do
    return { entry with
      kind := ((LenientNumber.int64? (← value)).map EntryKind.ofNumber).getD .unknown }
  | .quota => do return { entry with quota := (LenientNumber.int64? (← value)).map Quota.mk }
  | .promptTokens => do return { entry with promptTokens := LenientNumber.tokenCount (← value) }
  | .completionTokens => do
    return { entry with completionTokens := LenientNumber.tokenCount (← value) }
  | .modelName => do return { entry with modelName := ← Json.Reader.scalar modelNameOf? }
  | .terms => do
    return { entry with terms := (UsageDetail.ofJson? (← value)).map UsageDetail.terms }

/-- How an entry is read. -/
def shape : Json.Shape Field UsageEntry where
  order := Field.all
  named? := Field.ofLabel?
  required _ := false
  field := readField

/-- Reads an entry. -/
def reader : Json.Reader UsageEntry :=
  Json.Reader.record shape {}

end UsageEntry

end Tariff
