import Tariff.Host.Environment
import Tariff.Json.Basic

/-!
# Errors of settings

What can go wrong with a store of settings, and the failures that the library reports to its
callers, each of them either a matter of configuration or internal.
-/

namespace Tariff

/-- What can go wrong with a store. -/
inductive StoreError where
  /-- A key that has to be there is not. -/
  | missingKey (key : String)
  /-- The value of a key is not of the wanted type. -/
  | invalidValue (key reason : String)
  /-- The text of a store is not a JSON object. -/
  | json (fault : Json.Fault)
  /-- A file cannot be read or written. -/
  | file (error : FileError)
  /-- A variable cannot be read. -/
  | environment (error : VariableError)
  /-- The store cannot be written. -/
  | readOnly (store : String)
  /-- The variables cannot be listed, as one of them is not text. -/
  | unlistable
deriving DecidableEq, Repr

/-- The wording for a store that cannot be written. -/
def readOnlyMessage (store : String) : String :=
  "Settings store '" ++ store ++ "' is read-only"

/-- The error in words. -/
def StoreError.message : StoreError → String
  | .missingKey key => "Key not found: " ++ key
  | .invalidValue key reason => "Invalid value for " ++ key ++ ": " ++ reason
  | .json fault => "Serialization error: " ++ fault.describe
  | .file error => "IO error: " ++ error.message
  | .environment error => "Environment error: " ++ error.message
  | .readOnly store => readOnlyMessage store
  | .unlistable => "Environment error: " ++ VariableError.notText.message

/-- A failure reported to a caller. -/
inductive Failure where
  | configuration (message : String)
  | json (fault : Json.Fault)
  | file (error : FileError)
  | environment (error : VariableError)
  | readOnly (store : String)
deriving DecidableEq, Repr

namespace Failure

/-- The failure that an error of a store amounts to. -/
def ofStoreError : StoreError → Failure
  | .missingKey key => .configuration (StoreError.missingKey key).message
  | .invalidValue key reason => .configuration (StoreError.invalidValue key reason).message
  | .json fault => .json fault
  | .file error => .file error
  | .environment error => .environment error
  | .readOnly store => .readOnly store
  | .unlistable => .environment .notText

/-- The failure in words. -/
def message : Failure → String
  | .configuration message => "Configuration error: " ++ message
  | .json fault => "JSON parsing failed: " ++ fault.describe
  | .file error => "IO error: " ++ error.message
  | .environment error => "Environment variable error: " ++ error.message
  | .readOnly store => readOnlyMessage store

/-- The failure is a matter of configuration, and internal otherwise. -/
def isConfiguration : Failure → Bool
  | .configuration _ => true
  | .environment _ => true
  | .readOnly _ => true
  | .json _ => false
  | .file _ => false

end Failure

end Tariff
