import Tariff.Price.Basis
import Tariff.Quota.Format
import Tariff.Settings.Store

/-!
# Access to settings

Actions on a store and its host.  An action that fails keeps what it did before to the store and
the host.  Values of several types are kept as JSON texts.
-/

namespace Tariff

/-- An action on a store and the host it lives on. -/
abbrev Access (α : Type) := ExceptT StoreError (StateM (Store × Host)) α

namespace Access

/-- The action of a call on the store. -/
def ofCall {α : Type} (call : Host → Store → Reply Store α) : Access α :=
  fun (store, host) =>
    let reply := call host store
    (reply.answer, (reply.store, reply.host))

/-- The text of a key. -/
def get (key : String) : Access (Option String) :=
  ofCall (Layered.get key)

/-- Sets the text of a key. -/
def set (key value : String) : Access Unit :=
  ofCall (Layered.set key value)

/-- Removes a key; the answer is whether it was there. -/
def delete (key : String) : Access Bool :=
  ofCall (Layered.delete key)

/-- The keys that start with a text. -/
def list (start : String) : Access (List String) :=
  ofCall (Layered.list start)

/-- The text of a key that has to be there. -/
def require (key : String) : Access String := do
  match ← get key with
  | some value => return value
  | none => throw (.missingKey key)

/-- The value of a key, its text read as JSON. -/
def getAs {α : Type} (reader : Json.Reader α) (key : String) : Access (Option α) := do
  match ← get key with
  | none => return none
  | some text =>
    match reader.run text with
    | .ok a => return some a
    | .error fault => throw (.invalidValue key fault.describe)

/-- Sets the value of a key to the text of a JSON value. -/
def setAs (key : String) (value : Json) : Access Unit :=
  set key value.compact

end Access

end Tariff
