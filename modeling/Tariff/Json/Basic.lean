import Tariff.Assoc
import Tariff.Binary64.Basic

/-!
# JSON values

A JSON value, with the integers of 64 bits kept apart from the binary64 numbers, and what can be
wrong with a JSON text.
-/

namespace Tariff

/-- A number is an integer of 64 bits, signed or unsigned, or a binary64 number. -/
inductive Json.Number where
  | integer (n : Int)
  | real (x : Binary64)
deriving DecidableEq

/-- A JSON value; a text's objects have their members in ascending order of the names, the last
of several with one name. -/
inductive Json where
  | null
  | bool (b : Bool)
  | number (n : Json.Number)
  | string (s : String)
  | array (items : List Json)
  | object (members : List (String × Json))

namespace Json

instance : Inhabited Json := ⟨.null⟩

/-- Why a text does not give the value that is wanted. -/
inductive Fault where
  /-- The text is not JSON, nests too deeply, or holds a number out of range. -/
  | malformed
  /-- The text ends too early. -/
  | truncated
  /-- The text holds another kind of value, or lacks or repeats a field. -/
  | mismatched
deriving DecidableEq, Repr

/-- A short name for a fault. -/
def Fault.describe : Fault → String
  | .malformed => "malformed JSON"
  | .truncated => "unfinished JSON"
  | .mismatched => "JSON of another kind"

/-- The string of a value that is one. -/
def string? : Json → Option String
  | .string s => some s
  | _ => none

/-- The value of a member of an object. -/
def member? (name : String) : Json → Option Json
  | .object members => Assoc.find? name members
  | _ => none

end Json

end Tariff
