import Tariff.Json.Reading

/-!
# Reading records

A record is read from an object by the names of its fields, in any order, unknown members being
skipped, or from an array by the order of its fields, where fields at the end may be missing.  A
field must not occur twice, under whatever names, and a required field must occur.
-/

namespace Tariff.Json

/-- How a record of type `σ` with fields `φ` is read, one field at a time. -/
structure Shape (φ σ : Type) where
  /-- All fields in the order of the array form. -/
  order : List φ
  /-- The field with a name. -/
  named? : String → Option φ
  /-- Fields that must occur. -/
  required : φ → Bool
  /-- Reads the value of a field into the record. -/
  field : φ → σ → Reader σ

namespace Reader

variable {φ σ : Type} [DecidableEq φ]

/-- Reads one member of the object form; `seen` are the fields before it. -/
def recordMember (shape : Shape φ σ) (state : σ × List φ) : Reader (σ × List φ) := do
  let (record, seen) := state
  mark '"'
  let name ← stringTail unitCharacter
  match shape.named? name with
  | none => do
    mark ':'
    skip
    pure state
  | some f =>
    if f ∈ seen then fail .mismatched
    else do
      mark ':'
      return (← shape.field f record, f :: seen)

/-- Reads the rest of the array form behind its first item: a comma before each further field,
and the closing bracket. -/
def furtherFields (shape : Shape φ σ) : List φ → σ → Reader σ
  | [], record => fun cs =>
    match dropBlanks cs with
    | [] => .error .truncated
    | ']' :: rest => .ok (record, rest)
    | _ => .error .malformed
  | f :: fields, record => fun cs =>
    match dropBlanks cs with
    | [] => .error .truncated
    | ']' :: rest =>
      if (f :: fields).any shape.required then .error .mismatched else .ok (record, rest)
    | ',' :: rest => (shape.field f record >>= furtherFields shape fields) rest
    | _ => .error .malformed

/-- Reads the array form behind its opening bracket. -/
def arrayFields (shape : Shape φ σ) (record : σ) : Reader σ := fun cs =>
  match shape.order, dropBlanks cs with
  | [], rest => furtherFields shape [] record rest
  | _, [] => .error .truncated
  | fields, ']' :: rest =>
    if fields.any shape.required then .error .mismatched else .ok (record, rest)
  | f :: fields, rest => (shape.field f record >>= furtherFields shape fields) rest

/-- Reads a record in one of its two forms, starting from `initial`. -/
def record (shape : Shape φ σ) (initial : σ) : Reader σ := fun cs =>
  match dropBlanks cs with
  | '\x7b' :: rest =>
    (do
      let (record, seen) ← parts '\x7d' (recordMember shape) (initial, [])
      if shape.order.all fun f => !shape.required f || f ∈ seen then pure record
      else fail .mismatched : Reader σ) rest
  | '[' :: rest => arrayFields shape initial rest
  | rest => scalar (fun _ => none) rest

end Reader

end Tariff.Json
