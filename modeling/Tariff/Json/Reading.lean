import Tariff.Json.Numerals
import Tariff.SortedMap

/-!
# Reading JSON values

A value is read with a bound on how many containers may be open at once.  Two ways of reading
share the grammar: values that are wanted have their strings decoded and their numbers converted;
values that are skipped are only scanned, so that they may hold halves of surrogate pairs and
numbers out of range, and nest without bound.
-/

namespace Tariff.Json

/-- How the strings and numbers inside a value are read. -/
structure Leaves where
  /-- What an escaped code unit stands for. -/
  unit : Nat → Reader Char
  /-- Reads a number behind its sign. -/
  number : Bool → Reader Number

/-- The leaves of a value that is wanted. -/
def Leaves.wanted : Leaves where
  unit := Reader.unitCharacter
  number := Reader.number

/-- The leaves of a value that is skipped; an unfinished number counts as malformed. -/
def Leaves.skipped : Leaves where
  unit _ := pure '?'
  number _ := Reader.numeral .malformed >>= fun _ => pure (.integer 0)

/-- A value may have this many containers open at once. -/
def nestingLimit : Nat := 127

namespace Reader

/-- Reads a value, blanks before it allowed, with at most `depth` containers open at once. -/
def valueWith (leaves : Leaves) (depth : Nat) : Reader Json := fun cs =>
  match dropBlanks cs with
  | [] => .error .truncated
  | 'n' :: rest => word .null "ull".toList rest
  | 't' :: rest => word (.bool true) "rue".toList rest
  | 'f' :: rest => word (.bool false) "alse".toList rest
  | '"' :: rest => (.string <$> stringTail leaves.unit) rest
  | '-' :: rest => (.number <$> leaves.number true) rest
  | '[' :: rest =>
    match depth with
    | 0 => .error .malformed
    | depth + 1 =>
      (do
        let items ← parts ']' (fun items => (· :: items) <$> valueWith leaves depth) []
        pure (.array items.reverse) : Reader Json) rest
  | '\x7b' :: rest =>
    match depth with
    | 0 => .error .malformed
    | depth + 1 =>
      (.object <$> parts '\x7d'
        (fun members => do
          let name ← memberName leaves.unit
          let value ← valueWith leaves depth
          pure (Assoc.insert name value members)) []) rest
  | c :: rest =>
    if c.isDigit then (.number <$> leaves.number false) (c :: rest) else .error .malformed

/-- Reads a value with at most `depth` containers open at once. -/
def value (depth : Nat) : Reader Json :=
  valueWith .wanted depth

/-- Reads a value of any depth and gives nothing.  A value has no more containers than
characters. -/
def skip : Reader Unit := fun cs =>
  ((fun _ => ()) <$> valueWith .skipped cs.length) cs

/-- Reads a value without parts of its own that `convert` accepts.  A container is refused at its
bracket, any other value after it. -/
def scalar {α : Type} (convert : Json → Option α) : Reader α := fun cs =>
  match dropBlanks cs with
  | '[' :: _ => .error .mismatched
  | '\x7b' :: _ => .error .mismatched
  | rest =>
    (do
      match convert (← value 0) with
      | some a => pure a
      | none => fail .mismatched : Reader α) rest

/-- Reads a truth value. -/
def bool : Reader Bool :=
  scalar fun
    | .bool b => some b
    | _ => none

/-- Reads an integer of the given range. -/
def integer (low high : Int) : Reader Int :=
  scalar fun
    | .number (.integer n) => if low ≤ n ∧ n ≤ high then some n else none
    | _ => none

/-- Reads a number of either kind as a binary64 number. -/
def real : Reader Binary64 :=
  scalar fun
    | .number (.integer n) => some (Binary64.ofInt n)
    | .number (.real x) => some x
    | _ => none

/-- Reads a string. -/
def string : Reader String :=
  scalar Json.string?

/-- Reads an array whose items are read by `item`. -/
def list {α : Type} (item : Reader α) : Reader (List α) := fun cs =>
  match dropBlanks cs with
  | '[' :: rest =>
    (List.reverse <$> parts ']' (fun items => (· :: items) <$> item) []) rest
  | rest => scalar (fun _ => none) rest

/-- Reads an object into its members in ascending order of their names, the last of several with
one name. -/
def members : Reader (SortedMap String Json) := fun cs =>
  match dropBlanks cs with
  | '\x7b' :: rest =>
    (parts '\x7d'
      (fun members => do
        let name ← memberName unitCharacter
        let value ← value (nestingLimit - 1)
        pure (members.insert name value)) .empty) rest
  | rest => scalar (fun _ => none) rest

/-- Reads the name of a constant. -/
def constantName {α : Type} (ofName? : String → Option α) : Reader α := do
  mark '"'
  match ofName? (← stringTail unitCharacter) with
  | some a => pure a
  | none => fail .mismatched

/-- Reads a constant of an enumeration, by its name or as an object with the name for its only
member and null for its value. -/
def constant {α : Type} (ofName? : String → Option α) : Reader α := fun cs =>
  match dropBlanks cs with
  | '\x7b' :: rest =>
    (do
      let a ← constantName ofName?
      mark ':'
      scalar fun
        | .null => some ()
        | _ => none
      mark '\x7d'
      pure a : Reader α) rest
  | rest => constantName ofName? rest

end Reader

/-- The value that a text holds. -/
def ofText (text : String) : Except Fault Json :=
  (Reader.value nestingLimit).run text

end Tariff.Json
