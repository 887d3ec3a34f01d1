import Tariff.Binary64.Shortest
import Tariff.Json.Basic

/-!
# Printing JSON

The compact text of a value, and the text that gives each item and member a line of its own,
indented by two blanks a level.  Numbers that are not integers are written with the digits of
their shortest decimal, positionally from `10 ^ -5` to below `10 ^ 16` and with an exponent
otherwise.
-/

namespace Tariff.Json

/-- The hexadecimal digits of a control character. -/
def controlEscape (c : Char) : List Char :=
  ['\\', 'u', '0', '0', Nat.digitChar (c.toNat / 16), Nat.digitChar (c.toNat % 16)]

/-- The characters that stand for `c` between quotes. -/
def escape (c : Char) : List Char :=
  if c = '"' then ['\\', '"']
  else if c = '\\' then ['\\', '\\']
  else if c = '\x08' then ['\\', 'b']
  else if c = '\x0c' then ['\\', 'f']
  else if c = '\n' then ['\\', 'n']
  else if c = '\r' then ['\\', 'r']
  else if c = '\t' then ['\\', 't']
  else if c.toNat < 32 then controlEscape c
  else [c]

/-- A text between quotes. -/
def quoted (s : String) : List Char :=
  '"' :: s.toList.flatMap escape ++ ['"']

/-- The digits of a decimal, positional with at least one place, or with an exponent. -/
def decimalChars (form : DecimalForm) : List Char :=
  let digits := Text.numeral form.coefficient
  let magnitude := form.exponent + digits.length - 1
  if magnitude < -5 || 15 < magnitude then
    let lead := digits.take 1 ++ if digits.length = 1 then [] else '.' :: digits.drop 1
    let sign := if magnitude < 0 then '-' else '+'
    lead ++ 'e' :: sign :: Text.numeral magnitude.natAbs
  else if form.exponent < 0 then
    Text.fixedPoint form.coefficient form.exponent.natAbs
  else
    Text.numeral (form.coefficient * pow10 form.exponent.natAbs) ++ ['.', '0']

/-- A binary64 number in digits; one that is not finite has no digits. -/
def realChars (x : Binary64) : List Char :=
  if x.isFinite then Text.signed x.negative (decimalChars (x.shortest .toEven))
  else "null".toList

/-- A number in digits. -/
def Number.chars : Number → List Char
  | .integer n => Text.integer n
  | .real x => realChars x

/-- A number in digits. -/
def Number.toText (n : Number) : String :=
  String.ofList n.chars

mutual

/-- The value without blanks. -/
def compactChars : Json → List Char
  | .null => "null".toList
  | .bool true => "true".toList
  | .bool false => "false".toList
  | .number n => n.chars
  | .string s => quoted s
  | .array items => '[' :: compactItems items ++ [']']
  | .object members => '\x7b' :: compactMembers members ++ ['\x7d']

/-- Items between commas. -/
def compactItems : List Json → List Char
  | [] => []
  | [item] => compactChars item
  | item :: items => compactChars item ++ ',' :: compactItems items

/-- Members between commas. -/
def compactMembers : List (String × Json) → List Char
  | [] => []
  | [(name, value)] => quoted name ++ ':' :: compactChars value
  | (name, value) :: members =>
    quoted name ++ ':' :: (compactChars value ++ ',' :: compactMembers members)

end

/-- The value without blanks. -/
def compact (value : Json) : String :=
  String.ofList value.compactChars

/-- A new line at a level of indentation. -/
def newLine (level : Nat) : List Char :=
  '\n' :: List.replicate (2 * level) ' '

mutual

/-- The value with its parts on lines of their own, inside `level` containers. -/
def indentedChars (level : Nat) : Json → List Char
  | .array [] => ['[', ']']
  | .array items => '[' :: indentedItems (level + 1) items ++ newLine level ++ [']']
  | .object [] => ['\x7b', '\x7d']
  | .object members =>
    '\x7b' :: indentedMembers (level + 1) members ++ newLine level ++ ['\x7d']
  | .null => "null".toList
  | .bool true => "true".toList
  | .bool false => "false".toList
  | .number n => n.chars
  | .string s => quoted s

/-- Items on lines of their own. -/
def indentedItems (level : Nat) : List Json → List Char
  | [] => []
  | [item] => newLine level ++ indentedChars level item
  | item :: items => newLine level ++ indentedChars level item ++ ',' :: indentedItems level items

/-- Members on lines of their own. -/
def indentedMembers (level : Nat) : List (String × Json) → List Char
  | [] => []
  | [(name, value)] =>
    newLine level ++ quoted name ++ ':' :: ' ' :: indentedChars level value
  | (name, value) :: members =>
    newLine level ++ quoted name ++ ':' :: ' ' ::
      (indentedChars level value ++ ',' :: indentedMembers level members)

end

/-- The value with its parts on lines of their own. -/
def indented (value : Json) : String :=
  String.ofList (value.indentedChars 0)

end Tariff.Json
