import Tariff.Json.Basic

/-!
# JSON readers

A reader takes a value from the front of a list of characters and leaves the rest, or says what is
wrong.  The readers of this module are those of the parts that have no parts of their own, words
and strings, and of what stands between brackets.
-/

namespace Tariff.Json

/-- Takes a value from the front of the characters. -/
abbrev Reader (α : Type) := StateT (List Char) (Except Fault) α

/-- The four blank characters of JSON. -/
def isBlank (c : Char) : Bool :=
  c = ' ' || c = '\n' || c = '\r' || c = '\t'

/-- The characters from the first that is not blank. -/
def dropBlanks (cs : List Char) : List Char :=
  cs.dropWhile isBlank

namespace Reader

/-- Reads nothing and reports a fault. -/
def fail {α : Type} (fault : Fault) : Reader α :=
  fun _ => .error fault

/-- Reads the rest of a word, then gives `value`. -/
def word {α : Type} (value : α) : List Char → Reader α
  | [] => pure value
  | c :: letters => fun cs =>
    match cs with
    | [] => .error .truncated
    | c' :: rest => if c = c' then word value letters rest else .error .malformed

/-- Reads one given character after blanks. -/
def mark (c : Char) : Reader Unit := fun cs =>
  match dropBlanks cs with
  | [] => .error .truncated
  | c' :: rest => if c = c' then .ok ((), rest) else .error .malformed

/-- The value of a hexadecimal digit of either case. -/
def hexValue? (c : Char) : Option Nat :=
  if c.isDigit then some (c.toNat - '0'.toNat)
  else if 'a' ≤ c ∧ c ≤ 'f' then some (c.toNat - 'a'.toNat + 10)
  else if 'A' ≤ c ∧ c ≤ 'F' then some (c.toNat - 'A'.toNat + 10)
  else none

/-- Reads four hexadecimal digits; fewer than four bytes are an early end. -/
def codeUnit : Reader Nat := fun cs =>
  if (String.ofList (cs.take 4)).utf8ByteSize < 4 then .error .truncated
  else
    match (cs.take 4).mapM hexValue? with
    | some digits => .ok (digits.foldl (fun n digit => 16 * n + digit) 0, cs.drop 4)
    | none => .error .malformed

/-- Reads the escaped code unit that has to follow a leading surrogate. -/
def trailingUnit : Reader Nat := fun cs =>
  match cs with
  | [] => .error .truncated
  | '\\' :: [] => .error .truncated
  | '\\' :: 'u' :: rest => codeUnit rest
  | _ => .error .malformed

/-- Reads what follows an escaped code unit: nothing, or the second half of a pair of
surrogates.  A surrogate without its other half is malformed. -/
def unitCharacter (unit : Nat) : Reader Char :=
  if 0xDC00 ≤ unit ∧ unit ≤ 0xDFFF then fail .malformed
  else if unit < 0xD800 ∨ 0xDBFF < unit then pure (Char.ofNat unit)
  else do
    let trailing ← trailingUnit
    if 0xDC00 ≤ trailing ∧ trailing ≤ 0xDFFF then
      pure (Char.ofNat (0x10000 + (unit - 0xD800) * 0x400 + (trailing - 0xDC00)))
    else fail .malformed

/-- Reads the rest of an escape; `finish` says what an escaped code unit stands for. -/
def escaped (finish : Nat → Reader Char) : Reader Char := fun cs =>
  match cs with
  | [] => .error .truncated
  | 'u' :: rest => (codeUnit >>= finish) rest
  | c :: rest =>
    if c = '"' ∨ c = '\\' ∨ c = '/' then .ok (c, rest)
    else if c = 'b' then .ok ('\x08', rest)
    else if c = 'f' then .ok ('\x0c', rest)
    else if c = 'n' then .ok ('\n', rest)
    else if c = 'r' then .ok ('\r', rest)
    else if c = 't' then .ok ('\t', rest)
    else .error .malformed

/-- Reads one character of a string, or the quote at its end. -/
def character (finish : Nat → Reader Char) : Reader (Option Char) := fun cs =>
  match cs with
  | [] => .error .truncated
  | '"' :: rest => .ok (none, rest)
  | '\\' :: rest => (some <$> escaped finish) rest
  | c :: rest => if c.toNat < 32 then .error .malformed else .ok (some c, rest)

/-- Reads at most `count` characters of a string up to the quote at its end. -/
def characters (finish : Nat → Reader Char) : Nat → Reader (List Char)
  | 0 => fail .truncated
  | count + 1 => do
    match ← character finish with
    | none => pure []
    | some c => return c :: (← characters finish count)

/-- Reads a string behind its opening quote.  Each of its characters takes at least one of the
text. -/
def stringTail (finish : Nat → Reader Char) : Reader String := fun cs =>
  (String.ofList <$> characters finish (cs.length + 1)) cs

/-- Reads at most `count` further parts and the closing bracket, a comma before each part. -/
def moreParts {σ : Type} (close : Char) (part : σ → Reader σ) : Nat → σ → Reader σ
  | 0, _ => fail .truncated
  | count + 1, state => fun cs =>
    match dropBlanks cs with
    | [] => .error .truncated
    | c :: rest =>
      if c = close then .ok (state, rest)
      else if c = ',' then (part state >>= moreParts close part count) rest
      else .error .malformed

/-- Reads the parts of a container behind its opening bracket, up to the closing one, each part
with the state that the ones before it leave.  Each part takes at least its comma of the text. -/
def parts {σ : Type} (close : Char) (part : σ → Reader σ) (state : σ) : Reader σ := fun cs =>
  match dropBlanks cs with
  | [] => .error .truncated
  | c :: rest =>
    if c = close then .ok (state, rest)
    else (part state >>= moreParts close part cs.length) (c :: rest)

/-- Reads the name of a member and the colon behind it. -/
def memberName (finish : Nat → Reader Char) : Reader String := do
  mark '"'
  let name ← stringTail finish
  mark ':'
  pure name

/-- Reads a whole text: one value with nothing but blanks around it. -/
def run {α : Type} (reader : Reader α) (text : String) : Except Fault α := do
  let (a, rest) ← reader text.toList
  if (dropBlanks rest).isEmpty then pure a else .error .malformed

end Reader

end Tariff.Json
