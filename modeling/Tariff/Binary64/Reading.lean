import Tariff.Binary64.Arithmetic
import Tariff.Text.Blank

/-!
# Reading binary64 numbers

A number is a sign or none, then decimal digits with at most one point among or around them and
an exponent or none, or a name for infinity or for no number.  The value is the nearest to what
the digits denote.
-/

namespace Tariff.Binary64

/-- A number that consists of digits, at least one. -/
def digits? (cs : List Char) : Option Nat :=
  if !cs.isEmpty && cs.all Char.isDigit then some (Text.numeralValue cs) else none

/-- An exponent: a sign or none, then digits. -/
def exponent? : List Char → Option Int
  | '-' :: cs => (digits? cs).map fun n => -(n : Int)
  | '+' :: cs => (digits? cs).map Int.ofNat
  | cs => (digits? cs).map Int.ofNat

/-- A number without a sign: digits, a point and digits, an exponent. -/
def unsigned? (negative : Bool) (cs : List Char) : Option Binary64 := do
  let whole := cs.takeWhile Char.isDigit
  let (fraction, rest) :=
    match cs.dropWhile Char.isDigit with
    | '.' :: tail => (tail.takeWhile Char.isDigit, tail.dropWhile Char.isDigit)
    | tail => ([], tail)
  let coefficient ← digits? (whole ++ fraction)
  let exponent ←
    match rest with
    | [] => some 0
    | e :: tail => if e = 'e' ∨ e = 'E' then exponent? tail else none
  ofDecimal negative coefficient (exponent - fraction.length)

/-- A number without a sign, or one of the names. -/
def magnitude? (negative : Bool) (cs : List Char) : Option Binary64 :=
  let name := String.ofList (cs.map Char.toLower)
  if name = "inf" ∨ name = "infinity" then some (infinity negative)
  else if name = "nan" then some nan
  else unsigned? negative cs

/-- The number that a text denotes, if it denotes one. -/
def ofChars? : List Char → Option Binary64
  | '-' :: cs => magnitude? true cs
  | '+' :: cs => magnitude? false cs
  | cs => magnitude? false cs

/-- The finite number that a text denotes, blanks around it ignored, and zero for every other
text. -/
def ofText (s : String) : Binary64 :=
  ((ofChars? (Text.trimChars s.toList)).getD (zero false)).finitePart

/-- A text always gives a finite number. -/
theorem isFinite_ofText (s : String) :
  (ofText s).isFinite = true
  := isFinite_finitePart _

end Tariff.Binary64
