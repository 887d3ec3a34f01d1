import Tariff.Proofs.Decimal.ScaledNumbers
import Tariff.Proofs.Json.WrittenNumerals

/-!
# Numerals in fixed-point form

A minus sign or none, digits, and perhaps a point with digits or nothing behind it: such a text
denotes a number, whatever zeros it starts or ends with.  A number with a sign and places is written
as one that denotes it and has just these places.
-/

namespace Tariff

/-- A numeral in fixed-point form. -/
@[ext]
structure FixedNumeral where
  negative : Bool
  whole : List Char
  /-- What is behind the point, if there is one. -/
  fraction : Option (List Char)
  whole_digits : Json.IsDigits whole
  fraction_digits : ∀ ds ∈ fraction, ∀ c ∈ ds, c.isDigit = true

namespace FixedNumeral

/-- The point and what is behind it. -/
def fractionChars : Option (List Char) → List Char
  | none => []
  | some ds => '.' :: ds

/-- The characters of a numeral. -/
def chars (n : FixedNumeral) : List Char :=
  Text.signed n.negative (n.whole ++ fractionChars n.fraction)

/-- The text of a numeral. -/
def text (n : FixedNumeral) : String :=
  String.ofList n.chars

/-- The text of a numeral has its characters. -/
@[simp]
theorem toList_text (n : FixedNumeral) :
  n.text.toList = n.chars
  := String.toList_ofList

/-- The digits behind the point. -/
def places (n : FixedNumeral) : List Char :=
  n.fraction.getD []

/-- The number that a numeral denotes: that of all digits, divided by ten for each place. -/
def value (n : FixedNumeral) : ℚ :=
  Decimal.scaled n.negative (Text.numeralValue (n.whole ++ n.places)) n.places.length

/-! ### Numbers with a sign and places -/

/-- The numeral of a number with a sign and places. -/
def ofScaled (negative : Bool) (coefficient places : Nat) : FixedNumeral where
  negative := negative
  whole := Text.numeral (coefficient / pow10 places)
  fraction :=
    if places = 0 then none
    else some (Text.padLeft places (Text.numeral (coefficient % pow10 places)))
  whole_digits := Json.isDigits_numeral _
  fraction_digits := by
    intro ds ds_mem
    split at ds_mem
    case isTrue => cases ds_mem
    case isFalse =>
      cases ds_mem
      exact (Json.isDigits_padLeft _ _).isDigit

variable (negative : Bool) (coefficient places : Nat)

/-- A number with a sign and places is written as its numeral. -/
theorem chars_ofScaled :
  (ofScaled negative coefficient places).chars =
    Text.signed negative (Text.fixedPoint coefficient places)
  := by
  rw [chars, ofScaled, Text.fixedPoint]
  split <;> rfl

/-- The numeral of a number has the places of the number, and no point without any. -/
theorem length_fraction_ofScaled :
  (ofScaled negative coefficient places).fraction.map List.length =
    if places = 0 then none else some places
  := by
  rw [ofScaled]
  dsimp only
  split
  case isTrue => rfl
  case isFalse some_places =>
    rw [Option.map_some, Text.length_padLeft_numeral coefficient (Nat.pos_of_ne_zero some_places)]

/-- The numeral of a number has as many digits behind the point as the number has places. -/
theorem length_places_ofScaled :
  (ofScaled negative coefficient places).places.length = places
  := by
  have length_eq (n : FixedNumeral) : n.places.length = (n.fraction.map List.length).getD 0 := by
    rw [FixedNumeral.places]
    cases n.fraction <;> rfl
  rw [length_eq, length_fraction_ofScaled]
  split
  case isTrue none => rw [none, Option.getD_none]
  case isFalse => rw [Option.getD_some]

/-- The numeral of a number denotes it. -/
theorem value_ofScaled :
  (ofScaled negative coefficient places).value = Decimal.scaled negative coefficient places
  := by
  rw [value, FixedNumeral.places, ofScaled]
  dsimp only
  rcases Nat.eq_zero_or_pos places with rfl | pos
  · have one : pow10 0 = 1 := rfl
    rw [if_pos rfl, Option.getD_none, List.append_nil, Text.numeralValue_numeral, one, Nat.div_one]
    rfl
  · rw [if_neg pos.ne', Option.getD_some, Text.numeralValue_append,
      Text.length_padLeft_numeral coefficient pos, Text.numeralValue_padLeft,
      Text.numeralValue_numeral, Text.numeralValue_numeral, Nat.div_add_mod']

end FixedNumeral

end Tariff
