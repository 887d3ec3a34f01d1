import Tariff.Proofs.Decimal.Texts
import Tariff.Proofs.Json.RereadNumbers

/-!
# Decimals in JSON

The digits of a decimal without a sign are a JSON numeral.  They are always read as a number: as an
integer if there are no places and the coefficient has 64 bits, and else as a finite number.
-/

namespace Tariff

namespace Json

/-- What a number in range is read back as. -/
def Number.reread : Number → Number
  | .integer n => .integer n
  | .real x => .real (rereadReal x)

/-- Numbers in range are read back. -/
theorem rereadAs_number {n : Number} (inRange : n.InRange) :
  RereadAs (.number n) (.number n.reread)
  := by
  cases n with
  | integer n => exact rereadAs_integer inRange
  | real x => exact rereadAs_real inRange

/-- No more integer digits are dropped than there are. -/
theorem takeWhole_dropped_le (significand : Nat) (digits : List Char) :
  (takeWhole significand digits).2 ≤ digits.length
  := by
  induction digits generalizing significand with
  | nil => exact Nat.le_refl 0
  | cons c digits ih =>
    rw [takeWhole, List.length_cons]
    split
    case isTrue => exact (ih _).trans (Nat.le_succ _)
    case isFalse => exact Nat.le_refl _

/-- Integer digits none of which are dropped are all taken in. -/
theorem takeWhole_of_none_dropped {significand : Nat} {digits : List Char}
    (none_dropped : (takeWhole significand digits).2 = 0) :
  (takeWhole significand digits).1 = Nat.ofDigitChars 10 digits significand
  := by
  induction digits generalizing significand with
  | nil => rfl
  | cons c digits ih =>
    rw [takeWhole] at none_dropped ⊢
    split
    case isTrue fits =>
      rw [if_pos fits] at none_dropped
      rw [Nat.ofDigitChars_cons]
      apply ih none_dropped
    case isFalse dropped =>
      rw [if_neg dropped] at none_dropped
      cases none_dropped

/-- A significand of 64 bits with a small exponent is in range. -/
theorem isSome_scaled? {significand : Nat} {exponent : Int} (lt : significand < pow2 64)
    (small : exponent ≤ 29) :
  (scaled? (Binary64.ofInt significand) exponent).isSome = true
  := by
  have short : significand ≤ pow10 20 := lt.le.trans (by decide)
  have finite : (Binary64.ofInt significand * powerOfTen exponent.natAbs).isFinite = true ∨
      exponent < 0 := by
    rcases Int.lt_or_le exponent 0 with negative | nonneg
    · exact .inr negative
    · exact .inl (isFinite_product (mul_pow10_le_decimalLimit short (by omega)) (by omega))
  unfold scaled?
  split
  case isTrue => rfl
  case isFalse nonneg =>
    rw [if_neg (by omega)]
    dsimp only
    rw [if_pos (finite.resolve_right nonneg)]
    rfl

/-- A power of ten divided by itself is one. -/
theorem scaled?_one {n : Nat} (pos : 0 < n) (small : n < 309) :
  scaled? (Binary64.ofInt (pow10 n)) (-(n : Int)) = some 1
  := by
  obtain ⟨finite, one_le⟩ := powerOfTen_bounds small
  have negative : -(n : Int) < 0 := by omega
  rw [scaled?, if_pos negative, Int.natAbs_neg, Int.natAbs_natCast, divideByPower,
    if_pos (by omega), ← powerOfTen_eq small, Binary64.div_self finite ((pow2_pos 1074).trans_le one_le)]

/-- The digits of one are taken in up to the 19th place. -/
theorem takeFraction_one {places : Nat} (le : places ≤ 28) (pos : places ≠ 0) :
  takeFraction 1 (Text.padLeft places (Text.numeral 0)) = (pow10 (min places 19), min places 19)
  := by
  have all : ∀ n ≤ 28, n ≠ 0 →
      takeFraction 1 (Text.padLeft n (Text.numeral 0)) = (pow10 (min n 19), min n 19) := by
    decide
  exact all places le pos

/-- The digits of one with places denote the number one. -/
theorem Numeral.value?_one {places : Nat} (le : places ≤ 28) (pos : places ≠ 0) :
  Numeral.value? false ⟨Text.numeral 1, some (Text.padLeft places (Text.numeral 0)), none⟩ =
    some (.real 1)
  := by
  have whole_eq : takeWhole 0 (Text.numeral 1) = (1, 0) := by decide
  have exponent_eq : ((0 : Nat) : Int) - (min places 19 : Nat) + 0 = -(min places 19 : Nat) := by omega
  unfold Numeral.value?
  dsimp only
  rw [whole_eq, if_neg (by simp), Option.getD_some, takeFraction_one le pos]
  dsimp only
  rw [Option.getD_none, exponent_eq, scaled?_one (by omega) (by omega), Option.map_some,
    withSign_false]

/-- The numeral of a number with places. -/
def Numeral.ofPlaces (coefficient places : Nat) : Numeral where
  whole := Text.numeral (coefficient / pow10 places)
  fraction :=
    if places = 0 then none
    else some (Text.padLeft places (Text.numeral (coefficient % pow10 places)))
  exponent := none

end Json

namespace Decimal

open Json

/-- The numeral that the digits of a decimal are. -/
def numeral (d : Decimal) : Json.Numeral :=
  .ofPlaces d.coefficient d.scale

/-- The digits of a decimal are written as its numeral. -/
theorem exists_unsignedChars (d : Decimal) :
  ∃ w : WrittenNumeral, d.unsignedChars = w.chars ∧ w.numeral = d.numeral
  := by
  rw [unsignedChars, Text.fixedPoint, numeral, Numeral.ofPlaces]
  by_cases no_places : d.scale = 0
  · rw [if_pos no_places, if_pos no_places]
    refine ⟨.ofNat (d.coefficient / pow10 d.scale) none (by simp), ?_, rfl⟩
    simp [WrittenNumeral.chars, WrittenNumeral.ofNat, WrittenNumeral.fractionChars,
      WrittenNumeral.exponentChars]
  · rw [if_neg no_places, if_neg no_places]
    refine ⟨.ofNat (d.coefficient / pow10 d.scale) (some _) ?_, ?_, rfl⟩
    · intro ds ds_mem
      cases ds_mem
      exact isDigits_padLeft _ _
    · simp [WrittenNumeral.chars, WrittenNumeral.ofNat, WrittenNumeral.fractionChars,
        WrittenNumeral.exponentChars]

/-- The number that the digits of a decimal are read as. -/
def number (d : Decimal) : Json.Number :=
  (d.numeral.value? false).getD (.integer 0)

/-- The digits of a decimal are always read as a number. -/
theorem value?_numeral (d : Decimal) :
  d.numeral.value? false = some d.number
  := by
  have whole_lt := takeWhole_lt d.numeral.whole (pow2_pos 64)
  have dropped_le := takeWhole_dropped_le 0 d.numeral.whole
  have whole_length : d.numeral.whole.length ≤ 29 := by
    apply (Nat.length_toDigits_le_iff (by decide) (by decide)).mpr
    have room : pow2 96 < 10 ^ 29 := by decide
    exact ((Nat.div_le_self _ _).trans_lt d.coefficient_lt).trans room
  have isSome : (d.numeral.value? false).isSome = true := by
    unfold Numeral.value?
    dsimp only
    split
    case isTrue => rfl
    case isFalse =>
      rw [Option.isSome_map]
      apply isSome_scaled? (takeFraction_lt _ whole_lt)
      have no_exponent : d.numeral.exponent.getD 0 = 0 := rfl
      omega
  obtain ⟨n, value_eq⟩ := Option.isSome_iff_exists.mp isSome
  rw [number, value_eq, Option.getD_some]

/-- The number that the digits of a decimal are read as is in range. -/
theorem inRange_number (d : Decimal) :
  d.number.InRange
  := Numeral.inRange_of_value? d.value?_numeral

/-- Without places the integer digits are those of the coefficient. -/
theorem whole_numeral {d : Decimal} (no_places : d.scale = 0) :
  d.numeral.whole = Text.numeral d.coefficient
  := by
  have one : pow10 0 = 1 := rfl
  rw [numeral, Numeral.ofPlaces, no_places, one, Nat.div_one]

/-- The digits of a decimal without places are read as its coefficient if that has 64 bits. -/
theorem number_of_integer {d : Decimal} (no_places : d.scale = 0) (short : d.coefficient < pow2 64) :
  d.number = .integer d.coefficient
  := by
  have fits : Nat.ofDigitChars 10 (Text.numeral d.coefficient) 0 < pow2 64 := by
    have value_eq := Text.numeralValue_numeral d.coefficient
    rw [Text.numeralValue] at value_eq
    rwa [value_eq]
  have taken := takeWhole_eq fits
  rw [← Text.numeralValue, Text.numeralValue_numeral] at taken
  have no_fraction : d.numeral.fraction.isNone = true := by
    rw [numeral, Numeral.ofPlaces, if_pos no_places]
    rfl
  have value_eq : d.numeral.value? false = some (.integer d.coefficient) := by
    unfold Numeral.value?
    rw [whole_numeral no_places, taken]
    dsimp only
    rw [if_pos ⟨no_fraction, rfl, rfl⟩]
    rfl
  rw [number, value_eq, Option.getD_some]

/-- The digits of any other decimal are read as a finite number. -/
theorem exists_number_eq_real {d : Decimal} (no_integer : ¬ (d.scale = 0 ∧ d.coefficient < pow2 64)) :
  ∃ x : Binary64, d.number = .real x ∧ x.isFinite = true
  := by
  have inRange := d.inRange_number
  have value_eq := d.value?_numeral
  unfold Numeral.value? at value_eq
  dsimp only at value_eq
  split at value_eq
  case isTrue whole =>
    obtain ⟨no_fraction, -, none_dropped⟩ := whole
    have no_places : d.scale = 0 := by
      by_contra places
      rw [numeral, Numeral.ofPlaces, if_neg places] at no_fraction
      cases no_fraction
    have taken_lt := takeWhole_lt d.numeral.whole (pow2_pos 64)
    rw [takeWhole_of_none_dropped none_dropped, whole_numeral no_places, ← Text.numeralValue,
      Text.numeralValue_numeral] at taken_lt
    exact absurd ⟨no_places, taken_lt⟩ no_integer
  case isFalse =>
    obtain ⟨x, -, number_eq⟩ := Option.map_eq_some_iff.mp value_eq
    rw [← number_eq] at inRange
    exact ⟨_, number_eq.symm, inRange⟩

/-- A decimal without a sign that has the value one is a power of ten. -/
theorem coefficient_of_one {d : Decimal} (unsigned : d.negative = false)
    (one : compare Decimal.one d = .eq) :
  d.coefficient = pow10 d.scale
  := by
  rw [compare_def, Std.LawfulEqCmp.compare_eq_iff_eq, widened, widened, signedCoefficient,
    signedCoefficient, unsigned] at one
  have same : (1 : Int) * pow10 d.scale = d.coefficient * (1 : Nat) := one
  omega

/-- The digits of one are read as the number one, however many places they show. -/
theorem number_of_one {d : Decimal} (unsigned : d.negative = false)
    (one : compare Decimal.one d = .eq) (places : d.scale ≠ 0) :
  d.number = .real 1
  := by
  have whole_eq : pow10 d.scale / pow10 d.scale = 1 := Nat.div_self (pow10_pos _)
  have fraction_eq : pow10 d.scale % pow10 d.scale = 0 := Nat.mod_self _
  rw [number, numeral, coefficient_of_one unsigned one, Numeral.ofPlaces, whole_eq, fraction_eq,
    if_neg places, Numeral.value?_one d.scale_le places, Option.getD_some]

/-- The digits of a decimal without a sign are the text of a JSON number. -/
theorem ofText_toText {d : Decimal} (unsigned : d.negative = false) :
  Json.ofText d.toText = .ok (.number d.number)
  := by
  obtain ⟨w, chars_eq, numeral_eq⟩ := exists_unsignedChars d
  have no_more : EndsNumeral [] := by simp [EndsNumeral]
  have read : Reader.value nestingLimit (Text.signed false w.chars ++ []) = _ :=
    Reader.value_written false w no_more
  rw [numeral_eq, value?_numeral, List.append_nil] at read
  refine Reader.run_eq_ok.mpr ⟨[], ?_, rfl⟩
  rw [toText, String.toList_ofList, unsigned, chars_eq, read]
  rfl

end Decimal

end Tariff
