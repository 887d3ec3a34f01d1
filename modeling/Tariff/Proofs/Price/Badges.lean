import Tariff.Price.Model
import Tariff.Proofs.RoundedTexts
import Tariff.Proofs.TrimmedTexts

/-!
# Price badges

The digits of a price are a numeral of up to six places, without zeros in front of other digits or at
the end.  A badge shows the same number in dollars for a unit, with zeros up to the second place.
Neither has room for an exponent or for the name of what is no number.
-/

namespace Tariff

namespace FixedNumeral

/-- No zero stands in front of other digits of the integer part. -/
def NoLeadingZeros (n : FixedNumeral) : Prop :=
  ∀ c cs, n.whole ≠ '0' :: c :: cs

/-- There are two places or more, and the last of more than two is not zero. -/
def ShowsCents (n : FixedNumeral) : Prop :=
  ∃ ds, n.fraction = some ds ∧ 2 ≤ ds.length ∧ (2 < ds.length → ds.getLast? ≠ some '0')

/-- The places of a numeral, with zeros up to the second. -/
def centPlaces (n : FixedNumeral) : List Char :=
  n.places ++ List.replicate (2 - n.places.length) '0'

/-- The numeral with zeros up to the second place. -/
def withCents (n : FixedNumeral) : FixedNumeral where
  negative := n.negative
  whole := n.whole
  fraction := some n.centPlaces
  whole_digits := n.whole_digits
  fraction_digits := by
    rintro ds ⟨⟩ c c_mem
    rcases List.mem_append.mp c_mem with place | zero
    · apply isDigit_of_mem_places place
    · rw [List.eq_of_mem_replicate zero]
      rfl

variable (n : FixedNumeral)

/-! ### Filling up -/

/-- A numeral is its integer part with the sign, and the point with the places. -/
theorem chars_eq_append :
  n.chars = Text.signed n.negative n.whole ++ fractionChars n.fraction
  := by
  rw [chars]
  cases n.negative <;> rfl

/-- There is no point in front of the places. -/
theorem ne_point_of_mem_front {c : Char} (c_mem : c ∈ Text.signed n.negative n.whole) :
  c ≠ '.'
  := by
  rintro rfl
  have in_whole : '.' ∈ n.whole := by
    cases negative : n.negative with
    | true => simpa [negative, Text.signed] using c_mem
    | false => simpa [negative, Text.signed] using c_mem
  cases n.whole_digits.isDigit '.' in_whole

/-- The text behind the first point is told from the places. -/
theorem dropWhile_ne_point :
  n.chars.dropWhile (· ≠ '.') = fractionChars n.fraction
  := by
  rw [chars_eq_append, List.dropWhile_append_of_pos]
  · cases n.fraction with
    | none => rfl
    | some ds => rfl
  · intro c c_mem
    apply decide_eq_true (n.ne_point_of_mem_front c_mem)

/-- Digits take one byte each. -/
theorem utf8ByteSize_of_digits {ds : List Char} (digits : ∀ c ∈ ds, c.isDigit = true) :
  (String.ofList ds).utf8ByteSize = ds.length
  := by
  induction ds with
  | nil => rfl
  | cons c ds ih =>
    obtain ⟨digit, others⟩ := List.forall_mem_cons.mp digits
    have one : c.utf8Size = 1 := by
      apply Char.utf8Size_eq_one_iff.mpr
      rw [UInt32.le_iff_toNat_le]
      apply (Char.isDigit_iff_toNat.mp digit).2.trans (by decide)
    rw [← List.singleton_append, String.ofList_append, String.utf8ByteSize_append, ih others,
      ← String.singleton_eq_ofList, String.utf8ByteSize_singleton, one, List.length_append,
      List.length_singleton]

/-- The text of a numeral is filled up to that of the numeral with two places or more. -/
theorem fillCents_text :
  fillCents n.text = n.withCents.text
  := by
  have filled_eq : n.withCents.text =
      String.ofList (Text.signed n.negative n.whole ++ '.' :: n.centPlaces) := by
    rw [text, chars_eq_append]
    rfl
  unfold fillCents
  rw [filled_eq, toList_text, dropWhile_ne_point, text, chars_eq_append, centPlaces, places]
  cases fraction_eq : n.fraction with
  | none =>
    have cents : (".00" : String) = String.ofList ['.', '0', '0'] := rfl
    dsimp only [fractionChars]
    rw [cents, ← String.ofList_append, List.append_nil]
    rfl
  | some ds =>
    dsimp only [fractionChars]
    rw [← String.ofList_append, utf8ByteSize_of_digits (n.fraction_digits ds fraction_eq),
      List.append_assoc]
    rfl

/-- Zeros behind the places do not change the number. -/
theorem value_withCents :
  n.withCents.value = n.value
  := by
  have places_eq : n.withCents.places = n.places ++ List.replicate (2 - n.places.length) '0' := rfl
  have whole_eq : n.withCents.whole = n.whole := rfl
  rw [value, value, places_eq, whole_eq]
  apply Decimal.scaled_eq_of_mul_eq
  rw [← List.append_assoc, Text.numeralValue_append_zeros, List.length_append, List.length_replicate,
    pow10_add]
  ring

/-- A numeral from which no zero can be cut is filled up to one with two places or more. -/
theorem showsCents_withCents (trimmed : n.IsTrimmed) :
  n.withCents.ShowsCents
  := by
  have length_eq : n.centPlaces.length = n.places.length + (2 - n.places.length) := by
    rw [centPlaces, List.length_append, List.length_replicate]
  use n.centPlaces, rfl
  constructor
  · omega
  · intro many
    have enough : 2 - n.places.length = 0 := by omega
    rw [centPlaces, enough, List.replicate_zero, List.append_nil, places]
    cases fraction_eq : n.fraction with
    | none => simp
    | some ds =>
      obtain ⟨c, last_eq, c_ne⟩ := trimmed ds fraction_eq
      rw [Option.getD_some, last_eq]
      simpa using c_ne

/-- Filling up to two places leaves no more places than there were, or two. -/
theorem length_places_withCents :
  n.withCents.places.length = max n.places.length 2
  := by
  have places_eq : n.withCents.places = n.places ++ List.replicate (2 - n.places.length) '0' := rfl
  rw [places_eq, List.length_append, List.length_replicate]
  omega

/-! ### Cutting -/

/-- Cutting zeros leaves no more places than there were. -/
theorem length_places_trimmed_le :
  n.trimmed.places.length ≤ n.places.length
  := by
  rw [places_trimmed]
  apply (List.rdropWhile_prefix _ _).length_le

/-- What is left when zeros are cut is not minus zero. -/
theorem trimmed_text_ne :
  n.trimmed.text ≠ "-0"
  := by
  intro text_eq
  have chars_eq : n.trimmed.chars = ['-', '0'] := String.ofList_injective text_eq
  rw [chars_eq_append] at chars_eq
  cases negative : n.trimmed.negative with
  | false =>
    rw [negative, Text.signed, if_neg Bool.false_ne_true] at chars_eq
    obtain ⟨c, cs, whole_eq⟩ := List.exists_cons_of_ne_nil n.trimmed.whole_digits.ne_nil
    rw [whole_eq, List.cons_append] at chars_eq
    obtain ⟨rfl, -⟩ := List.cons.inj chars_eq
    exact n.trimmed.whole_ne_minus cs whole_eq
  | true =>
    rw [negative, Text.signed, if_pos rfl, List.cons_append] at chars_eq
    obtain ⟨-, rest_eq⟩ := List.cons.inj chars_eq
    -- Nothing but the zero is left of the integer part, which then has no sign.
    have whole_eq : n.whole = ['0'] := by
      obtain ⟨c, cs, whole_eq⟩ := List.exists_cons_of_ne_nil n.whole_digits.ne_nil
      have same : n.trimmed.whole = n.whole := rfl
      rw [same, whole_eq, List.cons_append] at rest_eq
      obtain ⟨rfl, others⟩ := List.cons.inj rest_eq
      rw [whole_eq, (List.append_eq_nil_iff.mp others).1]
    have unsigned : n.trimmed.negative = false := by
      simp [trimmed, whole_eq]
    rw [unsigned] at negative
    cases negative

end FixedNumeral

/-! ### Badges -/

namespace ModelPrice

/-- The value of a price is finite. -/
theorem isFinite_value (price : ModelPrice) :
  price.value.isFinite = true
  := by
  apply Binary64.isFinite_finitePart

/-- The digits of a price are those of a numeral of six places without the zeros at its end. -/
theorem exists_ofScaled_of_digits? {price : ModelPrice} {s : String}
    (shown : price.digits? = some s) :
  ∃ negative coefficient, s = (FixedNumeral.ofScaled negative coefficient places).trimmed.text ∧
    Decimal.scaled negative coefficient places = roundAway places price.value.toRat
  := by
  obtain ⟨fixed, fixed_eq, rfl⟩ := Option.map_eq_some_iff.mp shown
  obtain ⟨negative, coefficient, rfl, rounds⟩ := exists_roundsTo_of_fixedText? fixed_eq
  rw [Binary64.finitePart_of_isFinite price.isFinite_value] at rounds
  use negative, coefficient
  constructor
  · apply FixedNumeral.trimZeros_text
  · apply rounds.rounded (Nat.le_refl 6)

/-- The digits of a price are a numeral without superfluous zeros, of the price rounded to six places
as far as its size goes.  Its badge shows the same number in dollars for a unit of the basis, with two
to six places. -/
theorem badge?_of_digits? {price : ModelPrice} {s : String} (shown : price.digits? = some s) :
  ∃ n m : FixedNumeral,
    (s = n.text ∧ s ≠ "-0" ∧ n.NoLeadingZeros ∧ n.IsTrimmed ∧ n.places.length ≤ 6 ∧
      |n.value| = |roundAway 6 price.value.toRat|) ∧
    (price.badge? = some ("$" ++ m.text ++ if price.basis = .tokens then "/M" else "/Request") ∧
      m.value = n.value ∧ m.negative = n.negative ∧ m.whole = n.whole ∧ m.ShowsCents ∧
      m.places.length ≤ 6)
  := by
  obtain ⟨negative, coefficient, rfl, rounded⟩ := exists_ofScaled_of_digits? shown
  let numeral := FixedNumeral.ofScaled negative coefficient places
  have few : numeral.trimmed.places.length ≤ 6 := by
    apply numeral.length_places_trimmed_le.trans
    rw [FixedNumeral.length_places_ofScaled, places]
  use numeral.trimmed, numeral.trimmed.withCents
  constructor
  · refine ⟨rfl, numeral.trimmed_text_ne, ?_, numeral.isTrimmed_trimmed, few, ?_⟩
    · apply Json.numeral_ne
    · rw [FixedNumeral.abs_value_trimmed, FixedNumeral.value_ofScaled, rounded, places]
  · refine ⟨?_, numeral.trimmed.value_withCents, rfl, rfl, ?_, ?_⟩
    · rw [badge?, shown, Option.map_some, badge, FixedNumeral.fillCents_text]
      cases price.basis <;> rfl
    · apply FixedNumeral.showsCents_withCents
      apply numeral.isTrimmed_trimmed
    · rw [FixedNumeral.length_places_withCents]
      omega

/-- A price of minus two and a half dollars has one place, which its badge fills up. -/
theorem badge?_of_digits?_minusTwoAndHalf :
  (ofRatios (-1.25) 1).digits? = some "-2.5" ∧ (ofRatios (-1.25) 1).badge? = some "$-2.50/M" ∧
    ∃ n m : FixedNumeral, "-2.5" = n.text ∧ |n.value| = 5 / 2 ∧
      "$-2.50/M" = "$" ++ m.text ++ "/M" ∧ m.value = n.value
  := by
  have shown : (ofRatios (-1.25) 1).digits? = some "-2.5" := by decide +kernel
  have badge_eq : (ofRatios (-1.25) 1).badge? = some "$-2.50/M" := by decide +kernel
  have size_eq : |roundAway 6 (ofRatios (-1.25) 1).value.toRat| = 5 / 2 := by decide +kernel
  obtain ⟨n, m, ⟨n_text, -, -, -, -, n_value⟩, m_badge, same, -⟩ := badge?_of_digits? shown
  use shown, badge_eq, n, m, n_text, n_value.trans size_eq
  constructor
  · apply Option.some.inj (badge_eq.symm.trans m_badge)
  · exact same

end ModelPrice

end Tariff
