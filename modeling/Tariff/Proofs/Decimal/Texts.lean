import Mathlib.Tactic.Ring
import Tariff.Decimal.Order
import Tariff.Decimal.Reading
import Tariff.Proofs.Json.WrittenNumerals

/-!
# Decimals in digits

A decimal is read from its own digits, whatever its coefficient and scale are, as all of them fit;
only the sign of a zero is lost.  Of the decimals of one value one is normal, so that normal
decimals of different values have different digits.
-/

namespace Tariff.Decimal

/-! ### Reading digits -/

/-- Digits behind the point are all taken in if the decimal that they make fits. -/
theorem takePlaces?_digits {negative short : Bool} {coefficient scale : Nat}
    {coefficient_lt : coefficient < pow2 96} {scale_le : scale ≤ 28} {ds : List Char} {d : Decimal}
    (digits : ∀ c ∈ ds, c.isDigit = true)
    (coefficient_eq : d.coefficient = coefficient * pow10 ds.length + Text.numeralValue ds)
    (scale_eq : d.scale = scale + ds.length)
    (negative_eq : d.negative = (negative && decide (d.coefficient ≠ 0))) :
  takePlaces? negative short coefficient scale coefficient_lt scale_le ds = some d
  := by
  induction ds generalizing short coefficient scale with
  | nil =>
    obtain ⟨negative', coefficient', scale', lt, le⟩ := d
    obtain rfl : coefficient' = coefficient := coefficient_eq.trans (Nat.mul_one coefficient)
    obtain rfl : scale' = scale := scale_eq
    obtain rfl : negative' = (negative && decide (coefficient' ≠ 0)) := negative_eq
    rfl
  | cons c cs ih =>
    have digit := digits c List.mem_cons_self
    have no_underscore : c ≠ '_' := by
      rintro rfl
      cases digit
    have value_eq : (10 * coefficient + (c.toNat - '0'.toNat)) * pow10 cs.length +
        Text.numeralValue cs = d.coefficient := by
      have first : Text.numeralValue [c] = c.toNat - '0'.toNat := by
        simp [Text.numeralValue, Nat.ofDigitChars]
      rw [coefficient_eq, ← List.singleton_append, Text.numeralValue_append, first,
        List.length_append, List.length_singleton, pow10_add]
      have ten : pow10 1 = 10 := rfl
      rw [ten]
      ring
    have fits : 10 * coefficient + (c.toNat - '0'.toNat) < pow2 96 := by
      apply Nat.lt_of_le_of_lt _ d.coefficient_lt
      rw [← value_eq]
      exact (Nat.le_mul_of_pos_right _ (pow10_pos _)).trans (Nat.le_add_right _ _)
    have places : scale + 1 ≤ 28 := by
      have le := d.scale_le
      rw [scale_eq, List.length_cons] at le
      omega
    rw [takePlaces?, if_neg (by simp [no_underscore]), dif_pos ⟨no_underscore, fits, places⟩]
    apply ih
    · exact fun c' c'_mem => digits c' (List.mem_cons_of_mem _ c'_mem)
    · exact value_eq.symm
    · rw [scale_eq, List.length_cons]
      omega

/-- A decimal is written as the digits before its point and those of its places. -/
theorem exists_places (d : Decimal) :
  ∃ places : List Char, (∀ c ∈ places, c.isDigit = true) ∧ places.length = d.scale ∧
    Text.numeralValue places = d.coefficient % pow10 d.scale ∧
    d.unsignedChars = Text.numeral (d.coefficient / pow10 d.scale) ++
      if places = [] then [] else '.' :: places
  := by
  rw [unsignedChars, Text.fixedPoint]
  cases scale_eq : d.scale with
  | zero => exact ⟨[], by simp, rfl, (Nat.mod_one _).symm, by simp⟩
  | succ scale =>
    have digits := Json.isDigits_padLeft (scale + 1) (d.coefficient % pow10 (scale + 1))
    refine ⟨_, digits.isDigit, ?_, ?_, ?_⟩
    · exact Text.length_padLeft_numeral _ (Nat.succ_pos scale)
    · rw [Text.numeralValue_padLeft, Text.numeralValue_numeral]
    · rw [if_neg (Nat.succ_ne_zero scale), if_neg digits.ne_nil]

/-- Digits with or without places are read as the decimal that they make. -/
theorem unsignedPlain?_places {whole places : List Char} {d : Decimal} {negative : Bool}
    (whole_digits : Json.IsDigits whole) (places_digits : ∀ c ∈ places, c.isDigit = true)
    (value_eq : d.coefficient = Text.numeralValue (whole ++ places))
    (scale_eq : d.scale = places.length)
    (negative_eq : d.negative = (negative && decide (d.coefficient ≠ 0))) :
  unsignedPlain? negative (whole ++ if places = [] then [] else '.' :: places) = some d
  := by
  have no_point : ∀ c ∈ whole, decide (c ≠ '.') = true := by
    intro c c_mem
    have digit := whole_digits.isDigit c c_mem
    apply decide_eq_true
    rintro rfl
    cases digit
  have whole_eq : (whole ++ if places = [] then [] else '.' :: places).takeWhile (· ≠ '.') =
      whole := by
    rw [List.takeWhile_append_of_pos no_point]
    split <;> simp
  have fraction_eq : ((whole ++ if places = [] then [] else '.' :: places).dropWhile
      (· ≠ '.')).drop 1 = places := by
    rw [List.dropWhile_append_of_pos no_point]
    split <;> simp_all
  have digit_run {ds : List Char} (digits : ∀ c ∈ ds, c.isDigit = true) : isDigitRun ds = true := by
    apply List.all_eq_true.mpr
    intro c c_mem
    rw [digits c c_mem, Bool.true_or]
  have starts : (((whole ++ places).head?.map Char.isDigit).getD false) = true := by
    cases front : whole with
    | nil => exact absurd front whole_digits.ne_nil
    | cons c cs => exact whole_digits.isDigit c (front ▸ List.mem_cons_self)
  rw [Text.numeralValue_append] at value_eq
  have fits : Text.numeralValue (whole.filter Char.isDigit) < pow2 96 := by
    rw [List.filter_eq_self.mpr whole_digits.isDigit]
    apply Nat.lt_of_le_of_lt _ d.coefficient_lt
    rw [value_eq]
    exact (Nat.le_mul_of_pos_right _ (pow10_pos _)).trans (Nat.le_add_right _ _)
  unfold unsignedPlain?
  rw [whole_eq, fraction_eq]
  dsimp only
  rw [starts, digit_run whole_digits.isDigit, digit_run places_digits, if_pos (by decide),
    dif_pos fits]
  apply takePlaces?_digits places_digits _ _ negative_eq
  · rw [List.filter_eq_self.mpr whole_digits.isDigit, value_eq]
  · rw [scale_eq, Nat.zero_add]

/-- A decimal without its sign is read from its digits. -/
theorem unsignedPlain?_unsignedChars (d : Decimal) {negative : Bool}
    (negative_eq : d.negative = (negative && decide (d.coefficient ≠ 0))) :
  unsignedPlain? negative d.unsignedChars = some d
  := by
  obtain ⟨places, places_digits, length_eq, value_eq, chars_eq⟩ := exists_places d
  have whole_digits := Json.isDigits_numeral (d.coefficient / pow10 d.scale)
  rw [chars_eq]
  apply unsignedPlain?_places whole_digits places_digits _ length_eq.symm negative_eq
  rw [Text.numeralValue_append, Text.numeralValue_numeral, value_eq, length_eq, Nat.div_add_mod']

/-- What starts with a digit is read as digits without a sign. -/
theorem ofPlain?_of_isDigit {c : Char} (digit : c.isDigit = true) (cs : List Char) :
  ofPlain? (c :: cs) = unsignedPlain? false (c :: cs)
  := by
  unfold ofPlain?
  split
  case h_1 minus =>
    obtain ⟨rfl, -⟩ := List.cons.inj minus
    cases digit
  case h_2 plus =>
    obtain ⟨rfl, -⟩ := List.cons.inj plus
    cases digit
  case h_3 => rfl

/-- Digits in front decide that there is no sign. -/
theorem ofPlain?_append {whole rest : List Char} (whole_digits : Json.IsDigits whole) :
  ofPlain? (whole ++ rest) = unsignedPlain? false (whole ++ rest)
  := by
  obtain ⟨c, cs, rfl⟩ := List.exists_cons_of_ne_nil whole_digits.ne_nil
  apply ofPlain?_of_isDigit (whole_digits.isDigit c List.mem_cons_self)

/-- Digits with or without places are digits and points. -/
theorem isDigit_or_point {whole places : List Char} (whole_digits : ∀ c ∈ whole, c.isDigit = true)
    (places_digits : ∀ c ∈ places, c.isDigit = true) :
  ∀ c ∈ whole ++ if places = [] then [] else '.' :: places, c.isDigit = true ∨ c = '.'
  := by
  intro c c_mem
  rcases List.mem_append.mp c_mem with c_mem | c_mem
  · exact .inl (whole_digits c c_mem)
  · split at c_mem
    case isTrue => cases c_mem
    case isFalse =>
      rcases List.mem_cons.mp c_mem with rfl | c_mem
      · exact .inr rfl
      · exact .inl (places_digits c c_mem)

/-- A decimal is written in digits and points, and first with a digit. -/
theorem unsignedChars_cases (d : Decimal) :
  (∃ c cs, d.unsignedChars = c :: cs ∧ c.isDigit = true) ∧
    ∀ c ∈ d.unsignedChars, c.isDigit = true ∨ c = '.'
  := by
  obtain ⟨places, places_digits, -, -, chars_eq⟩ := exists_places d
  have whole_digits := Json.isDigits_numeral (d.coefficient / pow10 d.scale)
  rw [chars_eq]
  constructor
  · cases front : Text.numeral (d.coefficient / pow10 d.scale) with
    | nil => exact absurd front whole_digits.ne_nil
    | cons c cs => exact ⟨c, _, rfl, whole_digits.isDigit c (front ▸ List.mem_cons_self)⟩
  · apply isDigit_or_point whole_digits.isDigit places_digits

/-- A decimal other than a zero keeps its sign. -/
theorem unsignZero_eq_self {d : Decimal} (signed : d.negative = true → d.coefficient ≠ 0) :
  d.unsignZero = d
  := by
  obtain ⟨negative, coefficient, scale, lt, le⟩ := d
  cases negative with
  | true => simp [unsignZero, isZero, show coefficient ≠ 0 from signed rfl]
  | false => rfl

/-- A decimal is read from its digits and its sign; a zero loses its sign. -/
theorem ofChars?_signed_unsignZero (d : Decimal) :
  ofChars? (Text.signed d.negative d.unsignedChars) = some d.unsignZero
  := by
  obtain ⟨⟨c, cs, front, digit⟩, -⟩ := unsignedChars_cases d
  have negative_eq : d.unsignZero.negative =
      (d.negative && decide (d.unsignZero.coefficient ≠ 0)) := by
    rw [unsignZero, isZero, ← decide_not]
  -- Without its sign a zero has the same digits.
  have unsigned : unsignedPlain? d.negative d.unsignedChars = some d.unsignZero :=
    unsignedPlain?_unsignedChars d.unsignZero negative_eq
  have plain : ofPlain? (Text.signed d.negative d.unsignedChars) = some d.unsignZero := by
    cases sign_eq : d.negative with
    | true =>
      rw [sign_eq] at unsigned
      exact unsigned
    | false =>
      rw [sign_eq] at unsigned
      rw [Text.signed, if_neg Bool.false_ne_true, front, ofPlain?_of_isDigit digit, ← front, unsigned]
  rw [ofChars?, plain, Option.some_or]

/-- A decimal is read from its digits and its sign, unless it is a zero with a sign. -/
theorem ofChars?_signed {d : Decimal} (signed : d.negative = true → d.coefficient ≠ 0) :
  ofChars? (Text.signed d.negative d.unsignedChars) = some d
  := by
  rw [ofChars?_signed_unsignZero, unsignZero_eq_self signed]

/-- A decimal is read from its text; a zero loses its sign. -/
theorem ofText?_toText (d : Decimal) :
  ofText? d.toText = some d.unsignZero
  := by
  rw [ofText?, toText, String.toList_ofList, ofChars?_signed_unsignZero]

/-- A decimal is read from its text, unless it is a zero with a sign. -/
theorem ofTrimmed?_toText {d : Decimal} (signed : d.negative = true → d.coefficient ≠ 0) :
  ofTrimmed? d.toText = some d
  := by
  obtain ⟨-, numeric⟩ := unsignedChars_cases d
  have no_blank : ∀ c ∈ Text.signed d.negative d.unsignedChars, Text.isBlank c = false := by
    have body : ∀ c ∈ d.unsignedChars, Text.isBlank c = false := by
      intro c c_mem
      rcases numeric c c_mem with digit | rfl
      · exact Text.isBlank_of_isDigit digit
      · decide
    unfold Text.signed
    split
    · exact List.forall_mem_cons.mpr ⟨by decide, body⟩
    · exact body
  rw [ofTrimmed?, toText, String.toList_ofList, Text.trimChars_eq no_blank, ofChars?_signed signed]

/-- Decimals of one text are equal, unless they are zeros with a sign. -/
theorem eq_of_toText {d e : Decimal} (signed_d : d.negative = true → d.coefficient ≠ 0)
    (signed_e : e.negative = true → e.coefficient ≠ 0) (same : d.toText = e.toText) :
  d = e
  := by
  have read := ofTrimmed?_toText signed_d
  rw [same, ofTrimmed?_toText signed_e] at read
  exact (Option.some.inj read).symm

/-! ### Digits with an exponent -/

/-- What is neither digit nor point nor underscore stands in no plain numeral. -/
theorem unsignedPlain?_eq_none {cs : List Char} {c : Char} (negative : Bool) (c_mem : c ∈ cs)
    (c_ne : c ≠ '.') (other : (c.isDigit || c = '_') = false) :
  unsignedPlain? negative cs = none
  := by
  have no_run {ds : List Char} (c_mem : c ∈ ds) : isDigitRun ds = false := by
    apply Bool.eq_false_iff.mpr
    intro run
    rw [List.all_eq_true.mp run c c_mem] at other
    cases other
  rw [← List.takeWhile_append_dropWhile (p := (· ≠ '.')) (l := cs)] at c_mem
  unfold unsignedPlain?
  dsimp only
  rcases List.mem_append.mp c_mem with before | behind
  · rw [no_run before, Bool.and_false, Bool.false_and, if_neg Bool.false_ne_true]
  · -- Behind the digits in front there is a point first.
    have behind_point : c ∈ (cs.dropWhile (· ≠ '.')).drop 1 := by
      cases rest : cs.dropWhile (· ≠ '.') with
      | nil =>
        rw [rest] at behind
        cases behind
      | cons c' rest' =>
        rw [rest] at behind
        have point := List.head?_dropWhile_not (· ≠ '.') cs
        rw [rest] at point
        rcases List.mem_cons.mp behind with rfl | behind
        · simp_all
        · exact behind
    rw [no_run behind_point, Bool.and_false, if_neg Bool.false_ne_true]

/-- Digits are read as the size of an exponent. -/
theorem exponentSize?_digits {ds : List Char} (digits : Json.IsDigits ds)
    (lt : Text.numeralValue ds < pow2 32) :
  exponentSize? ds = some (Text.numeralValue ds)
  := by
  have all : ds.all Char.isDigit = true := List.all_eq_true.mpr digits.isDigit
  unfold exponentSize?
  split
  case h_1 rest plus => exact absurd (digits.isDigit '+' List.mem_cons_self) (by decide)
  case h_2 =>
    dsimp only
    rw [all, List.isEmpty_eq_false_iff.mpr digits.ne_nil, decide_eq_true lt]
    rfl

/-- Digits with a negative exponent are read as the decimal that they make. -/
theorem ofChars?_scientific {whole places ds : List Char} {d : Decimal}
    (whole_digits : Json.IsDigits whole) (places_digits : ∀ c ∈ places, c.isDigit = true)
    (exponent_digits : Json.IsDigits ds) (unsigned : d.negative = false)
    (value_eq : d.coefficient = Text.numeralValue (whole ++ places))
    (scale_eq : d.scale = places.length + Text.numeralValue ds) :
  ofChars? ((whole ++ if places = [] then [] else '.' :: places) ++ 'e' :: '-' :: ds) = some d
  := by
  obtain ⟨negative, coefficient, scale, coefficient_lt, scale_le⟩ := d
  obtain rfl : negative = false := unsigned
  obtain rfl : coefficient = Text.numeralValue (whole ++ places) := value_eq
  obtain rfl : scale = places.length + Text.numeralValue ds := scale_eq
  have base : ofPlain? (whole ++ if places = [] then [] else '.' :: places) =
      some ⟨false, _, places.length, coefficient_lt, by omega⟩ := by
    rw [ofPlain?_append whole_digits]
    apply unsignedPlain?_places whole_digits places_digits rfl rfl rfl
  have size : exponentSize? ds = some (Text.numeralValue ds) := by
    apply exponentSize?_digits exponent_digits
    have room : 28 < pow2 32 := by decide
    omega
  -- With the mark it is no plain numeral, and in front of the mark it is one.
  have not_plain : ofPlain? ((whole ++ if places = [] then [] else '.' :: places) ++
      'e' :: '-' :: ds) = none := by
    rw [List.append_assoc, ofPlain?_append whole_digits]
    apply unsignedPlain?_eq_none false (c := 'e') _ (by decide) (by decide)
    simp
  have no_mark : ∀ c ∈ whole ++ if places = [] then [] else '.' :: places,
      (!(decide (c = 'e') || decide (c = 'E'))) = true := by
    intro c c_mem
    rcases isDigit_or_point whole_digits.isDigit places_digits c c_mem with digit | rfl
    · have c_ne : c ≠ 'e' ∧ c ≠ 'E' := by
        constructor <;> (rintro rfl; cases digit)
      simp [c_ne]
    · decide
  rw [ofChars?, not_plain, Option.none_or, ofScientific?]
  dsimp only
  rw [List.takeWhile_append_of_pos no_mark, List.dropWhile_append_of_pos no_mark]
  have size_le : Text.numeralValue ds ≤ 28 := by omega
  simp [base, size, size_le, scaleDown, scale_le]

/-! ### Normal decimals -/

/-- Where zeros have been stripped none is left. -/
theorem stripZeros_stripZeros (coefficient scale : Nat) :
  let stripped := stripZeros coefficient scale
  stripZeros stripped.1 stripped.2 = stripped
  := by
  induction scale generalizing coefficient with
  | zero => rfl
  | succ scale ih =>
    dsimp only
    by_cases zero : coefficient % 10 = 0
    · rw [stripZeros, if_pos zero]
      exact ih (coefficient / 10)
    · rw [stripZeros, if_neg zero, stripZeros, if_neg zero]

/-- Stripping zeros makes no zero. -/
theorem stripZeros_ne_zero {coefficient : Nat} (scale : Nat) (nonzero : coefficient ≠ 0) :
  (stripZeros coefficient scale).1 ≠ 0
  := by
  intro zero
  have value_eq := stripZeros_value coefficient scale
  rw [zero, Nat.zero_mul] at value_eq
  rcases Nat.mul_eq_zero.mp value_eq.symm with zero | zero
  · exact nonzero zero
  · exact (pow10_pos _).ne' zero

/-- A normal decimal with a sign is no zero. -/
theorem coefficient_ne_zero_of_normalize {d : Decimal} (negative : d.normalize.negative = true) :
  d.normalize.coefficient ≠ 0
  := by
  obtain ⟨-, nonzero⟩ := Bool.and_eq_true_iff.mp negative
  apply stripZeros_ne_zero
  simpa [isZero] using nonzero

/-- A normal decimal is normal already. -/
@[simp] theorem normalize_normalize (d : Decimal) :
  d.normalize.normalize = d.normalize
  := by
  have stripped := stripZeros_stripZeros d.coefficient d.scale
  have negative_eq : (d.normalize.negative && !d.normalize.isZero) = d.normalize.negative := by
    cases negative : d.normalize.negative with
    | false => rfl
    | true =>
      rw [isZero, decide_eq_false (coefficient_ne_zero_of_normalize negative)]
      rfl
  rw [normalize]
  simp only [negative_eq]
  simp only [normalize, stripped]

end Tariff.Decimal
