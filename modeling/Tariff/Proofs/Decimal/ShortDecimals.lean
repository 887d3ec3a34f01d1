import Tariff.Proofs.Binary64.Texts
import Tariff.Proofs.Decimal.Numbers
import Tariff.Proofs.Json.ShortDecimals

/-!
# Short decimals that are read from JSON numbers

The digits that are written for a JSON number are digits of a decimal, with a negative exponent or
without.  Those that are written for the number of a short decimal with few places are digits of a
decimal of the same value.
-/

namespace Tariff.Decimal

open Json

variable {d : Decimal}

/-- A whole number with a place more is written like a decimal with one place. -/
theorem unsignedChars_of_whole {n : Nat} (coefficient_eq : d.coefficient = 10 * n)
    (one_place : d.scale = 1) :
  Text.numeral n ++ ['.', '0'] = d.unsignedChars
  := by
  have ten : pow10 1 = 10 := rfl
  have zero : Text.padLeft 1 (Text.numeral 0) = ['0'] := by decide
  rw [unsignedChars, Text.fixedPoint, coefficient_eq, one_place, if_neg Nat.one_ne_zero, ten,
    Nat.mul_div_cancel_left n (by decide), Nat.mul_mod_right, zero]

/-- Digits that are spread over the point and an exponent are those of their decimal. -/
theorem ofChars?_spread {magnitude : Int} (unsigned : d.negative = false)
    (magnitude_eq : magnitude = -(d.scale : Int) + (Text.numeral d.coefficient).length - 1)
    (negative : magnitude < 0) :
  let digits := Text.numeral d.coefficient
  let lead := digits.take 1 ++ if digits.length = 1 then [] else '.' :: digits.drop 1
  ofChars? (lead ++ 'e' :: '-' :: Text.numeral magnitude.natAbs) = some d
  := by
  have digits := isDigits_numeral d.coefficient
  have value_eq := Text.numeralValue_numeral d.coefficient
  generalize Text.numeral d.coefficient = ds at *
  obtain ⟨c, cs, rfl⟩ := List.exists_cons_of_ne_nil digits.ne_nil
  have first : IsDigits [c] := by
    refine ⟨by simp, ?_⟩
    intro c' c'_mem
    apply digits.isDigit
    rw [List.mem_singleton.mp c'_mem]
    apply List.mem_cons_self
  have others : ∀ c' ∈ cs, c'.isDigit = true :=
    fun c' c'_mem => digits.isDigit c' (List.mem_cons_of_mem c c'_mem)
  have read : ofChars? (([c] ++ if cs = [] then [] else '.' :: cs) ++
      'e' :: '-' :: Text.numeral magnitude.natAbs) = some d := by
    apply ofChars?_scientific first others (isDigits_numeral _) unsigned value_eq.symm
    rw [Text.numeralValue_numeral]
    rw [List.length_cons] at magnitude_eq
    omega
  simpa using read

/-- The digits of a short number are those of the decimal that they stand for. -/
theorem ofChars?_decimalChars {form : DecimalForm} (unsigned : d.negative = false)
    (below : form.exponent + (Text.numeral form.coefficient).length ≤ 16)
    (form_eq : writtenForm form = ⟨d.coefficient, -(d.scale : Int)⟩) :
  ofChars? (decimalChars form) = some d
  := by
  have plain : ofChars? d.unsignedChars = some d := by
    have read := ofChars?_signed (d := d) (by simp [unsigned])
    rwa [unsigned, Text.signed, if_neg Bool.false_ne_true] at read
  unfold decimalChars
  dsimp only
  split
  case isTrue far =>
    simp only [Bool.or_eq_true, decide_eq_true_eq] at far
    have same : writtenForm form = form := if_neg (by omega)
    obtain rfl : form = ⟨d.coefficient, -(d.scale : Int)⟩ := same.symm.trans form_eq
    dsimp only at far below ⊢
    have negative : -(d.scale : Int) + (Text.numeral d.coefficient).length - 1 < 0 := by omega
    rw [if_pos negative]
    apply ofChars?_spread unsigned rfl negative
  case isFalse near =>
    split
    case isTrue places =>
      have same : writtenForm form = form := if_neg (by omega)
      obtain rfl : form = ⟨d.coefficient, -(d.scale : Int)⟩ := same.symm.trans form_eq
      rw [Int.natAbs_neg, Int.natAbs_natCast]
      exact plain
    case isFalse whole =>
      have widened : writtenForm form =
          ⟨10 * (form.coefficient * pow10 form.exponent.natAbs), -1⟩ := if_pos (by omega)
      obtain ⟨coefficient_eq, scale_eq⟩ := DecimalForm.mk.inj (form_eq.symm.trans widened)
      rw [unsignedChars_of_whole coefficient_eq (by omega), plain]

/-- The text of a short number without a sign is one of the decimal that it stands for. -/
theorem ofTrimmed?_real {x : Binary64} (unsigned : d.negative = false) (finite : x.isFinite = true)
    (unsigned_x : x.negative = false)
    (below : (x.shortest .toEven).exponent +
      (Text.numeral (x.shortest .toEven).coefficient).length ≤ 16)
    (form_eq : writtenForm (x.shortest .toEven) = ⟨d.coefficient, -(d.scale : Int)⟩) :
  ofTrimmed? (Number.real x).toText = some d
  := by
  have chars_eq : (Number.real x).chars = decimalChars (x.shortest .toEven) := by
    rw [Number.chars, realChars, if_pos finite, unsigned_x, Text.signed, if_neg Bool.false_ne_true]
  have no_blank : ∀ c ∈ (Number.real x).chars, Text.isBlank c = false := by
    rcases (Number.real x).isNumberText_chars with null | ⟨-, numeric⟩
    · have letters : "null".toList.all (fun c => !Text.isBlank c) = true := by decide
      rw [null]
      simpa using letters
    · exact fun c c_mem => Binary64.isBlank_of_isNumeric (numeric c c_mem)
  rw [ofTrimmed?, Number.toText, String.toList_ofList, Text.trimChars_eq no_blank, chars_eq,
    ofChars?_decimalChars unsigned below form_eq]

/-- What a written numeral is read as is told by its characters. -/
theorem value?_of_written {w : WrittenNumeral} (chars_eq : d.unsignedChars = w.chars) :
  w.numeral.value? false = some d.number
  := by
  obtain ⟨w', chars_eq', numeral_eq⟩ := exists_unsignedChars d
  have no_more : EndsNumeral [] := by simp [EndsNumeral]
  have read := Reader.numeral_written .truncated w no_more
  rw [← chars_eq, chars_eq', Reader.numeral_written .truncated w' no_more] at read
  obtain ⟨same, -⟩ := Prod.mk.inj (Except.ok.inj read)
  rw [← same, numeral_eq, value?_numeral]

/-- The digits of a short decimal with few places are read as their quotient. -/
theorem number_of_short (short : d.coefficient < pow2 52) (few : d.scale ≤ 22)
    (places_pos : 0 < d.scale) :
  d.number = .real (quotient d.coefficient d.scale)
  := by
  obtain ⟨w, chars_eq, form_eq, isReal⟩ := exists_fixedPoint d.coefficient places_pos
  have fits : w.form.coefficient < pow2 64 := by
    rw [form_eq]
    exact short.trans (by decide)
  have read := WrittenNumeral.value?_of_isReal false isReal fits
  rw [value?_of_written chars_eq, form_eq, scaled?_places few places_pos, Option.map_some,
    withSign_false] at read
  exact Option.some.inj read

/-- What is written for the quotient of a short decimal denotes a decimal of the same value. -/
theorem exists_ofTrimmed?_quotient (unsigned : d.negative = false) (pos : 0 < d.coefficient)
    (short : d.coefficient < pow2 52) (few : d.scale ≤ 22) (places_pos : 0 < d.scale) :
  ∃ e, ofTrimmed? (Number.real (quotient d.coefficient d.scale)).toText = some e ∧
    compare e d = .eq
  := by
  have lt : d.coefficient < pow2 53 := short.trans (by decide)
  have digits_lt : d.coefficient < pow10 16 := short.trans (by decide)
  have hasValue := hasValue_shortest pos short few
  obtain ⟨coefficient, places, form_eq, -, places_le, value_eq⟩ :=
    hasValue.exists_writtenForm pos digits_lt places_pos
  have coefficient_le : coefficient ≤ d.coefficient := by
    rw [← value_eq]
    apply Nat.le_mul_of_pos_right _ (pow10_pos _)
  let e : Decimal := ⟨false, coefficient, places, coefficient_le.trans_lt d.coefficient_lt,
    places_le.trans d.scale_le⟩
  refine ⟨e, ?_, ?_⟩
  · have below := hasValue.exponent_le pos digits_lt
    apply ofTrimmed?_real rfl (isFinite_quotient lt few) (rounds_quotient pos lt few).1 (by omega)
      form_eq
  · have same : coefficient * pow10 d.scale = d.coefficient * pow10 places := by
      rw [← value_eq, Nat.mul_assoc, ← pow10_add, Nat.sub_add_cancel places_le]
    rw [compare_def, Std.LawfulEqCmp.compare_eq_iff_eq, widened, widened, signedCoefficient,
      signedCoefficient, unsigned, if_neg Bool.false_ne_true, if_neg Bool.false_ne_true]
    exact_mod_cast same

end Tariff.Decimal
