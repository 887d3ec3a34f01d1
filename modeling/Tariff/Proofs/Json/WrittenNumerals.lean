import Tariff.Json.Printing
import Tariff.Proofs.Json.Numerals

/-!
# Written numerals

Whatever number is written, its digits are a numeral: they are read as the parts that they consist
of.  What a number is read back as can thus be told from its text alone, wherever it stands.
-/

namespace Tariff.Json

/-- One digit or more. -/
structure IsDigits (ds : List Char) : Prop where
  ne_nil : ds ≠ []
  isDigit : ∀ c ∈ ds, c.isDigit = true

/-- Digits in front are told from what is behind them. -/
theorem IsDigits.span_append {ds rest : List Char} (isDigits : IsDigits ds)
    (ends : ∀ c ∈ rest.head?, c.isDigit = false) :
  (ds ++ rest).takeWhile Char.isDigit = ds ∧ (ds ++ rest).dropWhile Char.isDigit = rest
  := by
  rw [List.takeWhile_append_of_pos isDigits.isDigit, List.dropWhile_append_of_pos isDigits.isDigit]
  cases rest with
  | nil => simp
  | cons c rest => simp [ends c rfl]

/-- The parts of a numeral in writing. -/
structure WrittenNumeral where
  whole : List Char
  fraction : Option (List Char)
  exponent : Option (Bool × List Char)
  whole_digits : IsDigits whole
  whole_ne : ∀ c cs, whole ≠ '0' :: c :: cs
  fraction_digits : ∀ ds ∈ fraction, IsDigits ds
  exponent_digits : ∀ e ∈ exponent, IsDigits e.2

namespace WrittenNumeral

/-- The point and the digits behind it. -/
def fractionChars : Option (List Char) → List Char
  | none => []
  | some ds => '.' :: ds

/-- The mark of an exponent, its sign and its digits. -/
def exponentChars : Option (Bool × List Char) → List Char
  | none => []
  | some (negative, ds) => 'e' :: (if negative then '-' else '+') :: ds

/-- The characters of a numeral. -/
def chars (w : WrittenNumeral) : List Char :=
  w.whole ++ (fractionChars w.fraction ++ exponentChars w.exponent)

/-- The number that an exponent in writing is. -/
def exponentValue (e : Bool × List Char) : Int :=
  if e.1 then -(Text.numeralValue e.2 : Int) else Text.numeralValue e.2

/-- The parts that the characters of a numeral are read as. -/
def numeral (w : WrittenNumeral) : Numeral :=
  ⟨w.whole, w.fraction, w.exponent.map exponentValue⟩

/-- The decimal that a numeral stands for: all its digits, and the power of ten of the last one. -/
def form (w : WrittenNumeral) : DecimalForm where
  coefficient := Text.numeralValue (w.whole ++ w.fraction.getD [])
  exponent := (w.exponent.map exponentValue).getD 0 - (w.fraction.getD []).length

/-- A numeral with a point or an exponent does not stand for an integer. -/
def isReal (w : WrittenNumeral) : Bool :=
  w.fraction.isSome || w.exponent.isSome

/-- A numeral starts with a digit. -/
theorem chars_eq_cons (w : WrittenNumeral) :
  ∃ c cs, w.chars = c :: cs ∧ c.isDigit = true
  := by
  obtain ⟨c, cs, whole_eq⟩ := List.exists_cons_of_ne_nil w.whole_digits.ne_nil
  have digit : c.isDigit = true := by
    apply w.whole_digits.isDigit
    rw [whole_eq]
    apply List.mem_cons_self
  refine ⟨c, cs ++ (fractionChars w.fraction ++ exponentChars w.exponent), ?_, digit⟩
  rw [chars, whole_eq, List.cons_append]

end WrittenNumeral

namespace Reader

open WrittenNumeral

variable (early : Fault) {rest : List Char}

/-! ### Reading what is written -/

/-- What follows a numeral does not start with a digit. -/
theorem isDigit_of_ends (ends : EndsNumeral rest) :
  ∀ c ∈ rest.head?, c.isDigit = false
  := by
  intro c c_mem
  have numeric := ends c c_mem
  simp only [isNumeric, Bool.or_eq_false_iff] at numeric
  apply numeric.1.1.1.1.1

/-- Digits are read up to what is none. -/
theorem digits_append {ds : List Char} (isDigits : IsDigits ds)
    (ends : ∀ c ∈ rest.head?, c.isDigit = false) :
  digits early (ds ++ rest) = .ok (ds, rest)
  := by
  have taken := isDigits.span_append ends
  cases ds with
  | nil => exact absurd rfl isDigits.ne_nil
  | cons c ds =>
    have digit := isDigits.isDigit c List.mem_cons_self
    rw [List.cons_append] at taken ⊢
    rw [digits, if_pos digit, taken.1, taken.2]

/-- Digits without extra zeros are read as an integer part. -/
theorem wholeDigits_append {ds : List Char} (isDigits : IsDigits ds)
    (ds_ne : ∀ c cs, ds ≠ '0' :: c :: cs) (ends : ∀ c ∈ rest.head?, c.isDigit = false) :
  wholeDigits early (ds ++ rest) = .ok (ds, rest)
  := by
  unfold wholeDigits
  rw [bind_of_ok (digits_append early isDigits ends)]
  split
  · exact absurd rfl (ds_ne _ _)
  · rfl

/-- A written exponent is read. -/
theorem exponent_append {e : Option (Bool × List Char)} (isDigits : ∀ p ∈ e, IsDigits p.2)
    (ends : EndsNumeral rest) :
  exponent early (exponentChars e ++ rest) = .ok (e.map exponentValue, rest)
  := by
  cases e with
  | none =>
    cases rest with
    | nil => rfl
    | cons c rest =>
      have no_mark : ¬ (c = 'e' ∨ c = 'E') := by
        rintro (rfl | rfl) <;> exact absurd (ends _ rfl) (by decide)
      simp [exponentChars, exponent, no_mark]
  | some p =>
    obtain ⟨negative, ds⟩ := p
    have read := digits_append early (isDigits _ rfl) (isDigit_of_ends ends)
    cases negative with
    | false => apply bind_eq_ok.mpr ⟨false, ds ++ rest, rfl, bind_eq_ok.mpr ⟨ds, rest, read, rfl⟩⟩
    | true => apply bind_eq_ok.mpr ⟨true, ds ++ rest, rfl, bind_eq_ok.mpr ⟨ds, rest, read, rfl⟩⟩

/-- A written fraction is read, with an exponent behind it or not. -/
theorem fraction_append {ds? : Option (List Char)} (isDigits : ∀ ds ∈ ds?, IsDigits ds)
    (e : Option (Bool × List Char)) (ends : EndsNumeral rest) :
  fraction early (fractionChars ds? ++ (exponentChars e ++ rest)) =
    .ok (ds?, exponentChars e ++ rest)
  := by
  cases ds? with
  | none =>
    cases e with
    | none =>
      cases rest with
      | nil => rfl
      | cons c rest =>
        have c_ne : c ≠ '.' := by
          rintro rfl
          exact absurd (ends _ rfl) (by decide)
        simp [fractionChars, exponentChars, fraction, c_ne]
    | some p => rfl
  | some ds =>
    have no_digit : ∀ c ∈ (exponentChars e ++ rest).head?, c.isDigit = false := by
      cases e with
      | none => apply isDigit_of_ends ends
      | some p =>
        intro c c_mem
        cases c_mem
        rfl
    apply map_eq_ok.mpr ⟨ds, digits_append early (isDigits ds rfl) no_digit, rfl⟩

/-- What follows the integer part of a numeral does not start with a digit. -/
theorem isDigit_behind_whole (w : WrittenNumeral) (ends : EndsNumeral rest) :
  ∀ c ∈ (fractionChars w.fraction ++ (exponentChars w.exponent ++ rest)).head?, c.isDigit = false
  := by
  cases w.fraction with
  | none =>
    cases w.exponent with
    | none => apply isDigit_of_ends ends
    | some p =>
      intro c c_mem
      cases c_mem
      rfl
  | some ds =>
    intro c c_mem
    cases c_mem
    rfl

/-- A written numeral is read as its parts. -/
theorem numeral_written (w : WrittenNumeral) (ends : EndsNumeral rest) :
  Reader.numeral early (w.chars ++ rest) = .ok (w.numeral, rest)
  := by
  have read_whole := wholeDigits_append early w.whole_digits w.whole_ne
    (isDigit_behind_whole w ends)
  have read_fraction := fraction_append early w.fraction_digits w.exponent ends
  have read_exponent := exponent_append early w.exponent_digits ends
  rw [WrittenNumeral.chars, List.append_assoc, List.append_assoc]
  unfold Reader.numeral
  rw [bind_of_ok read_whole, bind_of_ok read_fraction, bind_of_ok read_exponent]
  rfl

end Reader

/-! ### Writing numbers -/

/-- The digits of a natural number are digits. -/
theorem isDigits_numeral (n : Nat) :
  IsDigits (Text.numeral n)
  := ⟨Nat.toDigits_ne_nil, fun _ => Text.isDigit_of_mem_numeral⟩

/-- The digits of a natural number start with a zero only if there are no others. -/
theorem numeral_ne (n : Nat) (c : Char) (cs : List Char) :
  Text.numeral n ≠ '0' :: c :: cs
  := by
  induction n using Nat.strongRecOn generalizing c cs with
  | ind n ih =>
    by_cases small : n < 10
    · simp [Text.numeral, Nat.toDigits_of_lt_base small]
    · have tenth_lt : n / 10 < n := by omega
      rw [Text.numeral, Nat.toDigits_of_base_le (by omega) (by omega)]
      intro eq
      cases front : Nat.toDigits 10 (n / 10) with
      | nil => apply Nat.toDigits_ne_nil front
      | cons c' cs' =>
        rw [front, List.cons_append] at eq
        obtain ⟨rfl, -⟩ := List.cons.inj eq
        cases cs' with
        | nil =>
          have value_eq := Text.numeralValue_numeral (n / 10)
          rw [Text.numeral, front] at value_eq
          have zero : Text.numeralValue ['0'] = 0 := by decide
          omega
        | cons c'' cs' => apply ih _ tenth_lt c'' cs' front

/-- Zeros in front of digits are digits. -/
theorem isDigits_padLeft (length n : Nat) :
  IsDigits (Text.padLeft length (Text.numeral n))
  := by
  constructor
  · intro nil
    apply (isDigits_numeral n).ne_nil (List.append_eq_nil_iff.mp nil).2
  · intro c c_mem
    rcases List.mem_append.mp c_mem with zero | digit
    · rw [List.eq_of_mem_replicate zero]
      rfl
    · apply (isDigits_numeral n).isDigit c digit

/-- The numeral of a natural number. -/
def WrittenNumeral.ofNat (n : Nat) (fraction : Option (List Char))
    (fraction_digits : ∀ ds ∈ fraction, IsDigits ds) : WrittenNumeral where
  whole := Text.numeral n
  fraction := fraction
  exponent := none
  whole_digits := isDigits_numeral n
  whole_ne := numeral_ne n
  fraction_digits := fraction_digits
  exponent_digits := by simp

/-- Digits with a mark and the power of the first of them behind it are a numeral. -/
theorem exists_scientificChars (form : DecimalForm) {magnitude : Int}
    (magnitude_eq : magnitude = form.exponent + (Text.numeral form.coefficient).length - 1) :
  let digits := Text.numeral form.coefficient
  let lead := digits.take 1 ++ if digits.length = 1 then [] else '.' :: digits.drop 1
  let sign := if magnitude < 0 then '-' else '+'
  ∃ w : WrittenNumeral, lead ++ 'e' :: sign :: Text.numeral magnitude.natAbs = w.chars ∧
    w.form = form ∧ w.isReal = true
  := by
  obtain ⟨coefficient, exponent⟩ := form
  dsimp only at magnitude_eq ⊢
  have isDigits := isDigits_numeral coefficient
  have value_eq := Text.numeralValue_numeral coefficient
  generalize Text.numeral coefficient = digits at *
  have exponent_digits : ∀ e ∈ some (decide (magnitude < 0), Text.numeral magnitude.natAbs),
      IsDigits e.2 := by
    intro e e_mem
    cases e_mem
    apply isDigits_numeral _
  have exponent_eq : WrittenNumeral.exponentValue
      (decide (magnitude < 0), Text.numeral magnitude.natAbs) = magnitude := by
    simp only [WrittenNumeral.exponentValue, decide_eq_true_eq, Text.numeralValue_numeral]
    split <;> omega
  cases digits with
  | nil => exact absurd rfl isDigits.ne_nil
  | cons c cs =>
    have first : IsDigits [c] :=
      ⟨by simp, fun c' c'_mem => isDigits.isDigit c' (by simp_all)⟩
    cases cs with
    | nil =>
      refine ⟨⟨[c], none, _, first, by simp, by simp, exponent_digits⟩, ?_, ?_, rfl⟩
      · simp [WrittenNumeral.chars, WrittenNumeral.fractionChars, WrittenNumeral.exponentChars]
      · simp only [List.length_cons, List.length_nil] at magnitude_eq
        simp [WrittenNumeral.form, exponent_eq, value_eq]
        omega
    | cons c' cs =>
      have others : ∀ ds ∈ some (c' :: cs), IsDigits ds := by
        intro ds ds_mem
        cases ds_mem
        exact ⟨by simp, fun d d_mem => isDigits.isDigit d (List.mem_cons_of_mem _ d_mem)⟩
      refine ⟨⟨[c], some (c' :: cs), _, first, by simp, others, exponent_digits⟩, ?_, ?_, rfl⟩
      · simp [WrittenNumeral.chars, WrittenNumeral.fractionChars, WrittenNumeral.exponentChars]
      · simp only [List.length_cons] at magnitude_eq
        simp [WrittenNumeral.form, exponent_eq, value_eq]
        omega

/-- A number with places is a numeral. -/
theorem exists_fixedPoint (coefficient : Nat) {places : Nat} (pos : 0 < places) :
  ∃ w : WrittenNumeral, Text.fixedPoint coefficient places = w.chars ∧
    w.form = ⟨coefficient, -(places : Int)⟩ ∧ w.isReal = true
  := by
  have length_eq := Text.length_padLeft_numeral coefficient pos
  have isDigits : ∀ ds ∈ some (Text.padLeft places (Text.numeral (coefficient % pow10 places))),
      IsDigits ds := by
    intro ds ds_mem
    cases ds_mem
    apply isDigits_padLeft _ _
  refine ⟨.ofNat (coefficient / pow10 places) _ isDigits, ?_, ?_, rfl⟩
  · rw [Text.fixedPoint, if_neg (by omega)]
    simp [WrittenNumeral.chars, WrittenNumeral.ofNat, WrittenNumeral.fractionChars,
      WrittenNumeral.exponentChars]
  · have value_eq := Text.numeralValue_append (Text.numeral (coefficient / pow10 places))
      (Text.padLeft places (Text.numeral (coefficient % pow10 places)))
    rw [length_eq, Text.numeralValue_padLeft, Text.numeralValue_numeral, Text.numeralValue_numeral,
      Nat.div_add_mod'] at value_eq
    simp [WrittenNumeral.form, WrittenNumeral.ofNat, value_eq, length_eq]

/-- A whole number with a zero behind the point is a numeral. -/
theorem exists_wholeChars (n : Nat) :
  ∃ w : WrittenNumeral, Text.numeral n ++ ['.', '0'] = w.chars ∧ w.form = ⟨10 * n, -1⟩ ∧
    w.isReal = true
  := by
  have isDigits : ∀ ds ∈ some ['0'], IsDigits ds := by
    intro ds ds_mem
    cases ds_mem
    exact ⟨by simp, by simp⟩
  refine ⟨.ofNat n _ isDigits, ?_, ?_, rfl⟩
  · simp [WrittenNumeral.chars, WrittenNumeral.ofNat, WrittenNumeral.fractionChars,
      WrittenNumeral.exponentChars]
  · have value_eq := Text.numeralValue_append (Text.numeral n) ['0']
    have zero : Text.numeralValue ['0'] = 0 := by decide
    rw [Text.numeralValue_numeral, zero, Nat.mul_comm] at value_eq
    simp [WrittenNumeral.form, WrittenNumeral.ofNat, value_eq, pow10]

/-- The decimal as it is written: a whole number has a place more than it needs, unless it is
written with an exponent. -/
def writtenForm (form : DecimalForm) : DecimalForm :=
  if 0 ≤ form.exponent ∧ form.exponent + (Text.numeral form.coefficient).length ≤ 16 then
    ⟨10 * (form.coefficient * pow10 form.exponent.natAbs), -1⟩
  else form

/-- A decimal is written as a numeral that stands for it. -/
theorem exists_decimalChars (form : DecimalForm) :
  ∃ w : WrittenNumeral, decimalChars form = w.chars ∧ w.form = writtenForm form ∧ w.isReal = true
  := by
  have length_pos : 0 < (Text.numeral form.coefficient).length :=
    List.length_pos_iff.mpr Nat.toDigits_ne_nil
  unfold decimalChars
  dsimp only
  split
  case isTrue far =>
    simp only [Bool.or_eq_true, decide_eq_true_eq] at far
    have same : writtenForm form = form := if_neg (by omega)
    rw [same]
    apply exists_scientificChars form rfl
  case isFalse near =>
    simp only [Bool.or_eq_true, decide_eq_true_eq, not_or, Int.not_lt] at near
    split
    case isTrue below =>
      have same : writtenForm form = form := if_neg (by omega)
      have places_pos : 0 < form.exponent.natAbs := by omega
      obtain ⟨w, chars_eq, form_eq, isReal⟩ := exists_fixedPoint form.coefficient places_pos
      have negated : -(form.exponent.natAbs : Int) = form.exponent := by omega
      rw [negated] at form_eq
      rw [same]
      exact ⟨w, chars_eq, form_eq, isReal⟩
    case isFalse =>
      have widened : writtenForm form =
          ⟨10 * (form.coefficient * pow10 form.exponent.natAbs), -1⟩ := if_pos (by omega)
      rw [widened]
      apply exists_wholeChars

/-- An integer is written as a numeral with a sign or without. -/
theorem Number.chars_integer (n : Int) :
  (Number.integer n).chars =
    Text.signed (n < 0) (WrittenNumeral.ofNat n.natAbs none (by simp)).chars
  := by
  simp [Number.chars, Text.integer, WrittenNumeral.chars, WrittenNumeral.ofNat,
    WrittenNumeral.fractionChars, WrittenNumeral.exponentChars]

/-- A number is written as a numeral with a sign or without, unless it is not finite. -/
theorem Number.chars_cases (n : Number) :
  n.chars = "null".toList ∨
    ∃ (negative : Bool) (w : WrittenNumeral), n.chars = Text.signed negative w.chars
  := by
  cases n with
  | integer n => exact .inr ⟨_, _, Number.chars_integer n⟩
  | real x =>
    simp only [Number.chars, realChars]
    split
    case isTrue =>
      right
      obtain ⟨w, chars_eq, -⟩ := exists_decimalChars (x.shortest .toEven)
      exact ⟨x.negative, w, by rw [chars_eq]⟩
    case isFalse => exact .inl rfl

end Tariff.Json
