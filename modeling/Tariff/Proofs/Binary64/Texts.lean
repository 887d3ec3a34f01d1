import Tariff.Binary64.Reading
import Tariff.Proofs.Binary64.Shortest
import Tariff.Proofs.Json.RereadText

/-!
# Numbers from their texts

A finite number is what its JSON text denotes: the text is a numeral for the shortest decimal, to
which the number is the nearest one.
-/

namespace Tariff.Binary64

open Json

/-- Digits denote a number. -/
theorem digits?_of_isDigits {ds : List Char} (isDigits : IsDigits ds) :
  digits? ds = some (Text.numeralValue ds)
  := by
  have all : ds.all Char.isDigit = true := List.all_eq_true.mpr isDigits.isDigit
  have not_empty : ds.isEmpty = false := List.isEmpty_eq_false_iff.mpr isDigits.ne_nil
  simp [digits?, all, not_empty]

/-- The exponent of a numeral is read. -/
theorem exponent?_written (negative : Bool) {ds : List Char} (isDigits : IsDigits ds) :
  exponent? ((if negative then '-' else '+') :: ds) =
    some (WrittenNumeral.exponentValue (negative, ds))
  := by
  cases negative with
  | true => simp [exponent?, digits?_of_isDigits isDigits, WrittenNumeral.exponentValue]
  | false => simp [exponent?, digits?_of_isDigits isDigits, WrittenNumeral.exponentValue]

/-- A numeral denotes the number nearest to the decimal that it stands for. -/
theorem unsigned?_written (negative : Bool) (w : WrittenNumeral) :
  unsigned? negative w.chars = some (ofDecimal negative w.form.coefficient w.form.exponent)
  := by
  obtain ⟨whole, fraction, exponent, whole_digits, whole_ne, fraction_digits, exponent_digits⟩ := w
  have all_digits : IsDigits (whole ++ fraction.getD []) := by
    constructor
    · simp [whole_digits.ne_nil]
    · intro c c_mem
      rcases List.mem_append.mp c_mem with c_mem | c_mem
      · exact whole_digits.isDigit c c_mem
      · cases fraction with
        | none => cases c_mem
        | some ds => exact (fraction_digits ds rfl).isDigit c c_mem
  have read_exponent : ∀ e ∈ exponent,
      exponent? ((if e.1 then '-' else '+') :: e.2) = some (WrittenNumeral.exponentValue e) :=
    fun e e_mem => exponent?_written e.1 (exponent_digits e e_mem)
  have read_digits := digits?_of_isDigits all_digits
  have no_digit : ∀ c ∈ (WrittenNumeral.exponentChars exponent).head?, c.isDigit = false := by
    cases exponent with
    | none => simp [WrittenNumeral.exponentChars]
    | some e =>
      simp [WrittenNumeral.exponentChars]
  cases fraction with
  | none =>
    obtain ⟨taken, dropped⟩ := whole_digits.span_append no_digit
    rw [Option.getD_none, List.append_nil] at read_digits
    unfold unsigned?
    simp only [WrittenNumeral.chars, WrittenNumeral.fractionChars, List.nil_append, taken, dropped]
    cases exponent with
    | none =>
      simp [WrittenNumeral.exponentChars, WrittenNumeral.form, read_digits]
    | some e =>
      simp [WrittenNumeral.exponentChars, WrittenNumeral.form, read_digits, read_exponent e rfl]
  | some ds =>
    have point : ∀ c ∈ ('.' :: ds ++ WrittenNumeral.exponentChars exponent).head?,
        c.isDigit = false := by
      simp
    obtain ⟨taken, dropped⟩ := whole_digits.span_append point
    obtain ⟨taken', dropped'⟩ := (fraction_digits ds rfl).span_append no_digit
    unfold unsigned?
    simp only [WrittenNumeral.chars, WrittenNumeral.fractionChars, taken, dropped]
    simp only [List.cons_append, taken', dropped']
    rw [Option.getD_some] at read_digits
    cases exponent with
    | none => simp [WrittenNumeral.exponentChars, WrittenNumeral.form, read_digits]
    | some e =>
      simp [WrittenNumeral.exponentChars, WrittenNumeral.form, read_digits, read_exponent e rfl]

/-- A numeral is no name. -/
theorem magnitude?_written (negative : Bool) (w : WrittenNumeral) :
  magnitude? negative w.chars = some (ofDecimal negative w.form.coefficient w.form.exponent)
  := by
  obtain ⟨c, cs, chars_eq, digit⟩ := w.chars_eq_cons
  have lower_eq : c.toLower = c := by
    obtain ⟨-, le_nine⟩ := Char.isDigit_iff_toNat.mp digit
    have no_capital : ¬ 'A'.val ≤ c.val := by
      intro capital
      have le : 'A'.toNat ≤ c.toNat := capital
      exact absurd (le.trans le_nine) (by decide)
    exact dif_neg fun both => no_capital both.1
  have no_name (c' : Char) (letter : c'.isDigit = false) (name : List Char) :
      String.ofList (w.chars.map Char.toLower) ≠ String.ofList (c' :: name) := by
    intro eq
    rw [chars_eq, List.map_cons, lower_eq] at eq
    obtain ⟨rfl, -⟩ := List.cons.inj (String.ofList_injective eq)
    rw [digit] at letter
    cases letter
  unfold magnitude?
  dsimp only
  rw [if_neg, if_neg]
  · apply unsigned?_written
  · exact no_name 'n' (by decide) ['a', 'n']
  · rintro (eq | eq)
    · exact no_name 'i' (by decide) ['n', 'f'] eq
    · exact no_name 'i' (by decide) ['n', 'f', 'i', 'n', 'i', 't', 'y'] eq

/-- A numeral with a sign or without denotes a number. -/
theorem ofChars?_written (negative : Bool) (w : WrittenNumeral) :
  ofChars? (Text.signed negative w.chars) =
    some (ofDecimal negative w.form.coefficient w.form.exponent)
  := by
  cases negative with
  | true => exact magnitude?_written true w
  | false =>
    obtain ⟨c, cs, chars_eq, digit⟩ := w.chars_eq_cons
    have read := magnitude?_written false w
    rw [Text.signed, if_neg Bool.false_ne_true]
    unfold ofChars?
    split
    case h_1 minus =>
      rw [chars_eq] at minus
      obtain ⟨rfl, -⟩ := List.cons.inj minus
      cases digit
    case h_2 plus =>
      rw [chars_eq] at plus
      obtain ⟨rfl, -⟩ := List.cons.inj plus
      cases digit
    case h_3 => exact read

/-- Characters of numerals are not blank. -/
theorem isBlank_of_isNumeric {c : Char} (numeric : isNumeric c = true) :
  Text.isBlank c = false
  := by
  simp only [isNumeric, Bool.or_eq_true, decide_eq_true_eq] at numeric
  rcases numeric with ((((digit | rfl) | rfl) | rfl) | rfl) | rfl
  · exact Text.isBlank_of_isDigit digit
  all_goals decide

/-- There are no blanks in a numeral with a sign or without. -/
theorem isBlank_of_mem_signed {negative : Bool} {w : WrittenNumeral} {c : Char}
    (c_mem : c ∈ Text.signed negative w.chars) :
  Text.isBlank c = false
  := by
  unfold Text.signed at c_mem
  split at c_mem
  case isTrue =>
    rcases List.mem_cons.mp c_mem with rfl | c_mem
    · decide
    · exact isBlank_of_isNumeric (w.isNumeric_of_mem c_mem)
  case isFalse => exact isBlank_of_isNumeric (w.isNumeric_of_mem c_mem)

/-- The text of a numeral with a sign or without denotes a number. -/
theorem ofText_written (negative : Bool) (w : WrittenNumeral) :
  ofText (String.ofList (Text.signed negative w.chars)) =
    (ofDecimal negative w.form.coefficient w.form.exponent).finitePart
  := by
  rw [ofText, String.toList_ofList, Text.trimChars_eq fun _ => isBlank_of_mem_signed,
    ofChars?_written, Option.getD_some]

/-- The text of a numeral with a sign or without is not blank. -/
theorem isAllBlank_written (negative : Bool) (w : WrittenNumeral) :
  Text.isAllBlank (String.ofList (Text.signed negative w.chars)) = false
  := by
  obtain ⟨c, cs, chars_eq, -⟩ := w.chars_eq_cons
  have c_mem : c ∈ Text.signed negative w.chars := by
    rw [Text.signed, chars_eq]
    split <;> simp
  rw [Text.isAllBlank, String.toList_ofList]
  exact List.all_eq_false.mpr ⟨c, c_mem, by simp [isBlank_of_mem_signed c_mem]⟩

/-- A finite number is nearest to the decimal that is written for it. -/
theorem ofDecimal_writtenForm {x : Binary64} (finite : x.isFinite = true) :
  ofDecimal x.negative (writtenForm (x.shortest .toEven)).coefficient
      (writtenForm (x.shortest .toEven)).exponent = x
  := by
  have code_lt : x.code < infinityCode := of_decide_eq_true finite
  rcases Nat.eq_zero_or_pos x.code with zero | nonzero
  · have is_zero : x.isZero = true := decide_eq_true zero
    have form_eq : writtenForm (x.shortest .toEven) = ⟨0, -1⟩ := by
      rw [shortest, if_pos is_zero]
      decide
    have zero_eq : ofDecimal x.negative 0 (-1) = Binary64.zero x.negative := rfl
    rw [form_eq]
    dsimp only
    rw [zero_eq, Binary64.zero, ← zero, ofCode_code]
  · obtain ⟨grid, exponent_eq, rounds, -, -⟩ := shortest_spec .toEven finite nonzero
    generalize x.shortest .toEven = form at *
    unfold writtenForm
    split
    case isTrue near =>
      -- The place that is added moves to a finer grid.
      have finest_eq : finestGrid = 324 := rfl
      have step_eq : 10 * (form.coefficient * pow10 form.exponent.natAbs) * gridStep 323 =
          form.coefficient * gridStep grid := by
        have grid_eq : grid = form.exponent.natAbs + (323 + 1) := by omega
        rw [gridStep, gridStep, grid_eq, pow10_add, pow10_succ 323]
        ring
      rw [← step_eq] at rounds
      exact (rounds.ofDecimal_eq x.negative nonzero code_lt).trans (ofCode_code x)
    case isFalse =>
      rw [exponent_eq, rounds.ofDecimal_eq x.negative nonzero code_lt, ofCode_code]

/-- A finite number is the number that its JSON text denotes. -/
theorem ofText_toText {x : Binary64} (finite : x.isFinite = true) :
  ofText (Number.real x).toText = x
  := by
  obtain ⟨w, chars_eq, form_eq, -⟩ := exists_decimalChars (x.shortest .toEven)
  rw [Number.toText, Number.chars, realChars, if_pos finite, chars_eq, ofText_written, form_eq,
    ofDecimal_writtenForm finite, finitePart_of_isFinite finite]

end Tariff.Binary64
