import Tariff.Proofs.Quota.CompactTexts
import Tariff.Quota.Format

/-!
# Signs and zeros of shown quota

Quota is shown as a text for its size, which is told from the magnitude alone, with a minus sign in
front if the quota is below zero.  The text for the size has no other digits than zeros only if there
is no quota: as a compact magnitude it denotes a number above zero otherwise, and in currency the
smallest amount stands in for zero, whatever made zero of the amount.
-/

namespace Tariff

namespace Quota

/-- The text has digits and no minus sign, and all of its digits are zeros exactly if there is no
quota. -/
structure ShowsSize (q : Quota) (body : String) : Prop where
  unsigned : '-' ∉ body.toList
  digit : ∃ c ∈ body.toList, c.isDigit = true
  zero_iff : (∀ c ∈ body.toList, c.isDigit = true → c = '0') ↔ q.units = 0

/-- A numeral between other characters shows the size of quota if it denotes zero exactly if there is
none. -/
theorem showsSize_of_numeral {q : Quota} {body : String} {n : FixedNumeral}
    {before after : List Char} (chars_eq : body.toList = before ++ n.chars ++ after)
    (around : ∀ c ∈ before ++ after, c ≠ '-' ∧ c.isDigit = false)
    (unsigned : n.negative = false) (zero_iff : n.value = 0 ↔ q.units = 0) :
  q.ShowsSize body
  := by
  have mem_iff {c : Char} (digit : c.isDigit = true) :
      c ∈ body.toList ↔ c ∈ n.chars := by
    grind
  constructor
  case unsigned =>
    have no_minus : '-' ∉ n.chars := by
      rw [n.mem_chars_iff, unsigned]
      rintro (⟨⟨⟩, -⟩ | ⟨-, ⟨⟩⟩ | c_mem)
      cases FixedNumeral.isDigit_of_mem c_mem
    grind
  case digit =>
    obtain ⟨c, cs, whole_eq⟩ := List.exists_cons_of_ne_nil n.whole_digits.ne_nil
    have c_mem : c ∈ n.whole ++ n.places := by
      rw [whole_eq]
      apply List.mem_cons_self
    have digit := FixedNumeral.isDigit_of_mem c_mem
    use c, (mem_iff digit).mpr ((n.mem_chars_iff c).mpr (.inr (.inr c_mem)))
  case zero_iff =>
    rw [← zero_iff, n.value_eq_zero_iff]
    constructor
    · intro zeros c c_mem digit
      apply zeros c ((mem_iff digit).mpr c_mem) digit
    · intro zeros c c_mem digit
      apply zeros c ((mem_iff digit).mp c_mem) digit

/-- With a minus sign in front or none, the text starts with a minus sign exactly if it is given one,
and has the same digits. -/
theorem ShowsSize.signed {q : Quota} {body : String} (size : q.ShowsSize body) (negative : Bool) :
  let s := if negative then "-" ++ body else body
  (s.toList.head? = some '-' ↔ negative = true) ∧
    (∃ c ∈ s.toList, c.isDigit = true) ∧
    ((∀ c ∈ s.toList, c.isDigit = true → c = '0') ↔ q.units = 0)
  := by
  obtain ⟨c, c_mem, digit⟩ := size.digit
  rw [← size.zero_iff]
  cases negative with
  | true =>
    have chars_eq : ("-" ++ body).toList = '-' :: body.toList := String.toList_append
    dsimp only
    rw [if_pos rfl, chars_eq]
    refine ⟨by simp, ⟨c, List.mem_cons_of_mem _ c_mem, digit⟩, ?_⟩
    rw [List.forall_mem_cons]
    simp
  | false =>
    dsimp only
    rw [if_neg Bool.false_ne_true]
    refine ⟨?_, ⟨c, c_mem, digit⟩, Iff.rfl⟩
    have front_ne : body.toList.head? ≠ some '-' := by
      intro front
      apply size.unsigned (List.mem_of_head? front)
    simp [front_ne]

/-! ### Magnitudes -/

/-- The magnitude of quota is that of its number, and the largest quota for the lowest. -/
theorem toInt_magnitude (q : Quota) :
  q.magnitude.units.toInt = min q.units.toInt.natAbs (2 ^ 63 - 1)
  := by
  rw [magnitude, toInt_nearestInt64, Int64.toInt_minValue, Int64.toInt_maxValue]
  omega

/-- The magnitude is zero exactly if there is no quota. -/
theorem isZero_magnitude_iff (q : Quota) :
  q.magnitude.isZero = true ↔ q.units = 0
  := by
  have magnitude_eq := q.toInt_magnitude
  rw [isZero, decide_eq_true_iff, ← Int64.toInt_inj, ← Int64.toInt_inj, Int64.toInt_zero]
  omega

/-- The opposite of quota above zero has the opposite number. -/
theorem toInt_neg_of_pos {n : Int64} (pos : 0 < n) :
  (-n).toInt = -n.toInt
  := by
  have pos_int := Int64.lt_iff_toInt_lt.mp pos
  have upper := n.toInt_lt
  rw [Int64.toInt_zero] at pos_int
  rw [Int64.toInt_neg, Int.bmod_eq_of_le]
  all_goals omega

/-- A compact magnitude shows the size of the quota. -/
theorem showsSize_compactMagnitude? {q : Quota} {body : String}
    (shown : compactMagnitude? q.units.toInt.natAbs = some body) :
  q.ShowsSize body
  := by
  have bounded := q.natAbs_units_le
  obtain ⟨coefficient, places, text_eq, value_eq⟩ := exists_compactMagnitude? bounded
  cases shown.symm.trans text_eq
  have chars_eq := String.toList_ofList
    (l := [] ++ (FixedNumeral.ofScaled false coefficient places).chars ++
      (CompactUnit.reached q.units.toInt.natAbs).letter)
  apply showsSize_of_numeral chars_eq
  case around =>
    rw [List.nil_append]
    apply CompactUnit.ne_minus_of_mem_letter
  case unsigned => rfl
  case zero_iff =>
    have size_pos : (0 : ℚ) < (CompactUnit.reached q.units.toInt.natAbs).size :=
      Nat.cast_pos.mpr (CompactUnit.size_pos _)
    rw [FixedNumeral.value_ofScaled, ← mul_eq_zero_iff_right size_pos.ne', value_eq,
      CompactUnit.shown_eq_zero_iff bounded, Int.natAbs_eq_zero, ← Int64.toInt_inj,
      Int64.toInt_zero]

end Quota

namespace QuotaFormat

/-- What is shown for the size of quota. -/
def unsigned? (format : QuotaFormat) (q : Quota) (places : Nat) : Option String :=
  match format.style with
  | .magnitude => Quota.compactMagnitude? q.units.toInt.natAbs
  | .currency =>
    (format.amountText? q.magnitude places).map fun body =>
      "$" ++ if !q.magnitude.isZero && showsZero body then smallestAmount places else body

/-- The minus sign of an amount of dollars stands in front of the dollar sign. -/
theorem dollars_eq (negative : Bool) (body : String) :
  dollars negative body = if negative then "-" ++ ("$" ++ body) else "$" ++ body
  := by
  rw [dollars, ← String.append_assoc]
  rfl

variable (format : QuotaFormat) (q : Quota) (places : Nat)

/-- Quota is shown as its size, with a minus sign in front if it is below zero. -/
theorem show?_eq_map :
  format.show? q places =
    (format.unsigned? q places).map fun body => if q.isNegative then "-" ++ body else body
  := by
  rw [show?, unsigned?]
  cases format.style with
  | magnitude => rfl
  | currency =>
    simp only [Option.map_map, dollars_eq]
    rfl

/-- The opposite of quota above zero has the same size. -/
theorem unsigned?_neg {q : Quota} (pos : 0 < q.units) :
  format.unsigned? ⟨-q.units⟩ places = format.unsigned? q places
  := by
  have natAbs_eq : (-q.units).toInt.natAbs = q.units.toInt.natAbs := by
    rw [Quota.toInt_neg_of_pos pos, Int.natAbs_neg]
  have magnitude_eq : Quota.magnitude ⟨-q.units⟩ = q.magnitude := by
    rw [Quota.magnitude, Quota.magnitude, natAbs_eq]
  rw [unsigned?, unsigned?, natAbs_eq, magnitude_eq]

/-- The numeral of a number without a sign shows zero exactly if the number is zero. -/
theorem showsZero_ofScaled_iff (coefficient places : Nat) :
  showsZero (FixedNumeral.ofScaled false coefficient places).text = true ↔ coefficient = 0
  := by
  have value_iff : (FixedNumeral.ofScaled false coefficient places).value = 0 ↔ coefficient = 0 := by
    rw [FixedNumeral.value_ofScaled, Decimal.scaled_eq_zero_iff]
  rw [← value_iff, FixedNumeral.value_eq_zero_iff, showsZero,
    FixedNumeral.toList_text, List.all_eq_true]
  apply forall₂_congr
  intro c c_mem
  rcases (FixedNumeral.mem_chars_iff _ c).mp c_mem with ⟨⟨⟩, -⟩ | ⟨-, rfl⟩ | c_mem
  · decide
  · have digit := FixedNumeral.isDigit_of_mem c_mem
    have no_point : c ≠ '.' := by
      rintro rfl
      cases digit
    simp [digit, no_point]

/-- The smallest amount is the numeral with coefficient one. -/
theorem smallestAmount_eq (places : Nat) :
  smallestAmount places = (FixedNumeral.ofScaled false 1 places).text
  := by
  rw [smallestAmount, FixedNumeral.text, FixedNumeral.chars_ofScaled]
  rfl

/-- The amount that the magnitude of quota is worth has no sign. -/
theorem negative_amount_magnitude :
  (format.amount q.magnitude).negative = false
  := by
  obtain ⟨-, positive⟩ := Bool.and_eq_true_iff.mp format.perUnit_usable
  apply Binary64.negative_div
  · rw [Quota.toReal, Binary64.ofInt64, q.toInt_magnitude]
    apply Binary64.negative_ofInt
  · exact (Binary64.units_pos_of_pos (of_decide_eq_true positive)).1

/-- No quota is worth no amount. -/
theorem isZero_amount_magnitude (none : q.units = 0) :
  (format.amount q.magnitude).finitePart.isZero = true
  := by
  obtain ⟨finite, positive⟩ := Bool.and_eq_true_iff.mp format.perUnit_usable
  have no_amount : (format.amount q.magnitude).isZero = true := by
    apply Binary64.isZero_div _ finite
      (Binary64.units_pos_of_pos (of_decide_eq_true positive)).2
    rw [Quota.toReal, Binary64.ofInt64, q.toInt_magnitude, none]
    apply decide_eq_true Binary64.code_zero
  rwa [Binary64.finitePart_of_isFinite (Binary64.isFinite_of_isZero no_amount)]

/-- In currency the size of quota is an amount with the places that are asked for, zero exactly if
there is no quota. -/
theorem exists_ofScaled_of_unsigned? {format : QuotaFormat} {q : Quota} {places : Nat}
    {body : String} (currency : format.style = .currency)
    (shown : format.unsigned? q places = some body) :
  ∃ coefficient, body = "$" ++ (FixedNumeral.ofScaled false coefficient places).text ∧
    (coefficient = 0 ↔ q.units = 0)
  := by
  rw [unsigned?, currency] at shown
  obtain ⟨amount, amount_eq, rfl⟩ := Option.map_eq_some_iff.mp shown
  obtain ⟨negative, coefficient, rfl, rounds⟩ := exists_roundsTo_of_fixedText? amount_eq
  obtain rfl : negative = false := by
    apply rounds.unsigned
    apply Binary64.negative_finitePart (format.negative_amount_magnitude q)
  by_cases none : q.units = 0
  · have isZero := q.isZero_magnitude_iff.mpr none
    have no_coefficient := rounds.zero (format.isZero_amount_magnitude q none)
    use coefficient
    rw [isZero]
    simp [no_coefficient, none]
  · have some_quota : q.magnitude.isZero = false := by
      rw [← Bool.not_eq_true, q.isZero_magnitude_iff]
      exact none
    rw [some_quota, Bool.not_false, Bool.true_and]
    -- Underflow, overflow and rounding need not be told apart: the text alone is looked at.
    by_cases away : coefficient = 0
    · use 1
      rw [if_pos ((showsZero_ofScaled_iff _ _).mpr away), smallestAmount_eq]
      simp [none]
    · use coefficient
      rw [if_neg (mt (showsZero_ofScaled_iff _ _).mp away)]
      simp [none, away]

/-- What is shown for the size of quota shows it. -/
theorem showsSize_of_unsigned? {format : QuotaFormat} {q : Quota} {places : Nat} {body : String}
    (shown : format.unsigned? q places = some body) :
  q.ShowsSize body
  := by
  cases style_eq : format.style with
  | magnitude =>
    rw [unsigned?, style_eq] at shown
    apply Quota.showsSize_compactMagnitude? shown
  | currency =>
    obtain ⟨coefficient, rfl, zero_iff⟩ := exists_ofScaled_of_unsigned? style_eq shown
    have chars_eq : ("$" ++ (FixedNumeral.ofScaled false coefficient places).text).toList =
        ['$'] ++ (FixedNumeral.ofScaled false coefficient places).chars ++ [] := by
      have dollar : "$".toList = ['$'] := rfl
      rw [String.toList_append, dollar, FixedNumeral.toList_text, List.append_nil]
    apply Quota.showsSize_of_numeral chars_eq
    case around => simp
    case unsigned => rfl
    case zero_iff => rw [FixedNumeral.value_ofScaled, Decimal.scaled_eq_zero_iff, zero_iff]

/-! ### Shown quota -/

/-- Whatever is shown for quota starts with a minus sign exactly if the quota is below zero, and all
its digits are zeros exactly if there is no quota.  The opposite of quota above zero is shown with a
minus sign in front of the same text.  In currency the text is an amount of dollars without a sign of
its own, with just the places that are asked for. -/
theorem sign_and_zeros_of_show? :
  (∀ s, format.show? q places = some s →
    (s.toList.head? = some '-' ↔ q.units < 0) ∧
    (∃ c ∈ s.toList, c.isDigit = true) ∧
    ((∀ c ∈ s.toList, c.isDigit = true → c = '0') ↔ q.units = 0) ∧
    (format.style = .currency → ∃ n : FixedNumeral,
      s = (if q.units < 0 then "-$" else "$") ++ n.text ∧ n.negative = false ∧
        n.fraction.map List.length = if places = 0 then none else some places)) ∧
  (0 < q.units →
    format.show? ⟨-q.units⟩ places = (format.show? q places).map fun s => "-" ++ s)
  := by
  rw [show?_eq_map]
  constructor
  · intro s shown
    obtain ⟨body, body_eq, rfl⟩ := Option.map_eq_some_iff.mp shown
    have negative_iff : q.isNegative = true ↔ q.units < 0 := decide_eq_true_iff
    obtain ⟨sign_iff, digit, zero_iff⟩ := (showsSize_of_unsigned? body_eq).signed q.isNegative
    use sign_iff.trans negative_iff, digit, zero_iff
    intro currency
    obtain ⟨coefficient, rfl, -⟩ := exists_ofScaled_of_unsigned? currency body_eq
    use .ofScaled false coefficient places
    refine ⟨?_, rfl, FixedNumeral.length_fraction_ofScaled false coefficient places⟩
    simp only [negative_iff]
    split
    case isTrue => rw [← String.append_assoc]; rfl
    case isFalse => rfl
  · intro pos
    have pos_int := Int64.lt_iff_toInt_lt.mp pos
    rw [Int64.toInt_zero] at pos_int
    have negative : Quota.isNegative ⟨-q.units⟩ = true := by
      rw [Quota.isNegative_iff, Quota.toInt_neg_of_pos pos]
      omega
    have unsigned : q.isNegative = false := by
      rw [← Bool.not_eq_true, Quota.isNegative_iff]
      omega
    rw [show?_eq_map, format.unsigned?_neg places pos, negative, unsigned]
    simp

/-- A single unit of quota is shown as a cent, and its opposite as minus a cent. -/
theorem sign_and_zeros_of_show?_one :
  default.show? ⟨1⟩ 2 = some "$0.01" ∧ default.show? ⟨-1⟩ 2 = some "-$0.01" ∧
    ¬ ∀ c ∈ "$0.01".toList, c.isDigit = true → c = '0'
  := by
  have cent : default.show? ⟨1⟩ 2 = some "$0.01" := by decide +kernel
  obtain ⟨described, opposite⟩ := default.sign_and_zeros_of_show? ⟨1⟩ 2
  obtain ⟨-, -, zeros_iff, -⟩ := described "$0.01" cent
  use cent
  constructor
  · rw [opposite (by decide), cent]
    rfl
  · rw [zeros_iff]
    decide

end QuotaFormat

end Tariff
