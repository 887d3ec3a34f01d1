import Tariff.Proofs.Binary64.RoundedValues
import Tariff.Proofs.Price.Badges
import Tariff.Proofs.Quota.ShownQuota

/-!
# Zeros with a minus sign

Quota has a minus sign only beside a digit other than zero, since the smallest amount stands in for
quota that is rounded to zero, and so has a price, which loses its sign with its integer part.  An
amount of currency takes its sign from the number before it is rounded.  A small amount below zero is
therefore shown as minus zero, and nothing else is.
-/

namespace Tariff

/-- Beside a minus sign the text has a digit other than zero. -/
def SignsNoZero (s : String) : Prop :=
  '-' ∈ s.toList → ∃ c ∈ s.toList, c.isDigit = true ∧ c ≠ '0'

/-- The digits beside a minus sign are not all zeros. -/
theorem signsNoZero_iff (s : String) :
  SignsNoZero s ↔ ('-' ∈ s.toList → ¬ ∀ c ∈ s.toList, c.isDigit = true → c = '0')
  := by
  rw [SignsNoZero]
  push Not
  rfl

/-! ### Quota -/

/-- A text for the size of quota has a digit other than zero behind a minus sign if there is any
quota. -/
theorem Quota.ShowsSize.signsNoZero {q : Quota} {body : String} (size : q.ShowsSize body)
    {negative : Bool} (some_quota : negative = true → q.units ≠ 0) :
  SignsNoZero (if negative then "-" ++ body else body)
  := by
  obtain ⟨-, -, zeros_iff⟩ := size.signed negative
  rw [signsNoZero_iff]
  intro minus zeros
  cases negative with
  | true => exact some_quota rfl (zeros_iff.mp zeros)
  | false => exact size.unsigned minus

/-- Shown quota is no zero with a minus sign. -/
theorem QuotaFormat.signsNoZero_of_show? {format : QuotaFormat} {q : Quota} {places : Nat}
    {s : String} (shown : format.show? q places = some s) :
  SignsNoZero s
  := by
  rw [show?_eq_map] at shown
  obtain ⟨body, body_eq, rfl⟩ := Option.map_eq_some_iff.mp shown
  apply (showsSize_of_unsigned? body_eq).signsNoZero
  intro negative none
  have below : q.units < 0 := of_decide_eq_true negative
  rw [none] at below
  exact absurd below (by decide)

/-! ### Prices -/

namespace FixedNumeral

/-- A numeral between characters that are no digits is no zero with a minus sign exactly if, with a
minus sign of its own or of the characters around it, it does not denote zero. -/
theorem signsNoZero_iff {n : FixedNumeral} {s : String} {before after : List Char}
    (chars_eq : s.toList = before ++ n.chars ++ after)
    (around : ∀ c ∈ before ++ after, c.isDigit = false) :
  SignsNoZero s ↔ ('-' ∈ before ++ after ∨ n.negative = true → n.value ≠ 0)
  := by
  have mem_iff (c : Char) : c ∈ s.toList ↔ c ∈ before ++ after ∨ c ∈ n.chars := by
    rw [chars_eq]
    simp only [List.mem_append]
    tauto
  have minus_iff : '-' ∈ n.chars ↔ n.negative = true := by
    rw [n.mem_chars_iff]
    constructor
    · rintro (⟨negative, -⟩ | ⟨-, ⟨⟩⟩ | digit_mem)
      · exact negative
      · cases isDigit_of_mem digit_mem
    · exact fun negative => .inl ⟨negative, rfl⟩
  have zeros_iff : (∀ c ∈ s.toList, c.isDigit = true → c = '0') ↔ n.value = 0 := by
    rw [n.value_eq_zero_iff]
    constructor
    · intro zeros c c_mem
      apply zeros c ((mem_iff c).mpr (.inr c_mem))
    · intro zeros c c_mem digit
      rcases (mem_iff c).mp c_mem with other | c_mem
      · rw [around c other] at digit
        cases digit
      · apply zeros c c_mem digit
  rw [Tariff.signsNoZero_iff, mem_iff, minus_iff, zeros_iff]

/-- The numeral of a number that has been cut has a sign only if it does not denote zero. -/
theorem value_trimmed_ne_zero {negative : Bool} {coefficient places : Nat}
    (signed : (ofScaled negative coefficient places).trimmed.negative = true) :
  (ofScaled negative coefficient places).trimmed.value ≠ 0
  := by
  intro zero
  have no_coefficient : coefficient = 0 := by
    rw [← abs_eq_zero, abs_value_trimmed, abs_eq_zero, value_ofScaled,
      Decimal.scaled_eq_zero_iff] at zero
    exact zero
  have no_whole : (ofScaled negative coefficient places).whole = ['0'] := by
    rw [ofScaled, no_coefficient]
    dsimp only
    rw [Nat.zero_div]
    rfl
  simp [trimmed, no_whole] at signed

end FixedNumeral

namespace ModelPrice

variable {price : ModelPrice} {s : String}

/-- The digits of a price are no zero with a minus sign. -/
theorem signsNoZero_of_digits? (shown : price.digits? = some s) :
  SignsNoZero s
  := by
  obtain ⟨negative, coefficient, rfl, -⟩ := exists_ofScaled_of_digits? shown
  have chars_eq : (FixedNumeral.ofScaled negative coefficient places).trimmed.text.toList =
      [] ++ (FixedNumeral.ofScaled negative coefficient places).trimmed.chars ++ [] := by
    rw [FixedNumeral.toList_text, List.nil_append, List.append_nil]
  rw [FixedNumeral.signsNoZero_iff chars_eq (by simp)]
  rintro (minus | signed)
  · cases minus
  · apply FixedNumeral.value_trimmed_ne_zero signed

/-- The badge of a price is no zero with a minus sign. -/
theorem signsNoZero_of_badge? (shown : price.badge? = some s) :
  SignsNoZero s
  := by
  obtain ⟨digits, digits_eq, rfl⟩ := Option.map_eq_some_iff.mp shown
  obtain ⟨negative, coefficient, rfl, -⟩ := exists_ofScaled_of_digits? digits_eq
  have chars_eq (n : FixedNumeral) : ("$" ++ n.text ++ price.basis.suffix).toList =
      ['$'] ++ n.chars ++ price.basis.suffix.toList := by
    have dollar : "$".toList = ['$'] := rfl
    rw [String.toList_append, String.toList_append, dollar, FixedNumeral.toList_text]
  have around : ∀ c ∈ ['$'] ++ price.basis.suffix.toList, c ≠ '-' ∧ c.isDigit = false := by
    cases price.basis <;> simp [PricingBasis.suffix]
  rw [badge, FixedNumeral.fillCents_text,
    FixedNumeral.signsNoZero_iff (chars_eq _) fun c c_mem => (around c c_mem).2,
    FixedNumeral.value_withCents]
  rintro (minus | signed)
  · exact absurd rfl (around '-' minus).1
  · apply FixedNumeral.value_trimmed_ne_zero signed

end ModelPrice

/-! ### Amounts -/

/-- The size of a number has a text with these places, and all of its digits are zeros. -/
def Binary64.Fades (x : Binary64) (places : Nat) : Prop :=
  ∃ body, fixedText? x.abs places = some body ∧ QuotaFormat.showsZero body = true

/-- The text of the size of a finite number is a numeral without a sign.  With up to six places it
denotes zero exactly if the number is less than half a unit of the last place. -/
theorem exists_ofScaled_of_abs {x : Binary64} {places : Nat} {s : String}
    (finite : x.isFinite = true) (text_eq : fixedText? x.abs places = some s) :
  ∃ coefficient, s = (FixedNumeral.ofScaled false coefficient places).text ∧
    (coefficient = 0 ↔ x.Fades places) ∧
    (places ≤ 6 → (coefficient = 0 ↔ |x.toRat| * 10 ^ places < 1 / 2))
  := by
  obtain ⟨negative, coefficient, rfl, rounds⟩ := exists_roundsTo_of_fixedText? text_eq
  rw [Binary64.finitePart_of_isFinite (Binary64.isFinite_abs finite)] at rounds
  obtain rfl := rounds.unsigned x.abs_code.2
  use coefficient, rfl
  constructor
  · rw [← QuotaFormat.showsZero_ofScaled_iff coefficient places, Binary64.Fades, text_eq]
    simp
  · intro few
    have power_eq : (10 : ℚ) ^ places = pow10 places := by simp [pow10]
    rw [power_eq, ← roundAway_eq_zero_iff places (abs_nonneg _), ← x.toRat_abs, ← rounds.rounded few,
      Decimal.scaled_eq_zero_iff]

namespace QuotaFormat

/-- An amount of dollars is a zero with a minus sign exactly if it is given one beside zero. -/
theorem signsNoZero_dollars_iff (negative : Bool) (coefficient places : Nat) :
  SignsNoZero (dollars negative (FixedNumeral.ofScaled false coefficient places).text)
    ↔ ¬ (negative = true ∧ coefficient = 0)
  := by
  have chars_eq : (dollars negative (FixedNumeral.ofScaled false coefficient places).text).toList =
      Text.signed negative ['$'] ++ (FixedNumeral.ofScaled false coefficient places).chars ++ [] := by
    have minus_dollar : "-$".toList = ['-', '$'] := rfl
    have dollar : "$".toList = ['$'] := rfl
    rw [dollars, List.append_nil]
    cases negative with
    | true =>
      rw [if_pos rfl, String.toList_append, minus_dollar, FixedNumeral.toList_text]
      rfl
    | false =>
      rw [if_neg Bool.false_ne_true, String.toList_append, dollar, FixedNumeral.toList_text]
      rfl
  have around : ∀ c ∈ Text.signed negative ['$'] ++ [], c.isDigit = false := by
    cases negative <;> simp [Text.signed]
  have minus_iff : '-' ∈ Text.signed negative ['$'] ++ [] ↔ negative = true := by
    cases negative <;> simp [Text.signed]
  rw [FixedNumeral.signsNoZero_iff chars_eq around, minus_iff, FixedNumeral.value_ofScaled, Ne,
    Decimal.scaled_eq_zero_iff, not_and]
  exact imp_congr_left (or_iff_left Bool.false_ne_true)

variable {format : QuotaFormat} {amount : Binary64} {places : Nat} {s : String}

/-- A shown amount is a zero with a minus sign exactly in currency, below zero, if the text for its
size has no digits but zeros.  With up to six places this is less than half a unit of the last one. -/
theorem signsNoZero_of_showAmount? (shown : format.showAmount? amount places = some s) :
  (SignsNoZero s ↔ ¬ (format.style = .currency ∧ amount.finitePart.toRat < 0 ∧
      amount.finitePart.Fades places)) ∧
    (places ≤ 6 → (SignsNoZero s ↔ ¬ (format.style = .currency ∧ amount.finitePart.toRat < 0 ∧
      |amount.finitePart.toRat| * 10 ^ places < 1 / 2)))
  := by
  cases style_eq : format.style with
  | magnitude =>
    have shown_quota : format.show? (format.quotaOf amount) places = some s := by
      rw [show?, style_eq]
      rw [showAmount?, style_eq] at shown
      exact shown
    simp [signsNoZero_of_show? shown_quota]
  | currency =>
    rw [showAmount?, style_eq] at shown
    obtain ⟨body, body_eq, rfl⟩ := Option.map_eq_some_iff.mp shown
    obtain ⟨coefficient, rfl, fades_iff, small_iff⟩ :=
      exists_ofScaled_of_abs amount.isFinite_finitePart body_eq
    have negative_iff : decide (amount.finitePart < 0) = true ↔ amount.finitePart.toRat < 0 := by
      have zero_eq : (0 : Binary64).toRat = 0 := by decide +kernel
      rw [decide_eq_true_iff,
        Binary64.lt_iff_toRat_lt amount.isFinite_finitePart (by decide +kernel), zero_eq]
    rw [signsNoZero_dollars_iff, negative_iff]
    constructor
    · simp [fades_iff]
    · intro few
      simp [small_iff few]

end QuotaFormat

/-! ### All texts -/

/-- Shown quota, the digits of a price and its badge are never a zero with a minus sign.  A shown
amount is one exactly in currency, below zero, if the text for its size has no digits but zeros, which
means, with up to six places, that it is less than half a unit of the last one. -/
theorem signsNoZero_of_shown (format : QuotaFormat) (q : Quota) (amount : Binary64) (places : Nat)
    (price : ModelPrice) :
  (∀ s, format.show? q places = some s → SignsNoZero s) ∧
  (∀ s, price.digits? = some s → SignsNoZero s) ∧
  (∀ s, price.badge? = some s → SignsNoZero s) ∧
  (∀ s, format.showAmount? amount places = some s →
    (SignsNoZero s ↔ ¬ (format.style = .currency ∧ amount.finitePart.toRat < 0 ∧
      amount.finitePart.Fades places)) ∧
    (places ≤ 6 → (SignsNoZero s ↔ ¬ (format.style = .currency ∧ amount.finitePart.toRat < 0 ∧
      |amount.finitePart.toRat| * 10 ^ places < 1 / 2))))
  := by
  refine ⟨?_, ?_, ?_, ?_⟩
  · intro s shown
    exact QuotaFormat.signsNoZero_of_show? shown
  · intro s shown
    exact ModelPrice.signsNoZero_of_digits? shown
  · intro s shown
    exact ModelPrice.signsNoZero_of_badge? shown
  · intro s shown
    exact QuotaFormat.signsNoZero_of_showAmount? shown

/-- A unit of quota below zero is shown as minus a cent, a very small negative price without a sign, and
a tenth of a cent below zero as minus zero. -/
theorem signsNoZero_of_shown_tenthOfCent :
  let price := ModelPrice.ofRatios (-0.0000001) 1
  (QuotaFormat.default.show? ⟨-1⟩ 2 = some "-$0.01" ∧ SignsNoZero "-$0.01") ∧
    (price.digits? = some "0" ∧ SignsNoZero "0") ∧
    (price.badge? = some "$0.00/M" ∧ SignsNoZero "$0.00/M") ∧
    (QuotaFormat.default.showAmount? (-0.001) 2 = some "-$0.00" ∧ ¬ SignsNoZero "-$0.00") ∧
    (QuotaFormat.default.showAmount? (-0.005) 2 = some "-$0.01" ∧ SignsNoZero "-$0.01")
  := by
  intro price
  have quota_eq : QuotaFormat.default.show? ⟨-1⟩ 2 = some "-$0.01" := by decide +kernel
  have digits_eq : price.digits? = some "0" := by decide +kernel
  have badge_eq : price.badge? = some "$0.00/M" := by decide +kernel
  have tenth_eq : QuotaFormat.default.showAmount? (-0.001) 2 = some "-$0.00" := by decide +kernel
  have half_eq : QuotaFormat.default.showAmount? (-0.005) 2 = some "-$0.01" := by decide +kernel
  obtain ⟨quota, digits, badge, tenth⟩ := signsNoZero_of_shown .default ⟨-1⟩ (-0.001) 2 price
  obtain ⟨-, -, -, half⟩ := signsNoZero_of_shown .default ⟨-1⟩ (-0.005) 2 price
  refine ⟨⟨quota_eq, quota _ quota_eq⟩, ⟨digits_eq, digits _ digits_eq⟩,
    ⟨badge_eq, badge _ badge_eq⟩, ⟨tenth_eq, ?_⟩, ⟨half_eq, ?_⟩⟩
  · rw [(tenth _ tenth_eq).2 (by decide), not_not]
    refine ⟨?_, ?_, ?_⟩ <;> decide +kernel
  · rw [(half _ half_eq).2 (by decide)]
    rintro ⟨-, -, small⟩
    revert small
    decide +kernel

/-- Some amount is shown as a zero with a minus sign. -/
theorem not_forall_signsNoZero :
  ¬ ∀ (format : QuotaFormat) (amount : Binary64) (places : Nat) (s : String),
    format.showAmount? amount places = some s → SignsNoZero s
  := by
  intro all
  have shown : QuotaFormat.default.showAmount? (-0.001) 2 = some "-$0.00" := by decide +kernel
  obtain ⟨c, c_mem, digit, c_ne⟩ := all .default (-0.001) 2 "-$0.00" shown (by decide)
  have zeros : ("-$0.00".toList.all fun c => c.isDigit → c = '0') = true := by decide
  exact c_ne (of_decide_eq_true (List.all_eq_true.mp zeros c c_mem) digit)

end Tariff
