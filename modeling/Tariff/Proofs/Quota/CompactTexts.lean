import Tariff.Proofs.Quota.CompactUnits
import Tariff.Proofs.RoundedTexts
import Tariff.Proofs.TrimmedTexts

/-!
# Texts of compact magnitudes

A compact magnitude is a numeral with the letter of its unit behind it, and denotes one number only:
the numeral has no letter.  Every quota has such a text, with its sign.  The numbers that the texts
denote are in the order of the quota, and as near to it as one place of the unit allows.
-/

namespace Tariff

/-- A numeral with the unit that it counts. -/
structure CompactNumeral where
  numeral : FixedNumeral
  unit : CompactUnit

namespace CompactNumeral

/-- The numeral with the letter of the unit. -/
def chars (n : CompactNumeral) : List Char :=
  n.numeral.chars ++ n.unit.letter

/-- The text of a numeral and its unit. -/
def text (n : CompactNumeral) : String :=
  String.ofList n.chars

/-- The number that a numeral and its unit denote. -/
def value (n : CompactNumeral) : ℚ :=
  n.numeral.value * n.unit.size

variable (n : CompactNumeral)

/-- What stands in front of the letter is the numeral. -/
theorem takeWhile_chars :
  n.chars.takeWhile (fun c => c.isDigit || c = '-' || c = '.') = n.numeral.chars
  := by
  rw [chars, List.takeWhile_append_of_pos]
  · cases n.unit <;> simp [CompactUnit.letter]
  · intro c c_mem
    rcases (n.numeral.mem_chars_iff c).mp c_mem with ⟨-, rfl⟩ | ⟨-, rfl⟩ | c_mem
    · rfl
    · rfl
    · rw [FixedNumeral.isDigit_of_mem c_mem, Bool.true_or, Bool.true_or]

/-- A numeral that is written with a minus sign in front. -/
theorem minus_append_text (coefficient places : Nat) (unit : CompactUnit) :
  "-" ++ (mk (.ofScaled false coefficient places) unit).text =
    (mk (.ofScaled true coefficient places) unit).text
  := by
  have minus : "-" = String.ofList ['-'] := rfl
  rw [text, text, chars, chars, minus, ← String.ofList_append, FixedNumeral.chars_ofScaled,
    FixedNumeral.chars_ofScaled]
  rfl

/-- A text has one unit and denotes one number at most. -/
theorem eq_of_text_eq {m n : CompactNumeral} (text_eq : m.text = n.text) :
  m.unit = n.unit ∧ m.value = n.value
  := by
  have chars_eq : m.chars = n.chars := String.ofList_injective text_eq
  have numeral_eq : m.numeral.chars = n.numeral.chars := by
    rw [← takeWhile_chars, ← takeWhile_chars, chars_eq]
  have unit_eq : m.unit = n.unit := by
    rw [chars, chars, numeral_eq, List.append_right_inj] at chars_eq
    apply CompactUnit.letter_injective chars_eq
  use unit_eq
  rw [value, value, unit_eq, FixedNumeral.value_eq_of_text_eq (congrArg String.ofList numeral_eq)]

end CompactNumeral

namespace CompactUnit

/-- A unit that is not one is found with its size and its letter. -/
theorem exists_listed?_eq {unit : CompactUnit} (other : unit ≠ ones) :
  ∃ start, unit.listed? = some (start, Binary64.ofInt unit.size, String.ofList unit.letter)
  := by
  cases unit with
  | ones => exact absurd rfl other
  | thousands => exact ⟨_, rfl⟩
  | millions => exact ⟨_, rfl⟩
  | billions => exact ⟨_, rfl⟩

/-- The text of a magnitude in a unit is that of the number shown for it. -/
theorem exists_inUnit? (unit : CompactUnit) {m : Nat} (m_le : m ≤ Binary64.maxFinite)
    (short : unit = ones → m ≤ pow2 53) :
  ∃ coefficient places,
    Quota.inUnit? m unit.listed? =
      some (CompactNumeral.mk (.ofScaled false coefficient places) unit).text ∧
    Decimal.scaled false coefficient places * unit.size = unit.rounded m
  := by
  by_cases one : unit = ones
  · obtain rfl := one
    have whole : pow10 0 = 1 := rfl
    use m, 0
    constructor
    · rw [listed?, Quota.inUnit?, CompactNumeral.text, CompactNumeral.chars,
        FixedNumeral.chars_ofScaled, letter, List.append_nil, Text.fixedPoint, whole, Nat.div_one,
        if_pos rfl, List.append_nil]
      rfl
    · rw [rounded_of_dvd (Nat.one_dvd m) (short rfl), Decimal.scaled, whole, size]
      simp
  · obtain ⟨start, listed_eq⟩ := exists_listed?_eq one
    obtain ⟨s, text_eq⟩ := Option.ne_none_iff_exists'.mp
      (fixedText?_ne_none (by decide : 1 < 3) (Binary64.ofInt m / Binary64.ofInt unit.size))
    obtain ⟨negative, coefficient, rfl, rounds⟩ := exists_roundsTo_of_fixedText? text_eq
    rw [Binary64.finitePart_of_isFinite
      (Binary64.isFinite_ofInt_div unit.size_pos unit.size_le m_le)] at rounds
    have unsigned : negative = false := by
      apply rounds.unsigned
      apply Binary64.negative_div (Binary64.negative_ofInt m) (Binary64.negative_ofInt _)
    subst unsigned
    use coefficient, 1
    constructor
    · rw [listed_eq, Quota.inUnit?, text_eq, Option.map_some, FixedNumeral.text,
        ← String.ofList_append]
      rfl
    · rw [rounds.rounded (by decide), rounded]

end CompactUnit

namespace Quota

/-- A quota is shown as this number. -/
def compactValue (q : Quota) : ℚ :=
  if q.isNegative then -CompactUnit.shown q.units.toInt.natAbs
  else CompactUnit.shown q.units.toInt.natAbs

/-- A quota is below zero. -/
theorem isNegative_iff (q : Quota) :
  q.isNegative = true ↔ q.units.toInt < 0
  := by
  rw [isNegative, decide_eq_true_iff, Int64.lt_iff_toInt_lt, Int64.toInt_zero]

/-- The magnitude of a quota is finite as a number. -/
theorem natAbs_units_le (q : Quota) :
  q.units.toInt.natAbs ≤ Binary64.maxFinite
  := Binary64.natAbs_toInt_le_maxFinite q.units

/-- Every magnitude has a compact text: a numeral without a sign, in the unit of the magnitude. -/
theorem exists_compactMagnitude? {magnitude : Nat} (le : magnitude ≤ Binary64.maxFinite) :
  ∃ coefficient places,
    compactMagnitude? magnitude =
      some (CompactNumeral.mk (.ofScaled false coefficient places) (.reached magnitude)).text ∧
    Decimal.scaled false coefficient places * (CompactUnit.reached magnitude).size =
      CompactUnit.shown magnitude
  := by
  rw [compactMagnitude?, CompactUnit.reachedUnit?_ofInt]
  apply CompactUnit.exists_inUnit? _ le
  intro full
  apply (CompactUnit.lt_of_reached_eq_ones full).le.trans (by decide)

/-- Every quota has a compact text: a numeral with its sign, in the unit of its magnitude. -/
theorem exists_compact? (q : Quota) :
  ∃ n : CompactNumeral, q.compact? = some n.text ∧ n.numeral.negative = q.isNegative ∧
    n.unit = .reached q.units.toInt.natAbs ∧ n.value = q.compactValue
  := by
  obtain ⟨coefficient, places, text_eq, value_eq⟩ := exists_compactMagnitude? q.natAbs_units_le
  use ⟨.ofScaled q.isNegative coefficient places, .reached q.units.toInt.natAbs⟩
  rw [compact?, compactValue, text_eq, CompactNumeral.value, FixedNumeral.value_ofScaled, ← value_eq,
    Option.map_some]
  cases q.isNegative with
  | true =>
    rw [if_pos rfl, if_pos rfl, CompactNumeral.minus_append_text]
    refine ⟨rfl, rfl, rfl, ?_⟩
    simp [Decimal.scaled, neg_div]
  | false =>
    rw [if_neg Bool.false_ne_true, if_neg Bool.false_ne_true]
    exact ⟨rfl, rfl, rfl, rfl⟩

/-- A quota below zero is shown as the opposite of its magnitude. -/
theorem compactValue_of_neg {q : Quota} (negative : q.units.toInt < 0) :
  q.compactValue = -CompactUnit.shown q.units.toInt.natAbs
  := if_pos (q.isNegative_iff.mpr negative)

/-- Any other quota is shown as its magnitude. -/
theorem compactValue_of_nonneg {q : Quota} (nonneg : 0 ≤ q.units.toInt) :
  q.compactValue = CompactUnit.shown q.units.toInt.natAbs
  := if_neg (mt q.isNegative_iff.mp nonneg.not_gt)

/-- The number that is shown grows with the quota. -/
theorem compactValue_mono {a b : Quota} (le : a.units ≤ b.units) :
  a.compactValue ≤ b.compactValue
  := by
  have le_int := Int64.le_iff_toInt_le.mp le
  rcases lt_or_ge a.units.toInt 0 with negative | nonneg
  · rw [compactValue_of_neg negative]
    rcases lt_or_ge b.units.toInt 0 with negative' | nonneg'
    · rw [compactValue_of_neg negative']
      apply neg_le_neg
      apply CompactUnit.shown_mono _ a.natAbs_units_le
      omega
    · rw [compactValue_of_nonneg nonneg']
      apply (neg_nonpos.mpr (CompactUnit.shown_nonneg _)).trans (CompactUnit.shown_nonneg _)
  · rw [compactValue_of_nonneg nonneg, compactValue_of_nonneg (nonneg.trans le_int)]
    apply CompactUnit.shown_mono _ b.natAbs_units_le
    omega

/-- The number shown for a quota is as far off as that for its magnitude. -/
theorem abs_compactValue_sub (q : Quota) :
  |q.compactValue - q.units.toInt| =
    |CompactUnit.shown q.units.toInt.natAbs - q.units.toInt.natAbs|
  := by
  rcases lt_or_ge q.units.toInt 0 with negative | nonneg
  · have magnitude_eq : (q.units.toInt : ℚ) = -(q.units.toInt.natAbs : ℚ) := by
      rw [Nat.cast_natAbs, abs_of_neg negative, Int.cast_neg, neg_neg]
    rw [compactValue_of_neg negative, magnitude_eq, neg_sub_neg, abs_sub_comm]
  · have magnitude_eq : (q.units.toInt : ℚ) = q.units.toInt.natAbs := by
      rw [Nat.cast_natAbs, abs_of_nonneg nonneg]
    rw [compactValue_of_nonneg nonneg, magnitude_eq]

/-- Every quota has a compact text, and the number that it denotes is no larger for a smaller
quota. -/
theorem value_le_of_compact? {a b : Quota} (le : a.units ≤ b.units) :
  (∃ m : CompactNumeral, a.compact? = some m.text) ∧
  (∃ n : CompactNumeral, b.compact? = some n.text) ∧
  ∀ m n : CompactNumeral, a.compact? = some m.text → b.compact? = some n.text →
    m.value ≤ n.value
  := by
  obtain ⟨m, a_text, -, -, m_value⟩ := a.exists_compact?
  obtain ⟨n, b_text, -, -, n_value⟩ := b.exists_compact?
  use ⟨m, a_text⟩, ⟨n, b_text⟩
  intro m' n' a_text' b_text'
  have m_text : m'.text = m.text := Option.some.inj (a_text'.symm.trans a_text)
  have n_text : n'.text = n.text := Option.some.inj (b_text'.symm.trans b_text)
  rw [(CompactNumeral.eq_of_text_eq m_text).2, (CompactNumeral.eq_of_text_eq n_text).2, m_value,
    n_value]
  apply compactValue_mono le

/-- The last quota in thousands is shown as a thousand of them, the first in millions as one. -/
theorem value_le_of_compact?_million :
  compact? ⟨999999⟩ = some "1000.0k" ∧ compact? ⟨1000000⟩ = some "1.0M" ∧
    ∃ m n : CompactNumeral, "1000.0k" = m.text ∧ "1.0M" = n.text ∧ m.value ≤ n.value
  := by
  have thousands : compact? ⟨999999⟩ = some "1000.0k" := by decide +kernel
  have millions : compact? ⟨1000000⟩ = some "1.0M" := by decide +kernel
  obtain ⟨⟨m, m_text⟩, ⟨n, n_text⟩, le⟩ :=
    value_le_of_compact? (by decide : (⟨999999⟩ : Quota).units ≤ (⟨1000000⟩ : Quota).units)
  use thousands, millions, m, n
  refine ⟨?_, ?_, le m n m_text n_text⟩
  · apply Option.some.inj (thousands.symm.trans m_text)
  · apply Option.some.inj (millions.symm.trans n_text)

/-- Every quota of up to `2 ^ 53` has a compact text, in thousands from ten thousand on, in millions
from a million on and in thousand millions from there on.  Below ten thousand the text denotes the
quota, and from there on a number that differs from it by up to a twentieth of the unit. -/
theorem abs_value_sub_le_of_compact? {q : Quota} (short : q.units.toInt.natAbs ≤ 2 ^ 53) :
  (∃ n : CompactNumeral, q.compact? = some n.text) ∧
  ∀ n : CompactNumeral, q.compact? = some n.text →
    n.unit = .reached q.units.toInt.natAbs ∧
    (q.units.toInt.natAbs < 10000 → n.value = q.units.toInt) ∧
    (10000 ≤ q.units.toInt.natAbs → |n.value - q.units.toInt| ≤ n.unit.size / 20)
  := by
  obtain ⟨m, m_text, -, m_unit, m_value⟩ := q.exists_compact?
  use ⟨m, m_text⟩
  intro n n_text
  obtain ⟨unit_eq, value_eq⟩ :=
    CompactNumeral.eq_of_text_eq (Option.some.inj (n_text.symm.trans m_text))
  have off := q.abs_compactValue_sub
  rw [unit_eq, value_eq, m_unit, m_value]
  refine ⟨rfl, ?_, ?_⟩
  · intro small
    rw [CompactUnit.shown_of_lt small, sub_self, abs_zero, abs_eq_zero, sub_eq_zero] at off
    exact off
  · intro large
    rw [off]
    apply CompactUnit.abs_shown_sub_le large short

/-- A quota of minus twelve million and some is shown in millions, with one place. -/
theorem abs_value_sub_le_of_compact?_millions :
  compact? ⟨-12345678⟩ = some "-12.3M" ∧
    ∃ n : CompactNumeral, "-12.3M" = n.text ∧ n.unit = .millions ∧
      |n.value - (-12345678 : ℤ)| ≤ 50000
  := by
  have shown : compact? ⟨-12345678⟩ = some "-12.3M" := by decide +kernel
  have short : (⟨-12345678⟩ : Quota).units.toInt.natAbs ≤ 2 ^ 53 := by decide
  have large : 10000 ≤ (⟨-12345678⟩ : Quota).units.toInt.natAbs := by decide
  obtain ⟨⟨n, n_text⟩, described⟩ := abs_value_sub_le_of_compact? short
  obtain ⟨unit_eq, -, near⟩ := described n n_text
  have millions : n.unit = .millions := unit_eq
  use shown, n, Option.some.inj (shown.symm.trans n_text), millions
  apply (near large).trans
  rw [millions]
  norm_num [CompactUnit.size]

end Quota

end Tariff
