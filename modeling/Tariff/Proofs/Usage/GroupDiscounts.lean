import Tariff.Proofs.Binary64.RoundedValues
import Tariff.Proofs.Usage.StatementForms

/-!
# Group discounts

A price is a chain of rounded products.  If none of its factors is negative, each product grows with
the ratio of the group, as far as the products at ratio one are finite.  Rounding to six places and
cutting zeros keep the order.  Hence a ratio of up to one does not raise a price that is shown.
-/

namespace Tariff

/-! ### Chains of products -/

namespace Binary64

variable {x x' y y' : Binary64}

/-- As far as the second number is finite, the first one is, and it is neither negative nor above the
second. -/
def Below (x y : Binary64) : Prop :=
  y.isFinite = true → x.isFinite = true ∧ 0 ≤ x.toRat ∧ x.toRat ≤ y.toRat

/-- A number that is not negative is not above itself. -/
theorem Below.refl (nonneg : 0 ≤ x.toRat) :
  Below x x
  := fun finite => ⟨finite, nonneg, le_rfl⟩

/-- The factors of a finite product are finite. -/
theorem isFinite_of_isFinite_mul (finite : (x * y).isFinite = true) :
  x.isFinite = true ∧ y.isFinite = true
  := by
  by_contra not_finite
  have mul_eq : x * y = nan ∨ ∃ negative, x * y = infinity negative := by
    have mul_eq : x * y = if x.isNaN || y.isNaN || x.isZero || y.isZero then nan
        else infinity (x.negative != y.negative) := by
      change mul x y = _
      rw [mul, if_neg (by simpa using not_finite)]
    rw [mul_eq]
    split
    case isTrue => exact .inl rfl
    case isFalse => exact .inr ⟨_, rfl⟩
  have nan_not : nan.isFinite = false := by decide
  have infinity_not : ∀ negative, (infinity negative).isFinite = false := by decide
  rcases mul_eq with eq | ⟨negative, eq⟩
  · rw [eq, nan_not] at finite
    cases finite
  · rw [eq, infinity_not] at finite
    cases finite

/-- Products grow with their factors. -/
theorem Below.mul (below : Below x x') (below' : Below y y') :
  Below (x * y) (x' * y')
  := by
  intro finite
  obtain ⟨x_finite', y_finite'⟩ := isFinite_of_isFinite_mul finite
  obtain ⟨x_finite, x_nonneg, x_le⟩ := below x_finite'
  obtain ⟨y_finite, y_nonneg, y_le⟩ := below' y_finite'
  have nonneg : 0 ≤ (x * y).toRat := by
    rw [(isNearest_mul x_finite y_finite).toRat_eq]
    apply rounded_nonneg (mul_nonneg x_nonneg y_nonneg)
  have le : (x * y).toRat ≤ (x' * y').toRat := by
    rw [(isNearest_mul x_finite y_finite).toRat_eq, (isNearest_mul x_finite' y_finite').toRat_eq]
    apply rounded_mono (mul_le_mul x_le y_le y_nonneg (x_nonneg.trans x_le))
  refine ⟨?_, nonneg, le⟩
  apply isFinite_of_abs_toRat_le finite
  rwa [abs_of_nonneg nonneg, abs_of_nonneg (nonneg.trans le)]

/-- Products of several factors grow with the first one. -/
theorem Below.foldl {factors : List Binary64} (below : Below x x')
    (nonneg : ∀ factor ∈ factors, 0 ≤ factor.toRat) :
  Below (factors.foldl (· * ·) x) (factors.foldl (· * ·) x')
  := by
  induction factors generalizing x x' with
  | nil => exact below
  | cons factor factors ih =>
    obtain ⟨factor_nonneg, others_nonneg⟩ := List.forall_mem_cons.mp nonneg
    apply ih (below.mul (.refl factor_nonneg)) others_nonneg

/-- The finite part of a number that is not below zero is not negative. -/
theorem toRat_finitePart_nonneg (nonneg : ¬ x < 0) :
  0 ≤ x.finitePart.toRat
  := by
  obtain ⟨zero_finite, zero_eq, zero_eq'⟩ :
      isFinite 0 = true ∧ toRat 0 = 0 ∧ (zero false).toRat = 0 := by
    decide +kernel
  rw [finitePart]
  split
  case isTrue finite =>
    rw [lt_iff_toRat_lt finite zero_finite, zero_eq, not_lt] at nonneg
    exact nonneg
  case isFalse => rw [zero_eq']

/-- The finite part of a number that is not above one is not above one. -/
theorem toRat_finitePart_le (le : ¬ 1 < x) :
  x.finitePart.toRat ≤ (1 : Binary64).finitePart.toRat
  := by
  obtain ⟨one_finite, zero_le⟩ : isFinite 1 = true ∧ (zero false).toRat ≤ toRat 1 := by
    decide +kernel
  rw [finitePart_of_isFinite one_finite, finitePart]
  split
  case isTrue finite =>
    rw [lt_iff_toRat_lt one_finite finite, not_lt] at le
    exact le
  case isFalse => exact zero_le

end Binary64

/-! ### Prices -/

namespace ModelPrice

open Binary64 (Below)

/-- The factors of a price behind its ratios. -/
def factors (price : ModelPrice) : List Binary64 :=
  (match price.basis with
    | .tokens => [tokenFactor]
    | .requests => [])
  ++ price.basePrice.finitePart :: (price.multiplier.map Binary64.finitePart).toList

/-- The product of all parts, of which a price is the finite part. -/
def total (price : ModelPrice) : Binary64 :=
  price.factors.foldl (· * ·) (price.ratio.finitePart * price.groupRatio.finitePart)

/-- A price is the finite part of its total. -/
theorem value_eq (price : ModelPrice) :
  price.value = price.total.finitePart
  := by
  rw [value, total, factors]
  cases price.basis <;> cases price.multiplier <;> rfl

/-- The price at ratio one of a group. -/
def undiscounted (price : ModelPrice) : ModelPrice :=
  { price with groupRatio := 1 }

/-- The total at ratio one has the same other factors. -/
theorem undiscounted_total (price : ModelPrice) :
  price.undiscounted.total =
    price.factors.foldl (· * ·) (price.ratio.finitePart * (1 : Binary64).finitePart)
  := by
  simp only [total, factors, undiscounted]

/-- No part of the price is negative, and the ratio of the group is not above one. -/
structure IsReduced (price : ModelPrice) : Prop where
  ratio_nonneg : ¬ price.ratio < 0
  groupRatio_nonneg : ¬ price.groupRatio < 0
  groupRatio_le : ¬ 1 < price.groupRatio
  basePrice_nonneg : ¬ price.basePrice < 0
  multiplier_nonneg : ∀ multiplier ∈ price.multiplier, ¬ multiplier < 0

variable {price : ModelPrice} (reduced : price.IsReduced)

include reduced

/-- The factors behind the ratios are not negative. -/
theorem toRat_nonneg_of_mem_factors :
  ∀ factor ∈ price.factors, 0 ≤ factor.toRat
  := by
  have factor_nonneg : 0 ≤ tokenFactor.toRat := by decide +kernel
  intro factor factor_mem
  rw [factors, List.mem_append, List.mem_cons] at factor_mem
  rcases factor_mem with basis_factor | rfl | multiplier_factor
  · cases basis_eq : price.basis with
    | tokens =>
      rw [basis_eq] at basis_factor
      obtain rfl := List.mem_singleton.mp basis_factor
      exact factor_nonneg
    | requests =>
      rw [basis_eq] at basis_factor
      cases basis_factor
  · apply Binary64.toRat_finitePart_nonneg reduced.basePrice_nonneg
  · obtain ⟨multiplier, multiplier_eq, rfl⟩ :=
      Option.map_eq_some_iff.mp (Option.mem_toList.mp multiplier_factor)
    apply Binary64.toRat_finitePart_nonneg (reduced.multiplier_nonneg multiplier multiplier_eq)

/-- The total is not above the one at ratio one. -/
theorem total_below :
  Below price.total price.undiscounted.total
  := by
  have ratio : Below price.ratio.finitePart price.ratio.finitePart :=
    .refl (Binary64.toRat_finitePart_nonneg reduced.ratio_nonneg)
  have group : Below price.groupRatio.finitePart (1 : Binary64).finitePart := fun _ =>
    ⟨Binary64.isFinite_finitePart _, Binary64.toRat_finitePart_nonneg reduced.groupRatio_nonneg,
      Binary64.toRat_finitePart_le reduced.groupRatio_le⟩
  rw [total, undiscounted_total]
  exact (ratio.mul group).foldl (toRat_nonneg_of_mem_factors reduced)

/-- A price that is finite at ratio one is not above the price there. -/
theorem toRat_value_le (finite : price.undiscounted.total.isFinite = true) :
  0 ≤ price.value.toRat ∧ price.value.toRat ≤ price.undiscounted.value.toRat
  := by
  obtain ⟨total_finite, nonneg, le⟩ := total_below reduced finite
  rw [value_eq, value_eq, Binary64.finitePart_of_isFinite total_finite,
    Binary64.finitePart_of_isFinite finite]
  exact ⟨nonneg, le⟩

omit reduced

/-- The digits of a price that is not negative denote it, rounded to six places. -/
theorem exists_numeral_of_digits? {s : String} (shown : price.digits? = some s)
    (nonneg : 0 ≤ price.value.toRat) :
  ∃ n : FixedNumeral, s = n.text ∧ n.value = roundAway places price.value.toRat
  := by
  obtain ⟨negative, coefficient, rfl, rounded⟩ := exists_ofScaled_of_digits? shown
  have value_eq := FixedNumeral.value_ofScaled negative coefficient places
  rw [rounded] at value_eq
  refine ⟨_, rfl, ?_⟩
  rw [FixedNumeral.value_trimmed_of_nonneg, value_eq]
  rw [value_eq, ← roundAway_zero places]
  apply roundAway_mono places le_rfl nonneg

include reduced

/-- The digits of a price do not denote more than those of the price at ratio one. -/
theorem value_le_of_digits? {actual full : String} (shown : price.digits? = some actual)
    (shown' : price.undiscounted.digits? = some full)
    (finite : price.undiscounted.total.isFinite = true) :
  ∃ n m : FixedNumeral, actual = n.text ∧ full = m.text ∧ 0 ≤ n.value ∧ n.value ≤ m.value
  := by
  obtain ⟨nonneg, le⟩ := toRat_value_le reduced finite
  obtain ⟨n, n_text, n_value⟩ := exists_numeral_of_digits? shown nonneg
  obtain ⟨m, m_text, m_value⟩ := exists_numeral_of_digits? shown' (nonneg.trans le)
  refine ⟨n, m, n_text, m_text, ?_, ?_⟩
  · rw [n_value, ← roundAway_zero places]
    apply roundAway_mono places le_rfl nonneg
  · rw [n_value, m_value]
    apply roundAway_mono places nonneg le

end ModelPrice

/-! ### Lines -/

namespace UsageTerms

/-- The ratio and the multiplier of a category. -/
def rates (terms : UsageTerms) (inputRatio : Binary64) :
    ChargeCategory → Binary64 × Option Binary64
  | .input => (inputRatio, none)
  | .output => (terms.outputRatio, none)
  | .cacheWrite => (inputRatio, some terms.cacheWriteRatio)
  | .cacheRead => (inputRatio, some terms.cacheReadRatio)
  | .reasoning => (terms.outputRatio, some terms.reasoningRatio)
  | .request => (inputRatio, none)

/-- No ratio is negative, and the ratio of the group is not above one. -/
structure IsReduced (terms : UsageTerms) (inputRatio : Binary64) : Prop where
  inputRatio_nonneg : ¬ inputRatio < 0
  outputRatio_nonneg : ¬ terms.outputRatio < 0
  cacheWriteRatio_nonneg : ¬ terms.cacheWriteRatio < 0
  cacheReadRatio_nonneg : ¬ terms.cacheReadRatio < 0
  reasoningRatio_nonneg : ¬ terms.reasoningRatio < 0
  groupRatio_nonneg : ¬ terms.groupRatio < 0
  groupRatio_le : ¬ 1 < terms.groupRatio

/-- No category has a negative ratio or multiplier. -/
theorem IsReduced.rates_nonneg {terms : UsageTerms} {inputRatio : Binary64}
    (reduced : terms.IsReduced inputRatio) (category : ChargeCategory) :
  ¬ (terms.rates inputRatio category).1 < 0 ∧
    ∀ multiplier ∈ (terms.rates inputRatio category).2, ¬ multiplier < 0
  := by
  have some_nonneg {x : Binary64} (nonneg : ¬ x < 0) : ∀ multiplier ∈ some x, ¬ multiplier < 0 := by
    rintro _ ⟨⟩
    exact nonneg
  have none_nonneg : ∀ multiplier ∈ (none : Option Binary64), ¬ multiplier < 0 := by
    rintro _ ⟨⟩
  cases category with
  | input => exact ⟨reduced.inputRatio_nonneg, none_nonneg⟩
  | output => exact ⟨reduced.outputRatio_nonneg, none_nonneg⟩
  | cacheWrite => exact ⟨reduced.inputRatio_nonneg, some_nonneg reduced.cacheWriteRatio_nonneg⟩
  | cacheRead => exact ⟨reduced.inputRatio_nonneg, some_nonneg reduced.cacheReadRatio_nonneg⟩
  | reasoning => exact ⟨reduced.outputRatio_nonneg, some_nonneg reduced.reasoningRatio_nonneg⟩
  | request => exact ⟨reduced.inputRatio_nonneg, none_nonneg⟩

end UsageTerms

namespace StatementStyle

variable {style : StatementStyle} {entry : UsageEntry} {terms : UsageTerms} {inputRatio : Binary64}

/-- The price of a category at ratio one of a group. -/
def fullPrice (style : StatementStyle) (terms : UsageTerms) (inputRatio : Binary64)
    (category : ChargeCategory) : ModelPrice :=
  style.linePrice terms (category, terms.rates inputRatio category) 1

/-- A category is priced by its ratio and its multiplier. -/
theorem rates_of_mem_categories {part : ChargeCategory × Binary64 × Option Binary64}
    (part_mem : part ∈ categories terms inputRatio) :
  part = (part.1, terms.rates inputRatio part.1)
  := by
  have of_mem_ite {p : Prop} [Decidable p] {x : ChargeCategory × Binary64 × Option Binary64}
      (mem : part ∈ if p then [x] else []) : part = x := by
    split at mem
    case isTrue => exact List.mem_singleton.mp mem
    case isFalse => cases mem
  rw [categories, List.mem_append, List.mem_append, List.mem_append] at part_mem
  rcases part_mem with ((basis_part | special_part) | special_part) | special_part
  · cases basis_eq : terms.basis with
    | tokens =>
      rw [basis_eq] at basis_part
      rcases List.mem_pair.mp basis_part with rfl | rfl <;> rfl
    | requests =>
      rw [basis_eq] at basis_part
      rw [List.mem_singleton.mp basis_part]
      rfl
  all_goals
    rw [of_mem_ite special_part]
    rfl

/-- What is shown in detail is made from the terms of the entry. -/
theorem breakdown?_of_statement? {breakdown : Breakdown}
    (shown : style.statement? entry = some (.detailed breakdown)) (terms_eq : entry.terms = some terms)
    (ratio_eq : terms.inputRatio = some inputRatio) :
  style.breakdown? entry terms inputRatio = some breakdown
  := by
  rcases statement?_eq_some shown with
    ⟨terms', inputRatio', _, terms_eq', ratio_eq', made, ⟨⟩⟩ | ⟨-, ⟨-, ⟨⟩⟩ | ⟨-, _, ⟨⟩⟩⟩
  cases terms_eq.symm.trans terms_eq'
  cases ratio_eq.symm.trans ratio_eq'
  exact made

/-- If nothing has a negative price, and the ratio of the group is not above one, no line of a statement
in detail whose full price is finite shows an actual price above the full one; at ratio one the two are
shown as the same text. -/
theorem actual_le_full {breakdown : Breakdown} {line : StatementLine}
    (shown : style.statement? entry = some (.detailed breakdown)) (terms_eq : entry.terms = some terms)
    (ratio_eq : terms.inputRatio = some inputRatio) (base_nonneg : ¬ style.basePrice < 0)
    (reduced : terms.IsReduced inputRatio) (line_mem : line ∈ breakdown.lines)
    (finite : (style.fullPrice terms inputRatio line.category).total.isFinite = true) :
  (∃ actual full : FixedNumeral, line.actual = actual.text ∧ line.full = full.text ∧
      0 ≤ actual.value ∧ actual.value ≤ full.value) ∧
    (terms.groupRatio = 1 → line.actual = line.full)
  := by
  obtain ⟨lines, total, lines_eq, -, rfl⟩ :=
    breakdown?_eq_some (breakdown?_of_statement? shown terms_eq ratio_eq)
  obtain ⟨part, part_mem, line_eq⟩ := exists_part_of_mem lines_eq line_mem
  obtain ⟨full, actual, full_eq, actual_eq, rfl⟩ := line?_eq_some line_eq
  have rates_eq := rates_of_mem_categories part_mem
  obtain ⟨ratio_nonneg, multiplier_nonneg⟩ := reduced.rates_nonneg part.1
  rw [rates_eq] at full_eq actual_eq
  constructor
  · have price_reduced : (style.linePrice terms (part.1, terms.rates inputRatio part.1)
        terms.groupRatio).IsReduced :=
      ⟨ratio_nonneg, reduced.groupRatio_nonneg, reduced.groupRatio_le, base_nonneg,
        multiplier_nonneg⟩
    exact ModelPrice.value_le_of_digits? price_reduced actual_eq full_eq finite
  · intro one
    rw [one, full_eq] at actual_eq
    exact (Option.some.inj actual_eq).symm

/-- At half the price tokens read from a cache cost ten cents instead of twenty. -/
theorem actual_le_full_halfPrice :
  ∃ breakdown, usual.statement? halfPriceEntry = some (.detailed breakdown) ∧
    ⟨.cacheRead, "0.2", "0.1", .tokens, true⟩ ∈ breakdown.lines ∧
    ∃ actual full : FixedNumeral, "0.1" = actual.text ∧ "0.2" = full.text ∧
      0 ≤ actual.value ∧ actual.value ≤ full.value
  := by
  have made : ∃ terms, halfPriceEntry.terms = some terms ∧ terms.inputRatio = some 1 ∧
      terms.IsReduced 1 ∧ (usual.fullPrice terms 1 .cacheRead).total.isFinite = true ∧
      (usual.lines? terms 1).any (⟨.cacheRead, "0.2", "0.1", .tokens, true⟩ ∈ ·) = true := by
    refine ⟨_, rfl, rfl, ?_, by decide +kernel, by decide +kernel⟩
    constructor <;> decide +kernel
  obtain ⟨terms, terms_eq, ratio_eq, reduced, finite, listed⟩ := made
  have is_shown : (usual.statement? halfPriceEntry).isSome = true := by decide +kernel
  obtain ⟨statement, shown⟩ := Option.isSome_iff_exists.mp is_shown
  rcases statement?_eq_some shown with
    ⟨_, _, breakdown, terms_eq', ratio_eq', made, rfl⟩ | ⟨unknown, -⟩
  · obtain rfl := Option.some.inj (terms_eq.symm.trans terms_eq')
    obtain rfl := Option.some.inj (ratio_eq.symm.trans ratio_eq')
    obtain ⟨lines, total, lines_eq, -, breakdown_eq⟩ := breakdown?_eq_some made
    rw [lines_eq, Option.any_some, decide_eq_true_iff] at listed
    have line_mem : ⟨.cacheRead, "0.2", "0.1", .tokens, true⟩ ∈ breakdown.lines := by
      rw [breakdown_eq]
      exact listed
    obtain ⟨bounded, -⟩ := actual_le_full shown terms_eq ratio_eq (by decide +kernel) reduced
      line_mem finite
    exact ⟨breakdown, shown, line_mem, bounded⟩
  · rw [terms_eq, Option.bind_some, ratio_eq] at unknown
    cases unknown

end StatementStyle

end Tariff
