import Tariff.Proofs.TopUp.ChargeOrder

/-!
# Charges beyond the decimals

Each step of a charge is computed from the results of the steps before it, and its exact number may
be above all decimals or below them.  The largest decimal takes the place of a number above.  The
lowest one should take the place of a number below, and does while rounding leads to it; from half a
unit further down there is no result to round to, and the largest decimal takes the place again, so
that a step below zero has a result above it.  It takes a negative fee to get there.
-/

namespace Tariff

/-! ### Numbers beyond the decimals -/

namespace Decimal

variable {x y : ℚ}

/-- The highest number below zero that is not rounded to any decimal, like all numbers below it. -/
def lowerLimit : ℚ :=
  -(2 ^ 96 - 1 / 2)

/-- The value of the largest decimal. -/
theorem toRat_max :
  max.toRat = 2 ^ 96 - 1
  := by
  have value_eq : max.toRat = (pow2 96 - 1 : Nat) := rfl
  rw [value_eq]
  norm_num [pow2]

/-- The numbers that are not rounded to any decimal are below all decimals. -/
theorem lowerLimit_lt :
  lowerLimit < -max.toRat
  := by
  rw [lowerLimit, toRat_max]
  norm_num

/-- No decimal is larger in size than the largest one. -/
theorem abs_toRat_le (d : Decimal) :
  |d.toRat| ≤ max.toRat
  := by
  have coefficient_le : d.coefficient ≤ pow2 96 - 1 := Nat.le_sub_one_of_lt d.coefficient_lt
  have one_le : (1 : ℚ) ≤ pow10 d.scale := Nat.one_le_cast.mpr (pow10_pos _)
  have max_eq : max.toRat = (pow2 96 - 1 : Nat) := rfl
  rw [toRat_eq_scaled, abs_scaled, max_eq]
  apply (div_le_self (Nat.cast_nonneg _) one_le).trans
  exact Nat.cast_le.mpr coefficient_le

/-- The largest decimal is not negative. -/
theorem max_nonneg :
  0 ≤ max.toRat
  := (abs_nonneg _).trans max.abs_toRat_le

/-- The largest decimal takes the place of a number above all decimals. -/
theorem kept_of_max_lt (lt : max.toRat < x) :
  kept x = max.toRat
  := by
  apply le_antisymm (kept_le_max (max_nonneg.trans lt.le))
  exact le_kept max_nonneg lt.le ⟨max, rfl⟩

/-- A number that is not positive keeps some of its value above the lower limit. -/
theorem exists_kept_eq (above : lowerLimit < x) (nonpos : x ≤ 0) :
  ∃ v, kept? x = some v ∧ kept x = v
  := by
  have small : |x| < 2 ^ 96 - 1 / 2 := by
    rw [lowerLimit] at above
    rw [abs_of_nonpos nonpos]
    linarith
  obtain ⟨v, kept_eq⟩ := Option.isSome_iff_exists.mp (isSome_kept?_iff.mpr small)
  exact ⟨v, kept_eq, by rw [kept, kept_eq, Option.getD_some]⟩

/-- The lowest decimal takes the place of a number below all decimals, above the lower limit. -/
theorem kept_of_lt_neg_max (above : lowerLimit < x) (lt : x < -max.toRat) :
  kept x = -max.toRat
  := by
  have nonpos : x ≤ 0 := lt.le.trans (neg_nonpos.mpr max_nonneg)
  obtain ⟨v, kept_eq, place_eq⟩ := exists_kept_eq above nonpos
  have opposite : kept (-x) = -v := by
    rw [kept, kept?_neg, kept_eq]
    rfl
  rw [place_eq, ← kept_of_max_lt (lt_neg_of_lt_neg lt), opposite, neg_neg]

/-- The largest decimal takes the place of a number that reaches the lower limit. -/
theorem kept_of_le_lowerLimit (le : x ≤ lowerLimit) :
  kept x = max.toRat
  := by
  have large : ¬ |x| < 2 ^ 96 - 1 / 2 := by
    rw [lowerLimit] at le
    rw [not_lt, ← abs_neg]
    exact (by linarith : (2 : ℚ) ^ 96 - 1 / 2 ≤ -x).trans (le_abs_self _)
  have none : kept? x = none := by
    rw [← Option.not_isSome_iff_eq_none, isSome_kept?_iff]
    exact large
  rw [kept, none, Option.getD_none]

/-! ### Results that clamp -/

/-- Beside a number beyond all decimals stands the decimal that is nearest to it. -/
structure Clamps (x y : ℚ) : Prop where
  above : max.toRat < x → y = max.toRat
  below : x < -max.toRat → y = -max.toRat

/-- A result takes the place of a number: it is what is kept of the number, perhaps rounded again. -/
def StandsFor (y x : ℚ) : Prop :=
  y = kept x ∨ ∃ places, y = roundAway places (kept x)

/-- The largest decimal is not changed by rounding. -/
theorem roundAway_max (places : Nat) :
  roundAway places max.toRat = max.toRat
  := roundAway_natCast places (pow2 96 - 1)

/-- If the largest decimal takes the place of a number, it is the result. -/
theorem StandsFor.eq_max (stands : StandsFor y x) (kept_eq : kept x = max.toRat) :
  y = max.toRat
  := by
  rcases stands with rfl | ⟨places, rfl⟩
  · exact kept_eq
  · rw [kept_eq, roundAway_max]

/-- If the lowest decimal takes the place of a number, it is the result. -/
theorem StandsFor.eq_neg_max (stands : StandsFor y x) (kept_eq : kept x = -max.toRat) :
  y = -max.toRat
  := by
  rcases stands with rfl | ⟨places, rfl⟩
  · exact kept_eq
  · rw [kept_eq, roundAway_neg, roundAway_max]

/-- A result clamps exactly if its number is above the lower limit. -/
theorem StandsFor.clamps_iff (stands : StandsFor y x) :
  Clamps x y ↔ lowerLimit < x
  := by
  constructor
  · intro clamps
    by_contra low
    have result_eq := stands.eq_max (kept_of_le_lowerLimit (not_lt.mp low))
    have opposite := clamps.below ((not_lt.mp low).trans_lt lowerLimit_lt)
    rw [toRat_max] at result_eq opposite
    linarith
  · intro above
    constructor
    · intro lt
      apply stands.eq_max (kept_of_max_lt lt)
    · intro lt
      apply stands.eq_neg_max (kept_of_lt_neg_max above lt)

/-- A number that is not positive has no positive result above the lower limit. -/
theorem StandsFor.nonpos (stands : StandsFor y x) (above : lowerLimit < x) (nonpos : x ≤ 0) :
  y ≤ 0
  := by
  obtain ⟨v, kept_eq, place_eq⟩ := exists_kept_eq above nonpos
  have kept_nonpos : kept x ≤ 0 := place_eq ▸ kept?_nonpos nonpos kept_eq
  rcases stands with rfl | ⟨places, rfl⟩
  · exact kept_nonpos
  · rw [← roundAway_zero places]
    apply monotone_roundAway places kept_nonpos

end Decimal

/-! ### The steps of a charge -/

/-- A step of a charge: the exact number for the results of the steps before it, and its result. -/
structure Charge.Step where
  exact : ℚ
  result : Decimal

/-- The result of a step clamps towards the exact number. -/
def Charge.Step.Clamps (step : Charge.Step) : Prop :=
  Decimal.Clamps step.exact step.result.toRat

namespace PaymentChannel

open Decimal (kept_nonneg lowerLimit StandsFor)

variable {channel : PaymentChannel}

/-- The steps of a charge: the discounted amount, the fee, the sum of both, which is the total in the
home currency, and the value of the sum as the total in any other one. -/
def steps (channel : PaymentChannel) (charge : Charge) (exchangeRate : Decimal) :
    List Charge.Step :=
  let sum := Decimal.orMax (charge.discounted.add? charge.fee)
  let exactSum := charge.discounted.toRat + charge.fee.toRat
  [⟨charge.amount.toRat * charge.multiplier.toRat, charge.discounted⟩,
    ⟨channel.exactFee charge.discounted.toRat, charge.fee⟩] ++
  if channel.isForeign then
    [⟨exactSum, sum⟩, ⟨sum.toRat * exactRate exchangeRate.toRat, charge.total⟩]
  else [⟨exactSum, charge.total⟩]

/-- The result of each step takes the place of its exact number. -/
theorem standsFor_of_mem_steps {amount exchangeRate : Decimal} {discounts : DiscountSchedule}
    {step : Charge.Step}
    (mem : step ∈ channel.steps (channel.charge amount discounts exchangeRate) exchangeRate) :
  StandsFor step.result.toRat step.exact
  := by
  have total_eq : (channel.charge amount discounts exchangeRate).total =
      let charge := channel.charge amount discounts exchangeRate
      let sum := Decimal.orMax (charge.discounted.add? charge.fee)
      if channel.isForeign then
        (Decimal.orMax (sum.mul? (rateInForce exchangeRate))).roundPlaces chargePlaces
      else sum := rfl
  have discounted_eq : (channel.charge amount discounts exchangeRate).discounted =
      let charge := channel.charge amount discounts exchangeRate
      .orMax (charge.amount.mul? charge.multiplier) := rfl
  have fee_eq : (channel.charge amount discounts exchangeRate).fee =
      channel.fee (channel.charge amount discounts exchangeRate).discounted := rfl
  generalize channel.charge amount discounts exchangeRate = charge at *
  have discounted_stands :
      StandsFor charge.discounted.toRat (charge.amount.toRat * charge.multiplier.toRat) := by
    left
    rw [discounted_eq, Decimal.toRat_orMax_product]
  have fee_stands : StandsFor charge.fee.toRat (channel.exactFee charge.discounted.toRat) := by
    left
    rw [fee_eq, toRat_fee_eq_keptFee, keptFee_eq_kept]
  have sum_stands : StandsFor (Decimal.orMax (charge.discounted.add? charge.fee)).toRat
      (charge.discounted.toRat + charge.fee.toRat) := by
    left
    rw [Decimal.toRat_orMax_sum]
  rw [steps, List.mem_append] at mem
  rcases mem with mem | mem
  · rcases List.mem_pair.mp mem with rfl | rfl
    · exact discounted_stands
    · exact fee_stands
  · split at mem
    case isTrue foreign =>
      rw [if_pos foreign] at total_eq
      rcases List.mem_pair.mp mem with rfl | rfl
      · exact sum_stands
      · right
        use chargePlaces
        rw [total_eq, Decimal.toRat_roundPlaces, Decimal.toRat_orMax_product, toRat_rateInForce]
    case isFalse home =>
      rw [if_neg home] at total_eq
      obtain rfl := List.mem_singleton.mp mem
      rw [total_eq]
      exact sum_stands

/-- Without a negative fee the exact number of no step is negative. -/
theorem exact_nonneg_of_mem_steps {amount exchangeRate : Decimal} {discounts : DiscountSchedule}
    {step : Charge.Step} (fixed_nonneg : ∀ fixed ∈ channel.fixedFee, .zero ≤ fixed)
    (rate_nonneg : ∀ rate ∈ channel.feeRate, .zero ≤ rate)
    (mem : step ∈ channel.steps (channel.charge amount discounts exchangeRate) exchangeRate) :
  0 ≤ step.exact
  := by
  have values_eq := channel.values_eq_keptCharge amount discounts exchangeRate
  generalize channel.charge amount discounts exchangeRate = charge at *
  have amount_nonneg : 0 ≤ charge.amount.toRat :=
    (le_max_right _ _).trans_eq (congrArg Charge.Values.amount values_eq).symm
  have multiplier_nonneg : 0 ≤ charge.multiplier.toRat :=
    (discounts.exactMultiplier_pos _).le.trans_eq
      (congrArg Charge.Values.multiplier values_eq).symm
  have discounted_nonneg : 0 ≤ charge.discounted.toRat :=
    (kept_nonneg (mul_nonneg (le_max_right _ _) (discounts.exactMultiplier_pos _).le)).trans_eq
      (congrArg Charge.Values.discounted values_eq).symm
  have fee_nonneg : 0 ≤ charge.fee.toRat := by
    have fee_eq : charge.fee.toRat = channel.keptFee charge.discounted.toRat :=
      (congrArg Charge.Values.fee values_eq).trans
        (congrArg channel.keptFee (congrArg Charge.Values.discounted values_eq).symm)
    rw [fee_eq]
    exact keptFee_nonneg fixed_nonneg rate_nonneg discounted_nonneg
  have sum_nonneg := add_nonneg discounted_nonneg fee_nonneg
  rw [steps, List.mem_append] at mem
  rcases mem with mem | mem
  · rcases List.mem_pair.mp mem with rfl | rfl
    · exact mul_nonneg amount_nonneg multiplier_nonneg
    · exact exactFee_nonneg fixed_nonneg rate_nonneg discounted_nonneg
  · split at mem
    case isTrue =>
      rcases List.mem_pair.mp mem with rfl | rfl
      · exact sum_nonneg
      · apply mul_nonneg _ (exactRate_pos _).le
        rw [Decimal.toRat_orMax_sum]
        exact kept_nonneg sum_nonneg
    case isFalse =>
      obtain rfl := List.mem_singleton.mp mem
      exact sum_nonneg

/-- The result of a step clamps towards its exact number exactly if this is above the lower limit.
The largest decimal is the result otherwise, so that a step below zero is then one above zero, which
no other step becomes.  Without a negative fee all results clamp. -/
theorem clamps_steps (channel : PaymentChannel) (amount : Decimal) (discounts : DiscountSchedule)
    (exchangeRate : Decimal) :
  let steps := channel.steps (channel.charge amount discounts exchangeRate) exchangeRate
  (∀ step ∈ steps,
    (step.Clamps ↔ lowerLimit < step.exact) ∧
    (step.exact ≤ lowerLimit → step.result.toRat = Decimal.max.toRat) ∧
    (lowerLimit < step.exact → step.exact ≤ 0 → step.result.toRat ≤ 0)) ∧
  ((∀ fixed ∈ channel.fixedFee, .zero ≤ fixed) → (∀ rate ∈ channel.feeRate, .zero ≤ rate) →
    ∀ step ∈ steps, step.Clamps)
  := by
  intro steps
  constructor
  · intro step mem
    have stands := standsFor_of_mem_steps mem
    use stands.clamps_iff
    constructor
    · intro low
      apply stands.eq_max (Decimal.kept_of_le_lowerLimit low)
    · apply stands.nonpos
  · intro fixed_nonneg rate_nonneg step mem
    have exact_nonneg := exact_nonneg_of_mem_steps fixed_nonneg rate_nonneg mem
    have limit_neg : lowerLimit < 0 := by norm_num [lowerLimit]
    apply (standsFor_of_mem_steps mem).clamps_iff.mpr (limit_neg.trans_le exact_nonneg)

/-- A channel with a rate of minus ten thousand millions. -/
def refunding : PaymentChannel where
  name := "refund"
  feeRate := some ⟨true, 10000000000, 0, by decide, Decimal.no_places_le⟩

/-- The amount of ten to the twentieth. -/
def hugeAmount : Decimal :=
  ⟨false, 100000000000000000000, 0, by decide, Decimal.no_places_le⟩

/-- The step that computes the fee for the huge amount. -/
def refundedFee : Charge.Step :=
  let charge := refunding.charge hugeAmount .empty .one
  ⟨refunding.exactFee charge.discounted.toRat, charge.fee⟩

/-- The fee is computed in a step of the charge. -/
theorem refundedFee_mem :
  refundedFee ∈ refunding.steps (refunding.charge hugeAmount .empty .one) .one
  := by
  rw [steps]
  simp [refundedFee]

/-- The exact fee for the huge amount is minus ten to the thirtieth. -/
theorem exact_refundedFee :
  refundedFee.exact = -10 ^ 30
  := by
  decide +kernel

/-- The fee of minus ten to the thirtieth turns into the largest decimal, and with a rate of three
hundredths all results for the largest amount clamp. -/
theorem clamps_steps_refunding :
  (refundedFee.exact = -10 ^ 30 ∧ ¬ refundedFee.Clamps ∧ refundedFee.result.toRat = 2 ^ 96 - 1) ∧
  let channel : PaymentChannel :=
    { name := "card", feeRate := some ⟨false, 3, 2, by decide, by decide⟩ }
  ∀ step ∈ channel.steps (channel.charge .max .empty .one) .one, step.Clamps
  := by
  constructor
  · have low : refundedFee.exact ≤ lowerLimit := by
      rw [exact_refundedFee, lowerLimit]
      norm_num
    obtain ⟨clamps_iff, largest, -⟩ :=
      (refunding.clamps_steps hugeAmount .empty .one).1 refundedFee refundedFee_mem
    refine ⟨exact_refundedFee, ?_, ?_⟩
    · rw [clamps_iff]
      exact not_lt.mpr low
    · rw [largest low, Decimal.toRat_max]
  · intro channel
    have fixed_nonneg : ∀ fixed ∈ channel.fixedFee, .zero ≤ fixed := by decide
    have rate_nonneg : ∀ rate ∈ channel.feeRate, .zero ≤ rate := by decide +kernel
    exact (channel.clamps_steps .max .empty .one).2 fixed_nonneg rate_nonneg

/-- Not every result clamps towards its exact number. -/
theorem not_forall_clamps :
  ¬ ∀ (channel : PaymentChannel) (amount : Decimal) (discounts : DiscountSchedule)
    (exchangeRate : Decimal),
    ∀ step ∈ channel.steps (channel.charge amount discounts exchangeRate) exchangeRate, step.Clamps
  := by
  intro all
  have fee_clamps := all refunding hugeAmount .empty .one refundedFee refundedFee_mem
  have result_eq : refundedFee.result = .max := by decide +kernel
  rw [Charge.Step.Clamps, exact_refundedFee, result_eq] at fee_clamps
  have opposite := fee_clamps.below (by rw [Decimal.toRat_max]; norm_num)
  rw [Decimal.toRat_max] at opposite
  norm_num at opposite

end PaymentChannel

end Tariff
