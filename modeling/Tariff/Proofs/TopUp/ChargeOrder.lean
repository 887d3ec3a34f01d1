import Tariff.Proofs.Decimal.Results
import Tariff.Proofs.TopUp.Charges

/-!
# The order of charges

Each part of a charge is what a decimal keeps of a product or a sum of earlier parts, or the largest
decimal if it keeps nothing.  Both keep the order of numbers, so that no rounding or replacement on the
way changes on which side of the amount the discounted amount lies, nor which of two charges at the
same multiplier is the larger one.
-/

namespace Tariff

namespace Decimal

/-- What takes the place of a product. -/
theorem toRat_orMax_product (a b : Decimal) :
  (orMax (a.mul? b)).toRat = kept (a.toRat * b.toRat)
  := by
  rw [kept, ← map_mul?]
  cases a.mul? b with
  | none => rfl
  | some c => rfl

/-- What takes the place of a sum. -/
theorem toRat_orMax_sum (a b : Decimal) :
  (orMax (a.add? b)).toRat = kept (a.toRat + b.toRat)
  := by
  rw [kept, ← map_add?]
  cases a.add? b with
  | none => rfl
  | some c => rfl

end Decimal

/-- Multipliers are positive. -/
theorem DiscountSchedule.exactMultiplier_pos (schedule : DiscountSchedule) (amount : ℚ) :
  0 < schedule.exactMultiplier amount
  := by
  rw [exactMultiplier]
  cases found : schedule.entries.find? fun e => amount = e.1.toRat with
  | none => exact one_pos
  | some e => exact Decimal.lt_iff.mp (schedule.positive e (List.mem_of_find?_eq_some found))

namespace PaymentChannel

open Decimal (kept kept_mono)

variable {channel : PaymentChannel}

/-! ### Charges as they are kept -/

/-- The amount that is credited: a negative amount counts as zero. -/
def credited (amount : Decimal) : Decimal :=
  if amount < .zero then .zero else amount

/-- The value of the amount that is credited. -/
theorem toRat_credited (amount : Decimal) :
  (credited amount).toRat = max amount.toRat 0
  := Decimal.toRat_clamp amount

/-- The fee for a discounted amount: the fixed fee if there is one, else what is kept of the rate's
share. -/
def keptFee (channel : PaymentChannel) (discounted : ℚ) : ℚ :=
  match channel.fixedFee, channel.feeRate with
  | some fixed, _ => fixed.toRat
  | none, some rate => kept (discounted * rate.toRat)
  | none, none => 0

/-- The fee is what takes the place of the exact fee. -/
theorem keptFee_eq_kept (discounted : ℚ) :
  channel.keptFee discounted = kept (channel.exactFee discounted)
  := by
  rcases channel with ⟨name, currency, _ | fixed, _ | rate⟩
  · exact (Decimal.kept_of_isValue ⟨.zero, Decimal.toRat_zero⟩).symm
  · rfl
  · exact (Decimal.kept_of_isValue ⟨fixed, rfl⟩).symm
  · exact (Decimal.kept_of_isValue ⟨fixed, rfl⟩).symm

/-- The total for a discounted amount with its fee: in a foreign currency what is kept of its value
there, rounded. -/
def keptTotal (channel : PaymentChannel) (sum exchangeRate : ℚ) : ℚ :=
  if channel.isForeign then roundAway chargePlaces (kept (sum * exactRate exchangeRate)) else sum

/-- The charge for topping up an amount, of which each part is kept as a decimal can hold it. -/
def keptCharge (channel : PaymentChannel) (amount : ℚ) (discounts : DiscountSchedule)
    (exchangeRate : ℚ) : Charge.Values :=
  let amount := Max.max amount 0
  let multiplier := discounts.exactMultiplier amount
  let discounted := kept (amount * multiplier)
  let fee := channel.keptFee discounted
  let total := channel.keptTotal (kept (discounted + fee)) exchangeRate
  { amount, multiplier, discounted, fee, total }

/-- The fee is what is kept for the value of the discounted amount. -/
theorem toRat_fee_eq_keptFee (discounted : Decimal) :
  (channel.fee discounted).toRat = channel.keptFee discounted.toRat
  := by
  rcases channel with ⟨name, currency, _ | fixed, _ | rate⟩
  · exact Decimal.toRat_zero
  · exact Decimal.toRat_orMax_product discounted rate
  · rfl
  · rfl

/-- The parts of a charge are kept step by step, whatever they are. -/
theorem values_eq_keptCharge (amount : Decimal) (discounts : DiscountSchedule)
    (exchangeRate : Decimal) :
  (channel.charge amount discounts exchangeRate).values =
    channel.keptCharge amount.toRat discounts exchangeRate.toRat
  := by
  rw [keptCharge, ← Decimal.toRat_clamp amount]
  simp only [Charge.values, charge, keptTotal, discounts.toRat_multiplier, Decimal.toRat_orMax_product,
    Decimal.toRat_orMax_sum, toRat_fee_eq_keptFee, toRat_rateInForce, apply_ite Decimal.toRat,
    Decimal.toRat_roundPlaces]

end PaymentChannel

/-! ### Savings -/

/-- Amount, discounted amount and savings of a charge compare as the multiplier says. -/
structure Charge.SavesFairly (charge : Charge) (savings : Decimal) : Prop where
  amount_nonneg : .zero ≤ charge.amount
  discounted_nonneg : .zero ≤ charge.discounted
  reduced : charge.multiplier < .one →
    charge.discounted ≤ charge.amount ∧ .zero ≤ savings ∧ savings ≤ charge.amount
  unchanged : compare charge.multiplier .one = .eq →
    compare charge.discounted charge.amount = .eq ∧ compare savings .zero = .eq
  raised : .one < charge.multiplier → charge.amount ≤ charge.discounted ∧ savings ≤ .zero

/-- A charge of which the discounted amount is what is kept of the product has savings. -/
theorem Charge.exists_savings? {charge : Charge} (amount_nonneg : 0 ≤ charge.amount.toRat)
    (multiplier_pos : 0 < charge.multiplier.toRat)
    (discounted_eq : charge.discounted.toRat =
      Decimal.kept (charge.amount.toRat * charge.multiplier.toRat)) :
  ∃ savings, charge.savings? = some savings ∧ charge.SavesFairly savings
  := by
  have product_nonneg : 0 ≤ charge.amount.toRat * charge.multiplier.toRat :=
    mul_nonneg amount_nonneg multiplier_pos.le
  have amount_value : Decimal.IsValue charge.amount.toRat := ⟨charge.amount, rfl⟩
  have discounted_nonneg : 0 ≤ charge.discounted.toRat :=
    discounted_eq ▸ Decimal.kept_nonneg product_nonneg
  have reduced (le : charge.multiplier.toRat ≤ 1) :
      charge.discounted.toRat ≤ charge.amount.toRat := by
    rw [discounted_eq]
    exact Decimal.kept_le product_nonneg (mul_le_of_le_one_right amount_nonneg le) amount_value
  have raised (le : 1 ≤ charge.multiplier.toRat) :
      charge.amount.toRat ≤ charge.discounted.toRat := by
    rw [discounted_eq]
    exact Decimal.le_kept amount_nonneg (le_mul_of_one_le_right amount_nonneg le) amount_value
  obtain ⟨savings, savings_eq, saved, lost⟩ :=
    Decimal.exists_sub? amount_nonneg discounted_nonneg
  refine ⟨savings, savings_eq, ?_⟩
  constructor
  case amount_nonneg => exact Decimal.le_iff.mpr amount_nonneg
  case discounted_nonneg => exact Decimal.le_iff.mpr discounted_nonneg
  case reduced =>
    intro below
    have le := reduced (Decimal.lt_iff.mp below).le
    exact ⟨Decimal.le_iff.mpr le, Decimal.le_iff.mpr (saved le).1, Decimal.le_iff.mpr (saved le).2⟩
  case unchanged =>
    intro one
    have multiplier_eq : charge.multiplier.toRat = 1 := Decimal.compare_eq_iff.mp one
    have le := reduced multiplier_eq.le
    have ge := raised multiplier_eq.ge
    exact ⟨Decimal.compare_eq_iff.mpr (le_antisymm le ge),
      Decimal.compare_eq_iff.mpr (le_antisymm (lost ge) (saved le).1)⟩
  case raised =>
    intro above
    have ge := raised (Decimal.lt_iff.mp above).le
    exact ⟨Decimal.le_iff.mpr ge, Decimal.le_iff.mpr (lost ge)⟩

/-- Every charge has savings, and they compare as its multiplier says. -/
theorem PaymentChannel.exists_savings?_charge (channel : PaymentChannel) (amount : Decimal)
    (discounts : DiscountSchedule) (exchangeRate : Decimal) :
  ∃ savings, (channel.charge amount discounts exchangeRate).savings? = some savings ∧
    (channel.charge amount discounts exchangeRate).SavesFairly savings
  := by
  have values_eq := channel.values_eq_keptCharge amount discounts exchangeRate
  generalize channel.charge amount discounts exchangeRate = charge at values_eq ⊢
  have amount_eq : charge.amount.toRat = max amount.toRat 0 :=
    congrArg Charge.Values.amount values_eq
  have multiplier_eq : charge.multiplier.toRat = discounts.exactMultiplier charge.amount.toRat :=
    (congrArg Charge.Values.multiplier values_eq).trans
      (congrArg discounts.exactMultiplier amount_eq.symm)
  apply Charge.exists_savings?
  · rw [amount_eq]
    exact le_max_right _ _
  · rw [multiplier_eq]
    exact discounts.exactMultiplier_pos _
  · rw [multiplier_eq, amount_eq]
    exact congrArg Charge.Values.discounted values_eq

/-! ### Larger amounts -/

namespace PaymentChannel

open Decimal (kept kept_mono kept_nonneg)

variable {channel : PaymentChannel}

/-- A fee that is not negative grows with the discounted amount. -/
theorem keptFee_mono {d e : ℚ} (rate_nonneg : ∀ rate ∈ channel.feeRate, .zero ≤ rate)
    (nonneg : 0 ≤ d) (le : d ≤ e) :
  channel.keptFee d ≤ channel.keptFee e
  := by
  rcases channel with ⟨name, currency, _ | fixed, _ | rate⟩
  · exact le_refl _
  · have rate_nonneg : 0 ≤ rate.toRat := Decimal.le_iff.mp (rate_nonneg rate rfl)
    exact kept_mono (mul_nonneg nonneg rate_nonneg) (mul_le_mul_of_nonneg_right le rate_nonneg)
  · exact le_refl _
  · exact le_refl _

/-- The exact fee is not negative if no fee is. -/
theorem exactFee_nonneg {d : ℚ} (fixed_nonneg : ∀ fixed ∈ channel.fixedFee, .zero ≤ fixed)
    (rate_nonneg : ∀ rate ∈ channel.feeRate, .zero ≤ rate) (nonneg : 0 ≤ d) :
  0 ≤ channel.exactFee d
  := by
  rcases channel with ⟨name, currency, _ | fixed, _ | rate⟩
  · exact le_refl _
  · exact mul_nonneg nonneg (Decimal.le_iff.mp (rate_nonneg rate rfl))
  · exact Decimal.le_iff.mp (fixed_nonneg fixed rfl)
  · exact Decimal.le_iff.mp (fixed_nonneg fixed rfl)

/-- The fee is not negative if no fee is. -/
theorem keptFee_nonneg {d : ℚ} (fixed_nonneg : ∀ fixed ∈ channel.fixedFee, .zero ≤ fixed)
    (rate_nonneg : ∀ rate ∈ channel.feeRate, .zero ≤ rate) (nonneg : 0 ≤ d) :
  0 ≤ channel.keptFee d
  := by
  rw [keptFee_eq_kept]
  exact kept_nonneg (exactFee_nonneg fixed_nonneg rate_nonneg nonneg)

/-- Rates in force are positive. -/
theorem exactRate_pos (exchangeRate : ℚ) :
  0 < exactRate exchangeRate
  := by
  rw [exactRate]
  split
  case isTrue positive => exact positive
  case isFalse => exact one_pos

/-- The total grows with the sum. -/
theorem keptTotal_mono {s t : ℚ} (exchangeRate : ℚ) (nonneg : 0 ≤ s) (le : s ≤ t) :
  channel.keptTotal s exchangeRate ≤ channel.keptTotal t exchangeRate
  := by
  have rate_nonneg : 0 ≤ exactRate exchangeRate := (exactRate_pos exchangeRate).le
  have converted_nonneg := mul_nonneg nonneg rate_nonneg
  rw [keptTotal, keptTotal]
  split
  case isTrue =>
    apply roundAway_mono _ (kept_nonneg converted_nonneg)
    exact kept_mono converted_nonneg (mul_le_mul_of_nonneg_right le rate_nonneg)
  case isFalse => exact le

/-- The total of nothing is nothing. -/
theorem keptTotal_zero (exchangeRate : ℚ) :
  channel.keptTotal 0 exchangeRate = 0
  := by
  rw [keptTotal, zero_mul, Decimal.kept_of_isValue ⟨.zero, Decimal.toRat_zero⟩, roundAway_zero,
    ite_self]

/-- No part of a charge that is kept step by step shrinks with a larger amount at one multiplier. -/
theorem keptCharge_mono {discounts : DiscountSchedule} {x y : ℚ} (exchangeRate : ℚ)
    (fixed_nonneg : ∀ fixed ∈ channel.fixedFee, .zero ≤ fixed)
    (rate_nonneg : ∀ rate ∈ channel.feeRate, .zero ≤ rate) (le : x ≤ y)
    (same : discounts.exactMultiplier (max x 0) = discounts.exactMultiplier (max y 0)) :
  let small := channel.keptCharge x discounts exchangeRate
  let large := channel.keptCharge y discounts exchangeRate
  small.discounted ≤ large.discounted ∧ small.fee ≤ large.fee ∧
    0 ≤ small.total ∧ small.total ≤ large.total
  := by
  have multiplier_nonneg := (discounts.exactMultiplier_pos (max x 0)).le
  have product_nonneg := mul_nonneg (le_max_right x 0) multiplier_nonneg
  have product_le := mul_le_mul_of_nonneg_right (max_le_max_right 0 le) multiplier_nonneg
  have discounted_nonneg := kept_nonneg product_nonneg
  have discounted_le := kept_mono product_nonneg product_le
  have fee_nonneg := keptFee_nonneg fixed_nonneg rate_nonneg discounted_nonneg
  have fee_le := keptFee_mono rate_nonneg discounted_nonneg discounted_le
  have sum_nonneg := add_nonneg discounted_nonneg fee_nonneg
  have sum_le := kept_mono sum_nonneg (add_le_add discounted_le fee_le)
  have total_le := channel.keptTotal_mono exchangeRate (kept_nonneg sum_nonneg) sum_le
  have total_nonneg := channel.keptTotal_mono exchangeRate (le_refl 0) (kept_nonneg sum_nonneg)
  rw [keptTotal_zero] at total_nonneg
  rw [keptCharge, keptCharge, ← same]
  exact ⟨discounted_le, fee_le, total_nonneg, total_le⟩

/-- No part of a charge shrinks with a larger amount at one multiplier, unless a fee is negative. -/
theorem charge_mono (channel : PaymentChannel) (discounts : DiscountSchedule)
    (exchangeRate : Decimal) {a b : Decimal}
    (fixed_nonneg : ∀ fixed ∈ channel.fixedFee, .zero ≤ fixed)
    (rate_nonneg : ∀ rate ∈ channel.feeRate, .zero ≤ rate) (le : a ≤ b)
    (same : compare (discounts.multiplier (credited a)) (discounts.multiplier (credited b)) = .eq) :
  let small := channel.charge a discounts exchangeRate
  let large := channel.charge b discounts exchangeRate
  small.discounted ≤ large.discounted ∧ small.fee ≤ large.fee ∧
    .zero ≤ small.total ∧ small.total ≤ large.total
  := by
  rw [Decimal.compare_eq_iff, discounts.toRat_multiplier, discounts.toRat_multiplier,
    toRat_credited, toRat_credited] at same
  obtain ⟨discounted_le, fee_le, total_nonneg, total_le⟩ := keptCharge_mono exchangeRate.toRat
    fixed_nonneg rate_nonneg (Decimal.le_iff.mp le) same
  rw [← values_eq_keptCharge] at total_nonneg
  rw [← values_eq_keptCharge, ← values_eq_keptCharge] at discounted_le fee_le total_le
  exact ⟨Decimal.le_iff.mpr discounted_le, Decimal.le_iff.mpr fee_le,
    Decimal.le_iff.mpr total_nonneg, Decimal.le_iff.mpr total_le⟩

/-- The larger of two amounts may be too large for its charge. -/
theorem charge_mono_largest :
  let channel : PaymentChannel :=
    { name := "alipay", currency := "CNY", feeRate := some ⟨false, 3, 2, by decide, by decide⟩ }
  let rate : Decimal := ⟨false, 731, 2, by decide, by decide⟩
  let amount : Decimal := ⟨false, 1005, 1, by decide, by decide⟩
  let small := channel.charge amount .empty rate
  let large := channel.charge .max .empty rate
  amount ≤ .max ∧ small.discounted ≤ large.discounted ∧ small.fee ≤ large.fee ∧
    .zero ≤ small.total ∧ small.total ≤ large.total
  := by
  intro channel rate amount small large
  have le : amount ≤ .max := by decide +kernel
  have fixed_nonneg : ∀ fixed ∈ channel.fixedFee, .zero ≤ fixed := by decide
  have rate_nonneg : ∀ rate ∈ channel.feeRate, .zero ≤ rate := by decide +kernel
  exact ⟨le, charge_mono channel .empty rate fixed_nonneg rate_nonneg le (by decide +kernel)⟩

end PaymentChannel

end Tariff
