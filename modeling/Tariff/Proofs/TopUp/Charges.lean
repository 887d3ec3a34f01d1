import Tariff.Proofs.Decimal.Results
import Tariff.TopUp.Channel

/-!
# Exact charges

A charge is computed in decimals, and is meant as a computation with rational numbers.  The main
statement says that the two agree whenever decimals can hold the exact parts of the charge, with one
rounding, that of the total in a foreign currency.
-/

namespace Tariff

open Decimal (IsValue)

/-- The parts of a charge as rational numbers. -/
@[ext]
structure Charge.Values where
  amount : ℚ
  multiplier : ℚ
  discounted : ℚ
  fee : ℚ
  total : ℚ

/-- The numbers that the parts of a charge stand for. -/
def Charge.values (charge : Charge) : Charge.Values where
  amount := charge.amount.toRat
  multiplier := charge.multiplier.toRat
  discounted := charge.discounted.toRat
  fee := charge.fee.toRat
  total := charge.total.toRat

/-! ### Charges in rational numbers -/

/-- The multiplier for the amounts with a value, one if there is none. -/
def DiscountSchedule.exactMultiplier (schedule : DiscountSchedule) (amount : ℚ) : ℚ :=
  ((schedule.entries.find? fun e => amount = e.1.toRat).map (·.2.toRat)).getD 1

namespace PaymentChannel

/-- The fee for a discounted amount: the fixed fee if there is one, else the rate's share. -/
def exactFee (channel : PaymentChannel) (discounted : ℚ) : ℚ :=
  match channel.fixedFee, channel.feeRate with
  | some fixed, _ => fixed.toRat
  | none, some rate => discounted * rate.toRat
  | none, none => 0

/-- An exchange rate that is not positive counts as one. -/
def exactRate (exchangeRate : ℚ) : ℚ :=
  if 0 < exchangeRate then exchangeRate else 1

/-- The charge for topping up an amount, computed without rounding but for the total in a foreign
currency. -/
def exactCharge (channel : PaymentChannel) (amount : ℚ) (discounts : DiscountSchedule)
    (exchangeRate : ℚ) : Charge.Values :=
  let amount := Max.max amount 0
  let multiplier := discounts.exactMultiplier amount
  let discounted := amount * multiplier
  let fee := channel.exactFee discounted
  let sum := discounted + fee
  let total :=
    if channel.isForeign then roundAway chargePlaces (sum * exactRate exchangeRate) else sum
  { amount, multiplier, discounted, fee, total }

end PaymentChannel

/-- Decimals can hold what is computed for a charge before the total is rounded. -/
structure Charge.Values.Held (values : Charge.Values) (foreign : Bool) (exchangeRate : ℚ) : Prop where
  discounted : IsValue values.discounted
  fee : IsValue values.fee
  sum : IsValue (values.discounted + values.fee)
  converted : foreign = true →
    IsValue ((values.discounted + values.fee) * PaymentChannel.exactRate exchangeRate)

/-! ### The two computations agree -/

namespace Decimal

variable {a b : Decimal}

/-- A product that a decimal can hold is not replaced. -/
theorem toRat_orMax_mul? (value : IsValue (a.toRat * b.toRat)) :
  (orMax (a.mul? b)).toRat = a.toRat * b.toRat
  := by
  obtain ⟨c, mul_eq, c_eq⟩ := mul?_exact value
  rw [mul_eq]
  exact c_eq

/-- A sum that a decimal can hold is not replaced. -/
theorem toRat_orMax_add? (value : IsValue (a.toRat + b.toRat)) :
  (orMax (a.add? b)).toRat = a.toRat + b.toRat
  := by
  obtain ⟨c, add_eq, c_eq⟩ := add?_exact value
  rw [add_eq]
  exact c_eq

/-- A negative amount counts as zero. -/
theorem toRat_clamp (a : Decimal) :
  (if a < .zero then zero else a).toRat = Max.max a.toRat 0
  := by
  split
  case isTrue negative =>
    have lt := lt_iff.mp negative
    rw [toRat_zero] at lt ⊢
    exact (max_eq_right lt.le).symm
  case isFalse not_negative =>
    have not_lt := mt lt_iff.mpr not_negative
    rw [toRat_zero] at not_lt
    exact (max_eq_left (le_of_not_gt not_lt)).symm

end Decimal

/-- The multiplier for an amount is that for its value. -/
theorem DiscountSchedule.toRat_multiplier (schedule : DiscountSchedule) (amount : Decimal) :
  (schedule.multiplier amount).toRat = schedule.exactMultiplier amount.toRat
  := by
  have found_eq (entries : List (Decimal × Decimal)) :
      (Assoc.find? amount.normalize entries).map Decimal.toRat =
        (entries.find? fun e => amount.toRat = e.1.toRat).map (·.2.toRat) := by
    induction entries with
    | nil => rfl
    | cons e entries ih =>
      rw [Assoc.find?, List.find?_cons]
      by_cases same : amount.toRat = e.1.toRat
      · have equal : compare amount.normalize e.1 = .eq :=
          Decimal.compare_eq_iff.mpr ((Decimal.toRat_normalize amount).trans same)
        simp [same, equal]
      · have unequal : ¬ compare amount.normalize e.1 = .eq := fun equal =>
          same ((Decimal.toRat_normalize amount).symm.trans (Decimal.compare_eq_iff.mp equal))
        simp [same, unequal, ih]
  rw [exactMultiplier, entries, ← found_eq, multiplier, get?, SortedMap.find?]
  cases Assoc.find? amount.normalize schedule.multipliers.entries with
  | none => exact Decimal.toRat_one
  | some m => rfl

namespace PaymentChannel

variable {channel : PaymentChannel}

/-- A fee that a decimal can hold is that for the value of the discounted amount. -/
theorem toRat_fee {discounted : Decimal} (value : IsValue (channel.exactFee discounted.toRat)) :
  (channel.fee discounted).toRat = channel.exactFee discounted.toRat
  := by
  rcases channel with ⟨name, currency, _ | fixed, _ | rate⟩
  · exact Decimal.toRat_zero
  · exact Decimal.toRat_orMax_mul? value
  · rfl
  · rfl

/-- The rate in force is that for the value of the rate. -/
theorem toRat_rateInForce (exchangeRate : Decimal) :
  (rateInForce exchangeRate).toRat = exactRate exchangeRate.toRat
  := by
  have positive_iff : .zero < exchangeRate ↔ 0 < exchangeRate.toRat := by
    rw [Decimal.lt_iff, Decimal.toRat_zero]
  rw [rateInForce, exactRate, apply_ite Decimal.toRat, Decimal.toRat_one]
  exact if_congr positive_iff rfl rfl

/-- The parts of a charge are exact if decimals can hold what is computed for them. -/
theorem values_charge {amount exchangeRate : Decimal} {discounts : DiscountSchedule}
    (held : (channel.exactCharge amount.toRat discounts exchangeRate.toRat).Held
      channel.isForeign exchangeRate.toRat) :
  (channel.charge amount discounts exchangeRate).values =
    channel.exactCharge amount.toRat discounts exchangeRate.toRat
  := by
  obtain ⟨discounted_held, fee_held, sum_held, converted_held⟩ := held
  generalize exact_eq : channel.exactCharge amount.toRat discounts exchangeRate.toRat = exact at *
  generalize charge_eq : channel.charge amount discounts exchangeRate = charge
  have amount_eq : charge.amount.toRat = exact.amount := by
    rw [← charge_eq, ← exact_eq]
    exact Decimal.toRat_clamp amount
  have multiplier_eq : charge.multiplier.toRat = exact.multiplier := by
    have table_eq : exact.multiplier = discounts.exactMultiplier exact.amount := by
      rw [← exact_eq]
      rfl
    have computed : charge.multiplier = discounts.multiplier charge.amount := by
      rw [← charge_eq]
      rfl
    rw [table_eq, computed, discounts.toRat_multiplier, amount_eq]
  have discounted_eq : charge.discounted.toRat = exact.discounted := by
    have product_eq : exact.discounted = charge.amount.toRat * charge.multiplier.toRat := by
      rw [amount_eq, multiplier_eq, ← exact_eq]
      rfl
    have computed : charge.discounted = .orMax (charge.amount.mul? charge.multiplier) := by
      rw [← charge_eq]
      rfl
    rw [product_eq] at discounted_held ⊢
    rw [computed, Decimal.toRat_orMax_mul? discounted_held]
  have fee_eq : charge.fee.toRat = exact.fee := by
    have share_eq : exact.fee = channel.exactFee charge.discounted.toRat := by
      rw [discounted_eq, ← exact_eq]
      rfl
    have computed : charge.fee = channel.fee charge.discounted := by
      rw [← charge_eq]
      rfl
    rw [share_eq] at fee_held ⊢
    rw [computed, toRat_fee fee_held]
  have total_eq : charge.total.toRat = exact.total := by
    rw [← discounted_eq, ← fee_eq] at sum_held converted_held
    have sum_eq := Decimal.toRat_orMax_add? sum_held
    have exact_total : exact.total =
        if channel.isForeign then
          roundAway chargePlaces
            ((charge.discounted.toRat + charge.fee.toRat) * exactRate exchangeRate.toRat)
        else charge.discounted.toRat + charge.fee.toRat := by
      rw [discounted_eq, fee_eq, ← exact_eq]
      rfl
    have computed : charge.total =
        if channel.isForeign then
          (Decimal.orMax ((Decimal.orMax (charge.discounted.add? charge.fee)).mul?
            (rateInForce exchangeRate))).roundPlaces chargePlaces
        else .orMax (charge.discounted.add? charge.fee) := by
      rw [← charge_eq]
      rfl
    rw [exact_total, computed]
    cases foreign : channel.isForeign with
    | false => exact sum_eq
    | true =>
      have converted := converted_held foreign
      rw [← sum_eq, ← toRat_rateInForce] at converted ⊢
      rw [if_pos rfl, if_pos rfl, Decimal.toRat_roundPlaces, Decimal.toRat_orMax_mul? converted]
  exact Charge.Values.ext amount_eq multiplier_eq discounted_eq fee_eq total_eq

/-- The total in a foreign currency that lies halfway between two amounts is the larger one. -/
theorem values_charge_halfway :
  let channel : PaymentChannel :=
    { name := "alipay", currency := "CNY", feeRate := some ⟨false, 2, 2, by decide, by decide⟩ }
  let ten : Decimal := ⟨false, 100, 1, by decide, by decide⟩
  let half : Decimal := ⟨false, 5, 1, by decide, by decide⟩
  let discounts := DiscountSchedule.ofList [(ten, ⟨false, 95, 2, by decide, by decide⟩)]
  (channel.exactCharge ten.toRat discounts half.toRat).Held channel.isForeign half.toRat ∧
    (channel.charge ten discounts half).values = ⟨10, 19 / 20, 19 / 2, 19 / 100, 97 / 20⟩
  := by
  intro channel ten half discounts
  have exact_eq : channel.exactCharge ten.toRat discounts half.toRat =
      ⟨10, 19 / 20, 19 / 2, 19 / 100, 97 / 20⟩ := by
    apply Charge.Values.ext <;> decide +kernel
  have held : (channel.exactCharge ten.toRat discounts half.toRat).Held channel.isForeign
      half.toRat := by
    rw [exact_eq]
    exact
      { discounted := ⟨⟨false, 95, 1, by decide, by decide⟩, by decide +kernel⟩
        fee := ⟨⟨false, 19, 2, by decide, by decide⟩, by decide +kernel⟩
        sum := ⟨⟨false, 969, 2, by decide, by decide⟩, by decide +kernel⟩
        converted := fun _ => ⟨⟨false, 4845, 3, by decide, by decide⟩, by decide +kernel⟩ }
  exact ⟨held, (values_charge held).trans exact_eq⟩

end PaymentChannel

end Tariff
