import Mathlib.Data.Finset.Card
import Mathlib.Data.List.Sort
import Tariff.Proofs.TopUp.Traversal

/-!
# Last multipliers

Amounts are one if their values are, whatever their places and the sign of zero.  The main statement
says what a schedule holds after any insertions: its amounts ascend, each of them has the last
positive multiplier that was inserted for its value, and the insertions of other multipliers have
left no trace.
-/

namespace Tariff.DiscountSchedule

variable {pairs : List (Decimal × Decimal)}

/-- The pairs with a positive multiplier. -/
def counted (pairs : List (Decimal × Decimal)) : List (Decimal × Decimal) :=
  pairs.filter fun p => 0 < p.2.toRat

/-- A multiplier is positive if its value is. -/
theorem zero_lt_iff_toRat {d : Decimal} :
  Decimal.zero < d ↔ 0 < d.toRat
  := by
  rw [Decimal.lt_iff, Decimal.toRat_zero]

/-- The pairs that are inserted are those with a positive multiplier. -/
theorem inserted_eq (pairs : List (Decimal × Decimal)) :
  inserted pairs = (counted pairs).map fun p => (p.1.normalize, p.2)
  := by
  simp only [inserted, counted, zero_lt_iff_toRat]

/-- The last positive multiplier for an amount is the one that it has. -/
theorem get?_ofList (pairs : List (Decimal × Decimal)) (amount : Decimal) :
  (ofList pairs).get? amount =
    ((counted pairs).reverse.find? fun p => p.1.toRat = amount.toRat).map (·.2)
  := by
  have same_iff (p : Decimal × Decimal) :
      compare amount.normalize p.1.normalize = .eq ↔ p.1.toRat = amount.toRat := by
    rw [Decimal.compare_normalize, Decimal.compare_eq_iff, eq_comm]
  rw [get?, multipliers_ofList, SortedMap.find?_ofList, inserted_eq, ← List.map_reverse,
    List.find?_map, Option.map_map]
  simp only [Function.comp_def, same_iff]

/-- The values of the amounts of a schedule ascend. -/
theorem pairwise_amounts (schedule : DiscountSchedule) :
  (schedule.entries.map (·.1.toRat)).Pairwise (· < ·)
  := by
  apply List.pairwise_map.mpr
  apply schedule.multipliers.ascending.imp
  intro e f lt
  exact Decimal.lt_iff.mp lt

/-- An amount has a multiplier exactly if its value is among those of the amounts. -/
theorem isSome_get?_iff (schedule : DiscountSchedule) (amount : Decimal) :
  (schedule.get? amount).isSome = true ↔ amount.toRat ∈ schedule.entries.map (·.1.toRat)
  := by
  have there_iff : (schedule.get? amount).isSome = true ↔
      ∃ e ∈ schedule.entries, compare amount.normalize e.1 = .eq := Assoc.isSome_find?_iff
  rw [there_iff, List.mem_map]
  simp only [Decimal.compare_eq_iff, Decimal.toRat_normalize, eq_comm (a := amount.toRat)]

/-- The amounts have the values of those that have been given a positive multiplier. -/
theorem mem_amounts_iff {value : ℚ} :
  value ∈ (ofList pairs).entries.map (·.1.toRat) ↔ value ∈ (counted pairs).map (·.1.toRat)
  := by
  have given_iff (amount : Decimal) : amount.toRat ∈ (ofList pairs).entries.map (·.1.toRat) ↔
      amount.toRat ∈ (counted pairs).map (·.1.toRat) := by
    rw [← isSome_get?_iff, get?_ofList, Option.isSome_map, List.find?_isSome]
    simp
  constructor
  · intro value_mem
    obtain ⟨e, -, rfl⟩ := List.mem_map.mp value_mem
    exact (given_iff e.1).mp value_mem
  · intro value_mem
    obtain ⟨p, -, rfl⟩ := List.mem_map.mp value_mem
    exact (given_iff p.1).mpr value_mem

/-- There are as many amounts as different values that have been given a multiplier. -/
theorem size_ofList (pairs : List (Decimal × Decimal)) :
  (ofList pairs).size = ((counted pairs).map (·.1.toRat)).toFinset.card
  := by
  have distinct : ((ofList pairs).entries.map (·.1.toRat)).Nodup :=
    (pairwise_amounts _).imp fun lt => ne_of_lt lt
  have same : ((ofList pairs).entries.map (·.1.toRat)).toFinset =
      ((counted pairs).map (·.1.toRat)).toFinset := by
    ext value
    rw [List.mem_toFinset, List.mem_toFinset, mem_amounts_iff]
  rw [← same, List.toFinset_card_of_nodup distinct, List.length_map]
  rfl

/-- A multiplier is refused exactly if it is not positive, and then the schedule stays as it is. -/
theorem insert?_refused_iff (schedule : DiscountSchedule) (amount multiplier : Decimal) :
  (schedule.insert? amount multiplier = none ↔ multiplier.toRat ≤ 0) ∧
    (multiplier.toRat ≤ 0 → schedule.insert amount multiplier = schedule)
  := by
  have refused_iff : schedule.insert? amount multiplier = none ↔ multiplier.toRat ≤ 0 := by
    rw [insert?_eq_none_iff, zero_lt_iff_toRat, not_lt]
  refine ⟨refused_iff, fun not_positive => ?_⟩
  rw [insert, refused_iff.mpr not_positive, Option.getD_none]

/-- The multiplier for an amount is positive. -/
theorem multiplier_pos (schedule : DiscountSchedule) (amount : Decimal) :
  0 < (schedule.multiplier amount).toRat
  := by
  rw [← zero_lt_iff_toRat, multiplier]
  cases found : schedule.get? amount with
  | none => decide
  | some multiplier =>
    obtain ⟨e, e_mem, rfl⟩ := Assoc.exists_mem_of_find? found
    exact schedule.positive e e_mem

/-- A schedule holds for each amount the last positive multiplier that was inserted for its value, and
nothing else. -/
theorem ofList_holds_last (pairs : List (Decimal × Decimal)) :
  ((ofList pairs).entries.map (·.1.toRat)).Pairwise (· < ·) ∧
    (∀ e ∈ (ofList pairs).entries, 0 < e.2.toRat) ∧
    (ofList pairs).size = ((counted pairs).map (·.1.toRat)).toFinset.card ∧
    (∀ amount, (ofList pairs).get? amount =
      ((counted pairs).reverse.find? fun p => p.1.toRat = amount.toRat).map (·.2)) ∧
    (∀ amount multiplier,
      ((ofList pairs).insert? amount multiplier = none ↔ multiplier.toRat ≤ 0) ∧
        (multiplier.toRat ≤ 0 → (ofList pairs).insert amount multiplier = ofList pairs)) ∧
    ∀ amount, 0 < ((ofList pairs).multiplier amount).toRat
  := by
  refine ⟨pairwise_amounts _, ?_, size_ofList pairs, get?_ofList pairs, insert?_refused_iff _,
    multiplier_pos _⟩
  intro e e_mem
  exact zero_lt_iff_toRat.mp ((ofList pairs).positive e e_mem)

/-- Insertions for ten and for nothing, with different places and signs, the last two of them with
multipliers that are not positive. -/
def repeatedPairs : List (Decimal × Decimal) :=
  [(topUpAmount "10", topUpAmount "0.9"), (topUpAmount "-0.0", .one),
    (topUpAmount "10.0", topUpAmount "0.80"), (topUpAmount "10", topUpAmount "-1"), (.zero, .zero)]

/-- Two amounts are left, ten has its second multiplier, and a multiplier of zero changes nothing. -/
theorem ofList_holds_last_repeatedPairs :
  (ofList repeatedPairs).size = 2 ∧
    (ofList repeatedPairs).get? (topUpAmount "10.00") = some (topUpAmount "0.80") ∧
    (Decimal.zero.toRat ≤ 0 ∧
      (ofList repeatedPairs).insert .zero .zero = ofList repeatedPairs)
  := by
  obtain ⟨-, -, size_eq, get?_eq, insert_eq, -⟩ := ofList_holds_last repeatedPairs
  have not_positive : Decimal.zero.toRat ≤ 0 := by decide
  refine ⟨size_eq.trans ?_, (get?_eq _).trans ?_, not_positive, (insert_eq _ _).2 not_positive⟩
  · decide +kernel
  · decide +kernel

end Tariff.DiscountSchedule
