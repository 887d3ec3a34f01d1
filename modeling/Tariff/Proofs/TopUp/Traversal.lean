import Tariff.Proofs.Decimal.Values
import Tariff.Proofs.TopUp.Schedules

/-!
# Members in any order

Of the members of an object those count whose amount can be read and whose multiplier can be read
and is positive.  If no two of these have amounts of one value, the schedule that the members give
is the same in whatever order they are taken.
-/

namespace Tariff.DiscountSchedule

/-! ### Pairs in any order -/

/-- The pairs that are inserted, with their amounts as they are inserted. -/
def inserted (pairs : List (Decimal × Decimal)) : List (Decimal × Decimal) :=
  (pairs.filter fun p => .zero < p.2).map fun p => (p.1.normalize, p.2)

/-- The multipliers of pairs are those of the pairs that are inserted. -/
theorem multipliers_ofList (pairs : List (Decimal × Decimal)) :
  (ofList pairs).multipliers = .ofList (inserted pairs)
  := by
  have each (schedule : DiscountSchedule) :
      (pairs.foldl (fun schedule pair => schedule.insert pair.1 pair.2) schedule).multipliers =
        (inserted pairs).foldl (fun map pair => map.insert pair.1 pair.2) schedule.multipliers := by
    induction pairs generalizing schedule with
    | nil => rfl
    | cons p pairs ih =>
      by_cases positive : .zero < p.2
      · have first : inserted (p :: pairs) = (p.1.normalize, p.2) :: inserted pairs := by
          simp [inserted, positive]
        rw [List.foldl_cons, ih, multipliers_insert positive, first, List.foldl_cons]
      · have passed : inserted (p :: pairs) = inserted pairs := by simp [inserted, positive]
        rw [List.foldl_cons, ih, insert_of_not_positive positive, passed]
  exact each empty

/-- No two of the pairs that are inserted have amounts of one value. -/
def HasDistinctAmounts (pairs : List (Decimal × Decimal)) : Prop :=
  (pairs.filter fun p => .zero < p.2).Pairwise fun p q => compare p.1 q.1 ≠ .eq

instance (pairs : List (Decimal × Decimal)) : Decidable (HasDistinctAmounts pairs) :=
  inferInstanceAs (Decidable (List.Pairwise _ _))

/-- Pairs with different amounts are all there, but for those that are not inserted. -/
theorem entries_ofList_perm {pairs : List (Decimal × Decimal)} (distinct : HasDistinctAmounts pairs) :
  (ofList pairs).entries.Perm (inserted pairs)
  := by
  have different : (inserted pairs).Pairwise fun e f => compare e.1 f.1 ≠ .eq := by
    apply List.pairwise_map.mpr
    simp only [Decimal.compare_normalize]
    exact distinct
  rw [entries, multipliers_ofList]
  exact SortedMap.entries_ofList_perm different

/-- Pairs with different amounts give one schedule in whatever order they are taken. -/
theorem ofList_perm {pairs pairs' : List (Decimal × Decimal)} (distinct : HasDistinctAmounts pairs)
    (perm : pairs'.Perm pairs) :
  ofList pairs' = ofList pairs
  := by
  have inserted_perm : (inserted pairs').Perm (inserted pairs) := (perm.filter _).map _
  have entries_perm := entries_ofList_perm distinct
  apply eq_of_multipliers
  rw [entries, multipliers_ofList] at entries_perm
  rw [multipliers_ofList, multipliers_ofList]
  exact SortedMap.ofList_eq_of_perm (inserted_perm.trans entries_perm.symm)

/-! ### Members -/

/-- Members whose usable entries have different amounts give one schedule in whatever order they
are taken. -/
theorem ofMembers_perm {members members' : List (String × Json)}
    (distinct : HasDistinctAmounts (members.filterMap entryOf?)) (perm : members'.Perm members) :
  ofMembers members' = ofMembers members
  := ofList_perm distinct (perm.filterMap entryOf?)

end Tariff.DiscountSchedule
